import BitChat.Polling
import BitChat.Library.LockedThreads

/-!
# The JNI bridge under threads

The app enters the core from several threads: the tick loop and the
repositories run on a pool, the service is torn down on the main thread. Two
mutexes order them. `g_state.mutex` is held from the first to the last line of
every FFI function, so also while a tick calls `jni_on_message_callback`, and
`g_listener_mutex` is held around every use of the global reference to the
Kotlin listener. The model takes each method apart into the steps between
which another thread may run. `bitchat_init` sets the first mutex up where it
does not exist, and `bitchat_shutdown` destroys it after it has unlocked it.
Runs end where POSIX leaves open what happens: at a call that initialises the
mutex while it exists, locks it while it does not, or destroys it while
somebody holds it. The listener keeps its contract: it makes no calls of its
own.
-/

namespace BitChat.JniBridge

open BitChat.WireMessage BitChat.CryptoManager BitChat.MeshRouter BitChat.NodeDiscovery
open BitChat.FfiCore BitChat.FfiRuns BitChat.Polling TransitionSystem LockedThreads

set_option autoImplicit false

inductive Lock where
  | state
  | listener
deriving DecidableEq

inductive Native (Listener : Type) where
  | init (env : InitEnv)
  | generateIdentity (keypair : Option BcIdentity) (env : SetupEnv)
  | loadIdentity (identityData : List UInt8) (env : SetupEnv)
  | sendMessage (env : SendEnv) (recipient : Pubkey) (plaintext : List UInt8)
  | pollMessages
  | startDiscovery (env : ScanEnv)
  | tick (env : FfiTickEnv)
  | setOnMessageCallback (listener : Option Listener)
  | shutdown

/-- Where a thread stands. A function of the FFI reads the state, runs its
body on it and writes it back before it unlocks. -/
inductive Phase (Listener : Type) where
  | outside
  | ensureMutex (env : InitEnv)
  | coreLock (call : FfiCall)
  | coreRead (call : FfiCall)
  | coreBody (call : FfiCall) (snapshot : GState) (pushes : List Push)
  | coreUnlock (destroys : Bool)
  | destroyMutex
  | callbackCheck (call : FfiCall) (snapshot : GState) (push : Push) (rest : List Push)
  | callbackCall (call : FfiCall) (snapshot : GState) (push : Push) (rest : List Push)
  | callbackUnlock (call : FfiCall) (snapshot : GState) (rest : List Push)
  | setLock (listener : Option Listener)
  | setRelease (listener : Option Listener)
  | setAcquire (listener : Option Listener)
  | setMethod (listener : Listener)
  | shutdownLock
  | shutdownRelease
  | listenerUnlock (next : Option FfiCall)

structure Handed (Listener : Type) where
  push : Push
  listener : Option Listener
deriving DecidableEq

/-- The global variables. `mutexReady` tells that `g_state.mutex` exists and
`mutex_initialized` is set: a thread that runs between the two writes of
`ensure_mutex` or of `bitchat_shutdown` and can tell them apart sets up a
mutex that exists or locks one that does not. `refs` are the global
references of the virtual machine that have not been deleted, `fault` tells
that a reference was deleted or called through that is not among them.
`served` and `handed` record the calls that the core has finished and the
returns of the callback. -/
structure Shared (Listener : Type) where
  core : GState
  mutexReady : Bool
  refs : Nat → Option Listener
  nextRef : Nat
  listenerRef : Option Nat
  onMessageMethod : Bool
  fault : Bool
  served : List FfiCall
  handed : List (Handed Listener)

/-- The call that an idle thread makes, and the outcome of the JNI function
that a step depends on. -/
structure Choice (Listener : Type) where
  native : Native Listener
  luck : Bool

def jniBufSize : Nat := 4096

section Bridge

variable {Listener : Type}

/-- The checks of the arguments, made before any lock is taken. -/
def Native.enter : Native Listener → Phase Listener
  | .init env => .ensureMutex env
  | .generateIdentity keypair env => .coreLock (.generateIdentity keypair env)
  | .loadIdentity identityData env =>
      if identityData.length < 64 then .outside else .coreLock (.loadIdentity identityData env)
  | .sendMessage env recipient plaintext =>
      if plaintext.length = 0 then .outside
      else .coreLock (.sendMessage env recipient plaintext)
  | .pollMessages => .coreLock (.pollMessages jniBufSize)
  | .startDiscovery env => .coreLock (.startDiscovery env)
  | .tick env => .coreLock (.tick env)
  | .setOnMessageCallback listener => .setLock listener
  | .shutdown => .shutdownLock

def Phase.holds : Phase Listener → Lock → Prop
  | .coreRead _, .state => True
  | .coreBody _ _ _, .state => True
  | .coreUnlock _, .state => True
  | .callbackCheck _ _ _ _, _ => True
  | .callbackCall _ _ _ _, _ => True
  | .callbackUnlock _ _ _, _ => True
  | .setRelease _, .listener => True
  | .setAcquire _, .listener => True
  | .setMethod _, .listener => True
  | .shutdownRelease, .listener => True
  | .listenerUnlock _, .listener => True
  | _, _ => False

def Shared.deleteGlobalRef (shared : Shared Listener) (ref : Nat) : Shared Listener :=
  { shared with
    refs := Function.update shared.refs ref none
    fault := shared.fault || (shared.refs ref).isNone }

/-- `if (g_listener_ref) { ... }` of `nativeSetOnMessageCallback` and of
`shutdown`. -/
def Shared.releaseListener (shared : Shared Listener) : Shared Listener :=
  match shared.listenerRef with
  | none => shared
  | some ref =>
      { shared.deleteGlobalRef ref with listenerRef := none, onMessageMethod := false }

def Shared.newGlobalRef (shared : Shared Listener) (listener : Listener) : Shared Listener :=
  { shared with
    refs := Function.update shared.refs shared.nextRef (some listener)
    nextRef := shared.nextRef + 1
    listenerRef := some shared.nextRef }

/-- The end of `nativeSetOnMessageCallback` for a listener without the method. -/
def Shared.failMethod (shared : Shared Listener) : Shared Listener :=
  match shared.listenerRef with
  | none => { shared with fault := true }
  | some ref =>
      { shared.deleteGlobalRef ref with listenerRef := none, onMessageMethod := false }

/-- `CallVoidMethod` on `g_listener_ref`. -/
def Shared.callVoidMethod (shared : Shared Listener) (push : Push) : Shared Listener :=
  match shared.listenerRef.bind shared.refs with
  | none => { shared with fault := true }
  | some listener => { shared with handed := shared.handed ++ [⟨push, some listener⟩] }

def Shared.dropPush (shared : Shared Listener) (push : Push) : Shared Listener :=
  { shared with handed := shared.handed ++ [⟨push, none⟩] }

variable (sodium : Sodium)

def pushesOf (state : GState) : FfiCall → List Push
  | .tick env => (bitchatTick sodium state env).pushes
  | _ => []

/-- Whether `bitchat_shutdown` gets to `pthread_mutex_destroy`. -/
def destroysMutex (state : GState) : FfiCall → Bool
  | .shutdown => state.initialized
  | _ => false

def afterListener : Option FfiCall → Phase Listener
  | none => .outside
  | some call => .coreLock call

def bridgeNext (phase : Phase Listener) (shared : Shared Listener) (choice : Choice Listener) :
    Option (Action Lock (Shared Listener) × Phase Listener) :=
  match phase with
  | .outside => some (.work shared, choice.native.enter)
  | .ensureMutex env =>
      if shared.mutexReady then some (.work shared, .coreLock (.init { env with mutex := true }))
      else if env.mutex then some (.work { shared with mutexReady := true }, .coreLock (.init env))
      else some (.work shared, .outside)
  | .coreLock call =>
      -- Locking a mutex that does not exist is undefined.
      if shared.mutexReady then some (.take .state, .coreRead call) else none
  | .coreRead call =>
      some (.work shared, .coreBody call shared.core (pushesOf sodium shared.core call))
  | .coreBody call snapshot [] =>
      some (.work { shared with
          core := call.run sodium snapshot
          served := shared.served ++ [call] },
        .coreUnlock (destroysMutex snapshot call))
  | .coreBody call snapshot (push :: rest) =>
      some (.take .listener, .callbackCheck call snapshot push rest)
  | .callbackCheck call snapshot push rest =>
      -- Without luck the thread cannot be attached or the arrays not be made.
      if shared.listenerRef.isNone || !shared.onMessageMethod || !choice.luck then
        some (.work (shared.dropPush push), .callbackUnlock call snapshot rest)
      else some (.work shared, .callbackCall call snapshot push rest)
  | .callbackCall call snapshot push rest =>
      some (.work (shared.callVoidMethod push), .callbackUnlock call snapshot rest)
  | .callbackUnlock call snapshot rest => some (.give .listener, .coreBody call snapshot rest)
  | .coreUnlock destroys => some (.give .state, if destroys then .destroyMutex else .outside)
  | .destroyMutex =>
      -- So is destroying one that does not exist or that somebody holds.
      if shared.mutexReady then some (.retire .state { shared with mutexReady := false }, .outside)
      else none
  | .setLock listener => some (.take .listener, .setRelease listener)
  | .setRelease listener => some (.work shared.releaseListener, .setAcquire listener)
  | .setAcquire none =>
      some (.work shared, .listenerUnlock (some (.setOnMessageCallback false)))
  | .setAcquire (some listener) =>
      if choice.luck then some (.work (shared.newGlobalRef listener), .setMethod listener)
      else some (.work { shared with listenerRef := none }, .listenerUnlock none)
  | .setMethod _ =>
      if choice.luck then
        some (.work { shared with onMessageMethod := true },
          .listenerUnlock (some (.setOnMessageCallback true)))
      else some (.work shared.failMethod, .listenerUnlock none)
  | .shutdownLock => some (.take .listener, .shutdownRelease)
  | .shutdownRelease => some (.work shared.releaseListener, .listenerUnlock (some .shutdown))
  | .listenerUnlock next => some (.give .listener, afterListener next)

def bridge : Program (Phase Listener) (Shared Listener) Lock (Choice Listener) where
  idle := .outside
  holds := Phase.holds
  next := bridgeNext sodium

def freshShared (start : GState) (ready : Bool) : Shared Listener where
  core := start
  mutexReady := ready
  refs := fun _ => none
  nextRef := 0
  listenerRef := none
  onMessageMethod := false
  fault := false
  served := []
  handed := []

def bridgeSystem (Thread : Type) [DecidableEq Thread] (start : GState) :
    System (Threads Thread (Phase Listener) (Shared Listener) Lock) (Thread × Choice Listener) :=
  threadSystem (bridge sodium) (fun shared => ∃ ready, shared = freshShared start ready)

end Bridge

section Steps

variable {Listener : Type} (sodium : Sodium)

inductive Moves (shared : Shared Listener) (choice : Choice Listener) :
    Phase Listener → Action Lock (Shared Listener) → Phase Listener → Prop
  | enter : Moves shared choice .outside (.work shared) choice.native.enter
  | ensured (env : InitEnv) (ready : shared.mutexReady = true) :
      Moves shared choice (.ensureMutex env) (.work shared)
        (.coreLock (.init { env with mutex := true }))
  | created (env : InitEnv) (absent : shared.mutexReady = false) (mutex : env.mutex = true) :
      Moves shared choice (.ensureMutex env) (.work { shared with mutexReady := true })
        (.coreLock (.init env))
  | refused (env : InitEnv) (absent : shared.mutexReady = false) (mutex : env.mutex = false) :
      Moves shared choice (.ensureMutex env) (.work shared) .outside
  | lock (call : FfiCall) (ready : shared.mutexReady = true) :
      Moves shared choice (.coreLock call) (.take .state) (.coreRead call)
  | read (call : FfiCall) :
      Moves shared choice (.coreRead call) (.work shared)
        (.coreBody call shared.core (pushesOf sodium shared.core call))
  | write (call : FfiCall) (snapshot : GState) :
      Moves shared choice (.coreBody call snapshot [])
        (.work { shared with
          core := call.run sodium snapshot
          served := shared.served ++ [call] })
        (.coreUnlock (destroysMutex snapshot call))
  | callback (call : FfiCall) (snapshot : GState) (push : Push) (rest : List Push) :
      Moves shared choice (.coreBody call snapshot (push :: rest)) (.take .listener)
        (.callbackCheck call snapshot push rest)
  | drop (call : FfiCall) (snapshot : GState) (push : Push) (rest : List Push) :
      Moves shared choice (.callbackCheck call snapshot push rest) (.work (shared.dropPush push))
        (.callbackUnlock call snapshot rest)
  | check (call : FfiCall) (snapshot : GState) (push : Push) (rest : List Push) (ref : Nat)
      (inPlace : shared.listenerRef = some ref) (method : shared.onMessageMethod = true) :
      Moves shared choice (.callbackCheck call snapshot push rest) (.work shared)
        (.callbackCall call snapshot push rest)
  | call (call : FfiCall) (snapshot : GState) (push : Push) (rest : List Push) :
      Moves shared choice (.callbackCall call snapshot push rest) (.work (shared.callVoidMethod push))
        (.callbackUnlock call snapshot rest)
  | leave (call : FfiCall) (snapshot : GState) (rest : List Push) :
      Moves shared choice (.callbackUnlock call snapshot rest) (.give .listener)
        (.coreBody call snapshot rest)
  | unlock (destroys : Bool) :
      Moves shared choice (.coreUnlock destroys) (.give .state)
        (if destroys then .destroyMutex else .outside)
  | destroy (ready : shared.mutexReady = true) :
      Moves shared choice .destroyMutex (.retire .state { shared with mutexReady := false }) .outside
  | setLock (listener : Option Listener) :
      Moves shared choice (.setLock listener) (.take .listener) (.setRelease listener)
  | setRelease (listener : Option Listener) :
      Moves shared choice (.setRelease listener) (.work shared.releaseListener) (.setAcquire listener)
  | setNull :
      Moves shared choice (.setAcquire none) (.work shared)
        (.listenerUnlock (some (.setOnMessageCallback false)))
  | setAcquire (listener : Listener) :
      Moves shared choice (.setAcquire (some listener)) (.work (shared.newGlobalRef listener))
        (.setMethod listener)
  | setNomem (listener : Listener) :
      Moves shared choice (.setAcquire (some listener)) (.work { shared with listenerRef := none })
        (.listenerUnlock none)
  | setMethod (listener : Listener) :
      Moves shared choice (.setMethod listener) (.work { shared with onMessageMethod := true })
        (.listenerUnlock (some (.setOnMessageCallback true)))
  | setInvalid (listener : Listener) :
      Moves shared choice (.setMethod listener) (.work shared.failMethod) (.listenerUnlock none)
  | shutdownLock : Moves shared choice .shutdownLock (.take .listener) .shutdownRelease
  | shutdownRelease :
      Moves shared choice .shutdownRelease (.work shared.releaseListener)
        (.listenerUnlock (some .shutdown))
  | listenerUnlock (next : Option FfiCall) :
      Moves shared choice (.listenerUnlock next) (.give .listener) (afterListener next)

theorem bridge_moves {phase later : Phase Listener} {shared : Shared Listener}
    {choice : Choice Listener} {action : Action Lock (Shared Listener)}
    (next : (bridge sodium).next phase shared choice = some (action, later)) :
    Moves sodium shared choice phase action later := by
  cases phase with
  | ensureMutex env =>
      simp only [bridge, bridgeNext] at next
      split_ifs at next with ready mutex
      · cases next
        exact .ensured env ready
      · cases next
        exact .created env (Bool.eq_false_of_not_eq_true ready) mutex
      · cases next
        exact .refused env (Bool.eq_false_of_not_eq_true ready) (Bool.eq_false_of_not_eq_true mutex)
  | coreLock call =>
      simp only [bridge, bridgeNext] at next
      split at next
      · next ready =>
          cases next
          exact .lock call ready
      · cases next
  | destroyMutex =>
      simp only [bridge, bridgeNext] at next
      split at next
      · next ready =>
          cases next
          exact .destroy ready
      · cases next
  | coreBody call snapshot pushes =>
      cases pushes with
      | nil =>
          cases next
          exact .write call snapshot
      | cons push rest =>
          cases next
          exact .callback call snapshot push rest
  | callbackCheck call snapshot push rest =>
      simp only [bridge, bridgeNext] at next
      split at next
      · cases next
        exact .drop call snapshot push rest
      · next ready =>
          cases next
          simp only [Bool.or_eq_true, Bool.not_eq_true', not_or, Option.isNone_iff_eq_none,
            Bool.not_eq_false] at ready
          obtain ⟨ref, inPlace⟩ := Option.ne_none_iff_exists'.1 ready.1.1
          exact .check call snapshot push rest ref inPlace ready.1.2
  | setAcquire listener =>
      cases listener with
      | none =>
          cases next
          exact .setNull
      | some listener =>
          simp only [bridge, bridgeNext] at next
          split at next
          · cases next
            exact .setAcquire listener
          · cases next
            exact .setNomem listener
  | setMethod listener =>
      simp only [bridge, bridgeNext] at next
      split at next
      · cases next
        exact .setMethod listener
      · cases next
        exact .setInvalid listener
  | _ =>
      cases next
      constructor

theorem enter_holds_nothing (native : Native Listener) (lock : Lock) :
    ¬ native.enter.holds lock := by
  have outside : ¬ (Phase.outside : Phase Listener).holds lock := by cases lock <;> exact id
  have before : ∀ call, ¬ (Phase.coreLock call : Phase Listener).holds lock := by
    intro call
    cases lock <;> exact id
  cases native with
  | loadIdentity identityData env =>
      simp only [Native.enter]
      split
      · exact outside
      · exact before _
  | sendMessage env recipient plaintext =>
      simp only [Native.enter]
      split
      · exact outside
      · exact before _
  | init env => cases lock <;> exact id
  | setOnMessageCallback listener => cases lock <;> exact id
  | shutdown => cases lock <;> exact id
  | _ => exact before _

theorem bridge_disciplined :
    Disciplined (bridge sodium : Program (Phase Listener) _ Lock (Choice Listener)) where
  idle := by
    intro lock
    cases lock <;> exact id
  work := by
    intro phase shared choice worked later next lock
    cases bridge_moves sodium next
    case enter =>
        have nothing := enter_holds_nothing choice.native lock
        cases lock <;> simpa [bridge, Phase.holds] using nothing
    all_goals cases lock <;> simp [bridge, Phase.holds]
  take := by
    intro phase shared choice taken later next
    cases bridge_moves sodium next
    all_goals
      refine ⟨id, fun lock => ?_⟩
      cases lock <;> simp [bridge, Phase.holds]
  give := by
    intro phase shared choice given later next
    cases bridge_moves sodium next
    case unlock destroys =>
        refine ⟨trivial, fun lock => ?_⟩
        cases destroys <;> cases lock <;> simp [bridge, Phase.holds]
    case listenerUnlock following =>
        refine ⟨trivial, fun lock => ?_⟩
        cases following <;> cases lock <;> simp [bridge, Phase.holds, afterListener]
    case leave =>
        refine ⟨trivial, fun lock => ?_⟩
        cases lock <;> simp [bridge, Phase.holds]
  retire := by
    intro phase shared choice retired worked later next lock
    cases bridge_moves sodium next
    cases lock <;> exact ⟨id, id⟩

end Steps

section Guards

variable {Listener : Type} (sodium : Sodium)

def serialPushes : GState → List FfiCall → List Push
  | _, [] => []
  | state, call :: later => pushesOf sodium state call ++ serialPushes (call.run sodium state) later

theorem run_calls_snoc (state : GState) (calls : List FfiCall) (call : FfiCall) :
    runCalls sodium state (calls ++ [call]) = call.run sodium (runCalls sodium state calls) := by
  simp [runCalls]

theorem serial_pushes_snoc (calls : List FfiCall) (call : FfiCall) :
    ∀ state, serialPushes sodium state (calls ++ [call]) =
      serialPushes sodium state calls ++ pushesOf sodium (runCalls sodium state calls) call := by
  induction calls with
  | nil => simp [serialPushes, runCalls]
  | cons first later ih =>
      intro state
      simp [serialPushes, runCalls, ih, List.append_assoc]

/-- The call that has read the state and not written it back, with what it
read and the pushes it still has to make. -/
def Phase.pending : Phase Listener → Option (FfiCall × GState × List Push)
  | .coreBody call snapshot pushes => some (call, snapshot, pushes)
  | .callbackCheck call snapshot push rest => some (call, snapshot, push :: rest)
  | .callbackCall call snapshot push rest => some (call, snapshot, push :: rest)
  | .callbackUnlock call snapshot rest => some (call, snapshot, rest)
  | _ => none

theorem pending_holds {phase : Phase Listener} {work : FfiCall × GState × List Push}
    (pending : phase.pending = some work) : phase.holds .state := by
  cases phase with
  | coreBody | callbackCheck | callbackCall | callbackUnlock => exact trivial
  | _ => cases pending

def CoreGuard (start : GState) (shared : Shared Listener) (owner : Option (Phase Listener)) :
    Prop :=
  shared.core = runCalls sodium start shared.served ∧
    match owner.bind Phase.pending with
    | none => shared.handed.map Handed.push = serialPushes sodium start shared.served
    | some (call, snapshot, rest) =>
        snapshot = shared.core ∧
          shared.handed.map Handed.push ++ rest =
            serialPushes sodium start (shared.served ++ [call])

/-- What is known of the listener in the phases that hold its mutex. Between
them the reference and the method are both in place or both null. -/
def Shared.Listening (shared : Shared Listener) : Option (Phase Listener) → Prop
  | some (.setAcquire _) => shared.listenerRef = none ∧ shared.onMessageMethod = false
  | some (.setMethod _) => shared.listenerRef.isSome = true
  | some (.callbackCall _ _ _ _) =>
      shared.listenerRef.isSome = true ∧ shared.onMessageMethod = true
  | _ => shared.listenerRef.isSome = shared.onMessageMethod

/-- The listener mutex guards the references: the one in `g_listener_ref` and
no other is live. -/
structure ListenerGuard (shared : Shared Listener) (owner : Option (Phase Listener)) : Prop where
  sound : shared.fault = false
  only : ∀ ref, shared.refs ref ≠ none → shared.listenerRef = some ref
  live : ∀ ref, shared.listenerRef = some ref → shared.refs ref ≠ none
  listening : shared.Listening owner

def BridgeGuard (start : GState) (lock : Lock) (shared : Shared Listener)
    (owner : Option (Phase Listener)) : Prop :=
  match lock with
  | .state => CoreGuard sodium start shared owner
  | .listener => ListenerGuard shared owner

variable {sodium}

theorem ListenerGuard.weaken {shared : Shared Listener} {owner later : Option (Phase Listener)}
    (guard : ListenerGuard shared owner) (listening : shared.Listening later) :
    ListenerGuard shared later :=
  ⟨guard.sound, guard.only, guard.live, listening⟩

theorem ListenerGuard.none_live {shared : Shared Listener} {owner : Option (Phase Listener)}
    (guard : ListenerGuard shared owner) (empty : shared.listenerRef = none) (ref : Nat) :
    shared.refs ref = none := by
  by_contra live
  have inPlace := guard.only ref live
  rw [empty] at inPlace
  cases inPlace

theorem ListenerGuard.delete {shared : Shared Listener} {owner later : Option (Phase Listener)}
    {ref : Nat} (guard : ListenerGuard shared owner) (inPlace : shared.listenerRef = some ref)
    (listening : Shared.Listening { shared.deleteGlobalRef ref with
      listenerRef := none, onMessageMethod := false } later) :
    ListenerGuard { shared.deleteGlobalRef ref with
      listenerRef := none, onMessageMethod := false } later := by
  have live := Option.isSome_iff_ne_none.2 (guard.live ref inPlace)
  refine ⟨?_, ?_, nofun, listening⟩
  · simp [Shared.deleteGlobalRef, guard.sound, live]
  · intro other still
    by_cases same : other = ref
    · simp [Shared.deleteGlobalRef, same] at still
    · simp only [Shared.deleteGlobalRef, ne_eq, same, not_false_eq_true,
        Function.update_of_ne] at still
      have elsewhere := guard.only other still
      rw [inPlace] at elsewhere
      exact absurd (Option.some.inj elsewhere).symm same

theorem ListenerGuard.release {shared : Shared Listener} {owner : Option (Phase Listener)}
    (guard : ListenerGuard shared owner)
    (paired : shared.listenerRef.isSome = shared.onMessageMethod) :
    ListenerGuard shared.releaseListener none ∧ shared.releaseListener.listenerRef = none ∧
      shared.releaseListener.onMessageMethod = false := by
  unfold Shared.releaseListener
  cases inPlace : shared.listenerRef with
  | none =>
      have noMethod : shared.onMessageMethod = false := by
        rw [← paired, inPlace]
        rfl
      exact ⟨guard.weaken paired, inPlace, noMethod⟩
  | some ref => exact ⟨guard.delete inPlace rfl, rfl, rfl⟩

theorem ListenerGuard.acquire {shared : Shared Listener} {previous : Option Listener}
    (guard : ListenerGuard shared (some (.setAcquire previous))) (listener : Listener) :
    ListenerGuard (shared.newGlobalRef listener) (some (.setMethod listener)) := by
  obtain ⟨empty, -⟩ := guard.listening
  have noneLive := guard.none_live empty
  refine ⟨guard.sound, ?_, ?_, rfl⟩
  · intro ref live
    by_cases same : ref = shared.nextRef
    · simp [Shared.newGlobalRef, same]
    · simp [Shared.newGlobalRef, same, noneLive] at live
  · intro ref inPlace
    cases inPlace
    simp [Shared.newGlobalRef]

theorem ListenerGuard.call {shared : Shared Listener} {owner : Option (Phase Listener)}
    (guard : ListenerGuard shared owner) (inPlace : shared.listenerRef.isSome = true)
    (push : Push) :
    ∃ listener, shared.callVoidMethod push =
      { shared with handed := shared.handed ++ [⟨push, some listener⟩] } := by
  obtain ⟨ref, found⟩ := Option.isSome_iff_exists.1 inPlace
  obtain ⟨listener, live⟩ := Option.ne_none_iff_exists'.1 (guard.live ref found)
  exact ⟨listener, by simp [Shared.callVoidMethod, found, live]⟩

theorem core_guard_work {start : GState} {shared worked : Shared Listener}
    {choice : Choice Listener} {phase later : Phase Listener}
    (moves : Moves sodium shared choice phase (.work worked) later) (held : phase.holds .state)
    (core : CoreGuard sodium start shared (some phase))
    (listener : phase.holds .listener → ListenerGuard shared (some phase)) :
    CoreGuard sodium start worked (some later) := by
  obtain ⟨serial, pushed⟩ := core
  cases moves with
  | read call =>
      refine ⟨serial, rfl, ?_⟩
      rw [serial_pushes_snoc, ← serial]
      exact congrArg (· ++ _) pushed
  | write call snapshot =>
      obtain ⟨current, pushed⟩ := pushed
      refine ⟨?_, ?_⟩
      · rw [run_calls_snoc, ← serial, current]
      · exact (List.append_nil _).symm.trans pushed
  | drop call snapshot push rest =>
      obtain ⟨current, pushed⟩ := pushed
      exact ⟨serial, current, by simpa [Shared.dropPush] using pushed⟩
  | check call snapshot push rest ref inPlace method => exact ⟨serial, pushed⟩
  | call call snapshot push rest =>
      obtain ⟨current, pushed⟩ := pushed
      have guard := listener trivial
      obtain ⟨called, eq⟩ := guard.call guard.listening.1 push
      rw [eq]
      exact ⟨serial, current, by simpa using pushed⟩
  | _ => exact held.elim

theorem listener_guard_work {shared worked : Shared Listener} {choice : Choice Listener}
    {phase later : Phase Listener}
    (moves : Moves sodium shared choice phase (.work worked) later) (held : phase.holds .listener)
    (guard : ListenerGuard shared (some phase)) : ListenerGuard worked (some later) := by
  cases moves with
  | drop call snapshot push rest => exact ⟨guard.sound, guard.only, guard.live, guard.listening⟩
  | check call snapshot push rest ref inPlace method =>
      exact guard.weaken ⟨by rw [inPlace]; rfl, method⟩
  | call call snapshot push rest =>
      obtain ⟨inPlace, method⟩ := guard.listening
      obtain ⟨called, eq⟩ := guard.call inPlace push
      rw [eq]
      exact ⟨guard.sound, guard.only, guard.live, inPlace.trans method.symm⟩
  | setRelease listener =>
      obtain ⟨released, cleared⟩ := guard.release guard.listening
      exact released.weaken cleared
  | setNull =>
      obtain ⟨empty, noMethod⟩ := guard.listening
      exact guard.weaken (by simp [Shared.Listening, empty, noMethod])
  | setAcquire listener => exact guard.acquire listener
  | setNomem listener =>
      obtain ⟨empty, noMethod⟩ := guard.listening
      refine ⟨guard.sound, fun ref live => absurd (guard.none_live empty ref) live, nofun, ?_⟩
      exact noMethod.symm
  | setMethod listener => exact ⟨guard.sound, guard.only, guard.live, guard.listening⟩
  | setInvalid listener =>
      obtain ⟨ref, inPlace⟩ := Option.isSome_iff_exists.1 guard.listening
      simp only [Shared.failMethod, inPlace]
      exact guard.delete inPlace rfl
  | shutdownRelease =>
      obtain ⟨released, -⟩ := guard.release guard.listening
      exact released.weaken released.listening
  | _ => exact held.elim

theorem BridgeGuard.mutex {start : GState} {shared : Shared Listener} {lock : Lock}
    {owner : Option (Phase Listener)} (guard : BridgeGuard sodium start lock shared owner)
    (ready : Bool) : BridgeGuard sodium start lock { shared with mutexReady := ready } owner := by
  cases lock with
  | state => exact guard
  | listener => exact ⟨guard.sound, guard.only, guard.live, guard.listening⟩

/-- A thread without a mutex touches nothing that the mutex guards. -/
theorem bridge_frame {start : GState} {shared worked : Shared Listener}
    {choice : Choice Listener} {phase later : Phase Listener}
    (moves : Moves sodium shared choice phase (.work worked) later)
    (lock : Lock) (unheld : ¬ phase.holds lock) (owner : Option (Phase Listener))
    (guard : BridgeGuard sodium start lock shared owner) :
    BridgeGuard sodium start lock worked owner := by
  cases moves with
  | enter | ensured | refused => exact guard
  | created env absent mutex => exact guard.mutex true
  | read call => exact guard
  | write call snapshot =>
      cases lock with
      | state => exact absurd trivial unheld
      | listener => exact ⟨guard.sound, guard.only, guard.live, guard.listening⟩
  | setRelease listener | shutdownRelease =>
      cases lock with
      | state =>
          unfold Shared.releaseListener
          split <;> exact guard
      | listener => exact absurd trivial unheld
  | setInvalid listener =>
      cases lock with
      | state =>
          unfold Shared.failMethod
          split <;> exact guard
      | listener => exact absurd trivial unheld
  | setNull | setAcquire | setNomem | setMethod =>
      cases lock with
      | state => exact guard
      | listener => exact absurd trivial unheld
  | drop | check | call => exact absurd trivial unheld

theorem bridge_guarded (start : GState) :
    Guarded (bridge sodium : Program (Phase Listener) _ Lock (Choice Listener))
      (BridgeGuard sodium start) where
  work := by
    intro phase shared choice worked later next guards lock held
    have moves := bridge_moves sodium next
    cases lock with
    | state => exact core_guard_work moves held (guards .state held) (guards .listener)
    | listener => exact listener_guard_work moves held (guards .listener held)
  frame := by
    intro phase shared choice worked later next lock unheld owner guard
    exact bridge_frame (bridge_moves sodium next) lock unheld owner guard
  take := by
    intro phase shared choice taken later next free guards lock held
    cases bridge_moves sodium next with
    | lock call ready =>
        cases lock with
        | state => exact free
        | listener => exact held.elim
    | callback call snapshot push rest =>
        cases lock with
        | state => exact guards .state trivial
        | listener => exact ListenerGuard.weaken free free.listening
    | setLock listener | shutdownLock =>
        cases lock with
        | state => exact held.elim
        | listener => exact ListenerGuard.weaken free free.listening
  give := by
    intro phase shared choice given later next guards
    cases bridge_moves sodium next with
    | leave call snapshot rest =>
        refine ⟨ListenerGuard.weaken (guards .listener trivial) (guards .listener trivial).listening,
          fun lock held => ?_⟩
        cases lock with
        | state => exact guards .state trivial
        | listener => exact held.elim
    | unlock destroys =>
        refine ⟨guards .state trivial, fun lock held => ?_⟩
        cases destroys <;> cases lock <;> exact held.elim
    | listenerUnlock following =>
        refine ⟨ListenerGuard.weaken (guards .listener trivial) (guards .listener trivial).listening,
          fun lock held => ?_⟩
        cases following <;> cases lock <;> exact held.elim
  retire := by
    intro phase shared choice retired worked later next lock owner guard
    cases bridge_moves sodium next
    exact guard.mutex false

end Guards

section Scenario

def letterTickEnv : FfiTickEnv :=
  ⟨{ quietTick 100 with arrivals := [⟨.ok, wireBytes letter, quietEnv 100⟩] }, fun _ => allocates⟩

def letterPush : Push := ⟨letter.senderPubkey, [104, 105]⟩

/-- The second node's core, and two idle threads: the main thread, `false`,
and a pool thread for the ticks, `true`. -/
def idleThreads : Threads Bool (Phase Nat) (Shared Nat) Lock :=
  ⟨fun _ => .outside, fun _ => none, freshShared (loadedNode 2) true⟩

def mainTurns (native : Native Nat) (steps : Nat) : List (Bool × Choice Nat) :=
  List.replicate steps (false, ⟨native, true⟩)

def poolTurns (steps : Nat) : List (Bool × Choice Nat) :=
  List.replicate steps (true, ⟨.tick letterTickEnv, true⟩)

/-- The main thread has registered listener 7, and the pool thread is in a
tick that has found it in place, when the main thread comes to remove it. -/
def removalDuringTick : List (Bool × Choice Nat) :=
  mainTurns (.setOnMessageCallback (some 7)) 10 ++ poolTurns 5 ++
    mainTurns (.setOnMessageCallback none) 1

def removalAfterTick : List (Bool × Choice Nat) :=
  removalDuringTick ++ poolTurns 2 ++ mainTurns (.setOnMessageCallback none) 2 ++ poolTurns 2 ++
    mainTurns (.setOnMessageCallback none) 6

/-- The service is torn down, which destroys the mutex, and started anew, which
sets up another one. -/
def restart : List (Bool × Choice Nat) :=
  mainTurns .shutdown 9 ++
    mainTurns (.init ⟨true, true, some KeyedTable.empty, some ⟨true, true, true⟩⟩) 6

theorem idle_threads_run {last : Threads Bool (Phase Nat) (Shared Nat) Lock}
    {schedule : List (Bool × Choice Nat)}
    (ran : runSchedule (bridge plainSodium) idleThreads schedule = some last) :
    Reachable (bridgeSystem plainSodium Bool (loadedNode 2)) last :=
  run_schedule_reachable (.start ⟨fun _ => rfl, fun _ => rfl, true, rfl⟩) ran

end Scenario

section Results

variable {Thread Listener : Type} [DecidableEq Thread] {sodium : Sodium} {start : GState}
  {threads : Threads Thread (Phase Listener) (Shared Listener) Lock}

theorem bridge_kept (reached : Reachable (bridgeSystem sodium Thread start) threads) :
    Owned (bridge sodium) threads ∧ Kept (BridgeGuard sodium start) threads := by
  refine kept_of_reachable (bridge_disciplined sodium) (bridge_guarded start) ?_ reached
  rintro shared ⟨ready, rfl⟩ lock
  cases lock with
  | state => exact ⟨rfl, rfl⟩
  | listener => exact ⟨rfl, fun _ live => absurd rfl live, nofun, rfl⟩

/-- However the threads interleave, no global reference is deleted twice or
called through after its deletion, and none leaks: the live references are the
one in `g_listener_ref`, if there is one. When nobody is inside the listener's
mutex, the method is cached exactly if a reference is in place. -/
theorem listener_reference_exact
    (reached : Reachable (bridgeSystem sodium Thread start) threads) :
    threads.data.fault = false ∧
      (∀ ref, threads.data.refs ref ≠ none ↔ threads.data.listenerRef = some ref) ∧
      (threads.owner .listener = none →
        threads.data.listenerRef.isSome = threads.data.onMessageMethod) := by
  have guard : ListenerGuard threads.data (threads.holder .listener) :=
    (bridge_kept reached).2 .listener
  refine ⟨guard.sound, fun ref => ⟨guard.only ref, guard.live ref⟩, fun free => ?_⟩
  have listening := guard.listening
  rwa [Threads.holder, free] at listening

/-- Listener 7 is called and removed, the service starts anew, and the
reference to listener 8 is then the only one. -/
theorem restarted_reference_exact :
    ∃ threads ref, runSchedule (bridge plainSodium) idleThreads
        (removalAfterTick ++ restart ++ mainTurns (.setOnMessageCallback (some 8)) 10) =
          some threads ∧
      threads.data.handed = [⟨letterPush, some 7⟩] ∧ threads.data.refs ref = some 8 ∧
      ∀ other, threads.data.refs other ≠ none → other = ref := by
  have ends : (runSchedule (bridge plainSodium) idleThreads
      (removalAfterTick ++ restart ++ mainTurns (.setOnMessageCallback (some 8)) 10)).map
        (fun threads => (threads.data.handed, threads.data.listenerRef, threads.data.refs 1)) =
      some ([⟨letterPush, some 7⟩], some 1, some 8) := by decide +kernel
  obtain ⟨threads, ran, found⟩ := Option.map_eq_some_iff.1 ends
  simp only [Prod.mk.injEq] at found
  obtain ⟨handed, inPlace, live⟩ := found
  obtain ⟨-, exactly, -⟩ := listener_reference_exact (idle_threads_run ran)
  refine ⟨threads, 1, ran, handed, live, fun other stillLive => ?_⟩
  have there := (exactly other).1 stillLive
  rw [inPlace] at there
  exact (Option.some.inj there).symm

def Phase.wants : Phase Listener → Option Lock
  | .coreLock _ => some .state
  | .destroyMutex => some .state
  | .coreBody _ _ (_ :: _) => some .listener
  | .setLock _ => some .listener
  | .shutdownLock => some .listener
  | _ => none

/-- A tick takes the listener's mutex inside the core's, and nobody takes them
the other way round. -/
def lockRank : Lock → Nat
  | .state => 0
  | .listener => 1

theorem bridge_progressive :
    Progressive (bridge sodium : Program (Phase Listener) _ Lock (Choice Listener))
      Phase.wants lockRank 2 (fun shared => shared.mutexReady = true) where
  bounded := by
    intro lock
    cases lock <;> decide
  ordered := by
    intro phase wanted held wants holds
    unfold Phase.wants at wants
    split at wants <;> cases wants <;> cases held <;> first | exact holds.elim | decide
  moves := by
    intro phase shared ready busy
    let choice : Choice Listener := ⟨.shutdown, true⟩
    cases phase with
    | outside => exact absurd rfl busy
    | ensureMutex env => exact ⟨choice, _, _, if_pos ready, rfl⟩
    | coreLock call => exact ⟨choice, _, _, if_pos ready, rfl⟩
    | destroyMutex => exact ⟨choice, _, _, if_pos ready, rfl⟩
    | coreBody call snapshot pushes => cases pushes <;> exact ⟨choice, _, _, rfl, rfl⟩
    | callbackCheck call snapshot push rest =>
        exact ⟨⟨.shutdown, false⟩, _, _, if_pos (by simp), rfl⟩
    | setAcquire listener => cases listener <;> exact ⟨choice, _, _, rfl, rfl⟩
    | _ => exact ⟨choice, _, _, rfl, rfl⟩

/-- The threads' calls take turns. In every interleaving the core is in the
state that the finished calls leave when they run one after the other, a call
that is under way works on exactly this state, and the messages handed to the
callback are those of that serial run, in its order, none twice and none lost. -/
theorem calls_take_turns (reached : Reachable (bridgeSystem sodium Thread start) threads) :
    threads.data.core = runCalls sodium start threads.data.served ∧
      (∀ thread call snapshot rest,
        (threads.phase thread).pending = some (call, snapshot, rest) →
          snapshot = threads.data.core ∧
            threads.data.handed.map Handed.push ++ rest =
              serialPushes sodium start (threads.data.served ++ [call])) ∧
      ((∀ thread, (threads.phase thread).pending = none) →
        threads.data.handed.map Handed.push = serialPushes sodium start threads.data.served) := by
  obtain ⟨owned, kept⟩ := bridge_kept reached
  obtain ⟨serial, pushed⟩ : CoreGuard sodium start threads.data (threads.holder .state) :=
    kept .state
  refine ⟨serial, ?_, ?_⟩
  · intro thread call snapshot rest pending
    have mine : CoreGuard sodium start threads.data (some (threads.phase thread)) :=
      kept.held owned (pending_holds pending)
    have pushed := mine.2
    rwa [Option.bind_some, pending] at pushed
  · intro resting
    cases owner : threads.owner .state with
    | none =>
        rw [Threads.holder, owner] at pushed
        exact pushed
    | some thread =>
        rw [Threads.holder, owner, Option.map_some, Option.bind_some, resting thread] at pushed
        exact pushed

/-- The registration, the tick, the removal, the shutdown and the second
`init`, in this order, are what the core has done. -/
theorem restarted_calls_take_turns :
    ∃ threads, runSchedule (bridge plainSodium) idleThreads (removalAfterTick ++ restart) =
        some threads ∧
      threads.data.handed = [⟨letterPush, some 7⟩] ∧ threads.data.served.length = 5 ∧
      threads.data.mutexReady = true ∧ threads.data.core.initialized = true ∧
      threads.data.core = runCalls plainSodium (loadedNode 2) threads.data.served := by
  have ends : (runSchedule (bridge plainSodium) idleThreads (removalAfterTick ++ restart)).map
      (fun threads => (threads.data.handed, threads.data.served.length, threads.data.mutexReady,
        threads.data.core.initialized)) =
      some ([⟨letterPush, some 7⟩], 5, true, true) := by decide +kernel
  obtain ⟨threads, ran, found⟩ := Option.map_eq_some_iff.1 ends
  simp only [Prod.mk.injEq] at found
  obtain ⟨handed, served, ready, up⟩ := found
  exact ⟨threads, ran, handed, served, ready, up, (calls_take_turns (idle_threads_run ran)).1⟩

end Results

section Silence

variable {Thread Listener : Type} [DecidableEq Thread] {sodium : Sodium} {start : GState}

def Phase.registers : Phase Listener → Bool
  | .setLock (some _) => true
  | .setRelease (some _) => true
  | .setAcquire (some _) => true
  | .setMethod _ => true
  | _ => false

def Native.registers : Native Listener → Bool
  | .setOnMessageCallback (some _) => true
  | _ => false

def calledListeners (shared : Shared Listener) : List Listener :=
  shared.handed.filterMap Handed.listener

theorem enter_registers {native : Native Listener} (quiet : native.registers = false) :
    native.enter.registers = false := by
  cases native with
  | loadIdentity identityData env =>
      simp only [Native.enter]
      split <;> rfl
  | sendMessage env recipient plaintext =>
      simp only [Native.enter]
      split <;> rfl
  | setOnMessageCallback listener =>
      cases listener with
      | none => rfl
      | some listener => cases quiet
  | _ => rfl

/-- Without a reference in place, a step that registers none calls nobody. -/
theorem silent_work {shared worked : Shared Listener} {choice : Choice Listener}
    {phase later : Phase Listener}
    (moves : Moves sodium shared choice phase (.work worked) later)
    (guard : phase.holds .listener → ListenerGuard shared (some phase))
    (released : shared.listenerRef = none) (quiet : phase.registers = false)
    (asked : choice.native.registers = false) :
    worked.listenerRef = none ∧ later.registers = false ∧
      calledListeners worked = calledListeners shared := by
  cases moves with
  | enter => exact ⟨released, enter_registers asked, rfl⟩
  | drop call snapshot push rest =>
      exact ⟨released, rfl, by simp [calledListeners, Shared.dropPush]⟩
  | check call snapshot push rest ref inPlace method =>
      rw [released] at inPlace
      cases inPlace
  | call call snapshot push rest =>
      obtain ⟨inPlace, -⟩ := (guard trivial).listening
      rw [released] at inPlace
      cases inPlace
  | setRelease listener =>
      cases listener with
      | none => exact ⟨by simp [Shared.releaseListener, released], rfl,
          by simp [Shared.releaseListener, released]⟩
      | some listener => cases quiet
  | shutdownRelease =>
      exact ⟨by simp [Shared.releaseListener, released], rfl,
        by simp [Shared.releaseListener, released]⟩
  | setAcquire | setNomem | setMethod | setInvalid => cases quiet
  | ensured | created | refused | read | write | setNull => exact ⟨released, rfl, rfl⟩

theorem silent_take {shared : Shared Listener} {choice : Choice Listener} {taken : Lock}
    {phase later : Phase Listener} (moves : Moves sodium shared choice phase (.take taken) later)
    (quiet : phase.registers = false) : later.registers = false := by
  cases moves with
  | setLock listener =>
      cases listener with
      | none => rfl
      | some listener => cases quiet
  | _ => rfl

theorem silent_give {shared : Shared Listener} {choice : Choice Listener} {given : Lock}
    {phase later : Phase Listener} (moves : Moves sodium shared choice phase (.give given) later) :
    later.registers = false := by
  cases moves with
  | leave => rfl
  | unlock destroys => cases destroys <;> rfl
  | listenerUnlock following => cases following <;> rfl

theorem silent_retire {shared worked : Shared Listener} {choice : Choice Listener} {retired : Lock}
    {phase later : Phase Listener}
    (moves : Moves sodium shared choice phase (.retire retired worked) later)
    (released : shared.listenerRef = none) :
    worked.listenerRef = none ∧ later.registers = false ∧
      calledListeners worked = calledListeners shared := by
  cases moves
  exact ⟨released, rfl, rfl⟩

structure Silent (threads : Threads Thread (Phase Listener) (Shared Listener) Lock) : Prop where
  released : threads.data.listenerRef = none
  quiet : ∀ thread, (threads.phase thread).registers = false

theorem silent_step {threads after : Threads Thread (Phase Listener) (Shared Listener) Lock}
    {thread : Thread} {choice : Choice Listener}
    (reached : Reachable (bridgeSystem sodium Thread start) threads) (silent : Silent threads)
    (asked : choice.native.registers = false)
    (step : advance (bridge sodium) threads thread choice = some after) :
    Silent after ∧ calledListeners after.data = calledListeners threads.data := by
  obtain ⟨owned, kept⟩ := bridge_kept reached
  have here := silent.quiet thread
  have quietly : ∀ later : Phase Listener, later.registers = false →
      ∀ other, (Function.update threads.phase thread later other).registers = false := by
    intro later quiet other
    by_cases self : other = thread
    · simpa [self] using quiet
    · simpa [self] using silent.quiet other
  obtain ⟨later, ⟨worked, next, rfl⟩ | ⟨taken, next, free, rfl⟩ | ⟨given, next, rfl⟩ |
    ⟨retired, worked, next, free, rfl⟩⟩ := advance_cases step
  · obtain ⟨released, quiet, called⟩ := silent_work (bridge_moves sodium next)
      (fun held => kept.held owned held) silent.released here asked
    exact ⟨⟨released, quietly later quiet⟩, called⟩
  · exact ⟨⟨silent.released, quietly later (silent_take (bridge_moves sodium next) here)⟩, rfl⟩
  · exact ⟨⟨silent.released, quietly later (silent_give (bridge_moves sodium next))⟩, rfl⟩
  · obtain ⟨released, quiet, called⟩ := silent_retire (bridge_moves sodium next) silent.released
    exact ⟨⟨released, quietly later quiet⟩, called⟩

/-- Once the listener's reference has been released, by `setMessageListener`
or at the beginning of `shutdown`, no listener is called any more, however the
other threads go on, ticks under way included, until a listener is registered
anew. -/
theorem released_listener_silent
    {threads later : Threads Thread (Phase Listener) (Shared Listener) Lock}
    (reached : Reachable (bridgeSystem sodium Thread start) threads)
    (released : threads.data.listenerRef = none)
    (quiet : ∀ thread, (threads.phase thread).registers = false)
    (run : Leads (guarded (bridgeSystem sodium Thread start)
      fun _ turn => turn.2.native.registers = false) threads later) :
    calledListeners later.data = calledListeners threads.data := by
  have both : Silent later ∧ Reachable (bridgeSystem sodium Thread start) later ∧
      calledListeners later.data = calledListeners threads.data := by
    induction run with
    | stay => exact ⟨⟨released, quiet⟩, reached, rfl⟩
    | next turn _ step ih =>
        obtain ⟨silent, there, same⟩ := ih
        obtain ⟨silentAfter, called⟩ := silent_step there silent step.2 step.1
        exact ⟨silentAfter, .next turn there step.1, called.trans same⟩
  exact both.2.2

def teardownDuringTick : List (Bool × Choice Nat) :=
  mainTurns (.setOnMessageCallback (some 7)) 10 ++ poolTurns 3 ++ mainTurns .shutdown 3

def restartAfterTick : List (Bool × Choice Nat) :=
  mainTurns .shutdown 1 ++ poolTurns 5 ++ mainTurns .shutdown 5 ++
    mainTurns (.init ⟨true, true, some KeyedTable.empty, some ⟨true, true, true⟩⟩) 6

theorem released_listener_silent_over_restart :
    ∃ threads later, runSchedule (bridge plainSodium) idleThreads teardownDuringTick =
        some threads ∧
      runSchedule (bridge plainSodium) threads restartAfterTick = some later ∧
      later.data.handed = [⟨letterPush, none⟩] ∧ later.data.core.initialized = true ∧
      calledListeners later.data = calledListeners threads.data := by
  have ends : ((runSchedule (bridge plainSodium) idleThreads teardownDuringTick).bind fun threads =>
      (runSchedule (bridge plainSodium) threads restartAfterTick).map fun later =>
        (threads.data.listenerRef, (threads.phase true).registers,
          (threads.phase false).registers, later.data.handed, later.data.core.initialized)) =
      some (none, false, false, [⟨letterPush, none⟩], true) := by decide +kernel
  obtain ⟨threads, ran, more⟩ := Option.bind_eq_some_iff.1 ends
  obtain ⟨later, ranOn, found⟩ := Option.map_eq_some_iff.1 more
  simp only [Prod.mk.injEq] at found
  obtain ⟨released, pool, main, handed, up⟩ := found
  have quiet : ∀ thread, (threads.phase thread).registers = false := by
    intro thread
    cases thread with
    | false => exact main
    | true => exact pool
  have asked : ∀ turn ∈ restartAfterTick, turn.2.native.registers = false := by decide +kernel
  exact ⟨threads, later, ran, ranOn, handed, up, released_listener_silent (idle_threads_run ran)
    released quiet (run_schedule_leads _ restartAfterTick threads .stay asked ranOn)⟩

end Silence

end BitChat.JniBridge
