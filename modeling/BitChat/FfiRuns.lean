import BitChat.FfiCore
import BitChat.Library.TransitionSystem

/-!
# Runs of the FFI core

Any sequence of calls of the public functions from the zeroed global state,
with any outcome of storage, allocations and cryptography. In every state
that such a run reaches, a router serves the identity in place and hands its
messages to the inbox, and the inbox is a queue.
-/

namespace BitChat.FfiRuns

open BitChat.WireMessage BitChat.CryptoManager BitChat.DedupTable BitChat.PendingStorage
open BitChat.MeshRouter BitChat.NodeDiscovery BitChat.FfiCore TransitionSystem

set_option autoImplicit false

inductive FfiCall where
  | init (env : InitEnv)
  | generateIdentity (keypair : Option BcIdentity) (env : SetupEnv)
  | loadIdentity (identityData : List UInt8) (env : SetupEnv)
  | sendMessage (env : SendEnv) (recipient : Pubkey) (plaintext : List UInt8)
  | pollMessages (bufLen : Nat)
  | startDiscovery (env : ScanEnv)
  | tick (env : FfiTickEnv)
  | setOnMessageCallback (callback : Bool)
  | shutdown

section Runs

variable (sodium : Sodium)

def FfiCall.run (state : GState) : FfiCall → GState
  | .init env => (bitchatInit state env).2
  | .generateIdentity keypair env => (bitchatGenerateIdentity state keypair env).2
  | .loadIdentity identityData env => (bitchatLoadIdentity state identityData env).2
  | .sendMessage env recipient plaintext =>
      (bitchatSendMessage sodium state env recipient plaintext).state
  | .pollMessages bufLen => (bitchatPollMessages sodium state bufLen).2
  | .startDiscovery env => (bitchatStartDiscovery state env).2
  | .tick env => (bitchatTick sodium state env).state
  | .setOnMessageCallback callback => (bitchatSetOnMessageCallback state callback).2
  | .shutdown => bitchatShutdown state

def zeroedState : GState where
  initialized := false
  identity := ⟨List.Vector.replicate 32 0, List.Vector.replicate 32 0⟩
  transport := none
  storage := none
  store := KeyedTable.empty
  router := none
  discovery := none
  inbox := fun _ => none
  inboxHead := 0
  inboxTail := 0
  userCallback := false

def ffiSystem : System GState FfiCall where
  initial state := state = zeroedState
  step state call after := after = call.run sodium state

def runCalls (state : GState) (calls : List FfiCall) : GState :=
  calls.foldl (fun current call => call.run sodium current) state

theorem run_calls_reachable (calls : List FfiCall) :
    ∀ state : GState, Reachable (ffiSystem sodium) state →
      Reachable (ffiSystem sodium) (runCalls sodium state calls) := by
  induction calls with
  | nil => exact fun _ reached => reached
  | cons call later ih => exact fun state reached => ih _ (.next call reached rfl)

/-- The inbox stands for the queue `items`, oldest message first. -/
def Queued (state : GState) (items : List BcMessage) : Prop :=
  RingBuffer.Represents inboxSlots state.inbox state.inboxHead state.inboxTail items

structure Wired (state : GState) : Prop where
  ready : ∀ router, state.router = some router → state.initialized = true ∧
    router.localPubkey = state.identity.pubkey ∧ router.onMessage = true
  inbox : ∃ items, Queued state items

structure SameCore (before after : GState) : Prop where
  initialized : after.initialized = before.initialized
  identity : after.identity = before.identity
  transport : after.transport = before.transport
  storage : after.storage = before.storage
  router : after.router = before.router
  discovery : after.discovery = before.discovery
  userCallback : after.userCallback = before.userCallback

theorem SameCore.refl (state : GState) : SameCore state state :=
  ⟨rfl, rfl, rfl, rfl, rfl, rfl, rfl⟩

theorem SameCore.trans {first second third : GState} (start : SameCore first second)
    (rest : SameCore second third) : SameCore first third where
  initialized := rest.initialized.trans start.initialized
  identity := rest.identity.trans start.identity
  transport := rest.transport.trans start.transport
  storage := rest.storage.trans start.storage
  router := rest.router.trans start.router
  discovery := rest.discovery.trans start.discovery
  userCallback := rest.userCallback.trans start.userCallback

theorem inbox_append_core (alloc : Nat → Bool) (state : GState) (msg : BcMessage) :
    SameCore state (inboxAppend alloc state msg) := by
  simp only [inboxAppend]
  split_ifs
  · split <;> exact ⟨rfl, rfl, rfl, rfl, rfl, rfl, rfl⟩
  · exact SameCore.refl state

theorem inbox_append_queued {alloc : Nat → Bool} {state : GState} {msg : BcMessage}
    {items : List BcMessage} (queued : Queued state items) :
    Queued (inboxAppend alloc state msg) items ∨
      Queued (inboxAppend alloc state msg) (items ++ [msg]) := by
  unfold inboxAppend
  by_cases full : (state.inboxHead + 1) % inboxSlots = state.inboxTail
  · exact .inl (by simpa [full] using queued)
  · simp only [ne_eq, full, not_false_eq_true, if_true]
    unfold bcMessageCreate
    split_ifs
    · exact .inl queued
    · exact .inl queued
    · exact .inr (RingBuffer.Represents.push queued msg full)

theorem next_head_free {state : GState} {items : List BcMessage} (queued : Queued state items)
    (room : items.length < 255) : (state.inboxHead + 1) % inboxSlots ≠ state.inboxTail := by
  intro full
  have count := (RingBuffer.Represents.full_iff queued).mp full
  simp only [inboxSlots] at count
  omega

theorem inbox_append_room {state : GState} {msg : BcMessage} {items : List BcMessage}
    (queued : Queued state items) (room : items.length < 255) :
    Queued (inboxAppend allocates state msg) (items ++ [msg]) := by
  have free := next_head_free queued room
  have copied := RingBuffer.Represents.push queued msg free
  simpa [inboxAppend, bcMessageCreate, allocates, free, Queued] using copied

theorem inbox_append_full {state : GState} {items : List BcMessage} (alloc : Nat → Bool)
    (msg : BcMessage) (queued : Queued state items) (full : items.length = 255) :
    inboxAppend alloc state msg = state := by
  have meet : (state.inboxHead + 1) % inboxSlots = state.inboxTail := by
    apply (RingBuffer.Represents.full_iff queued).mpr
    rw [full]
    rfl
  simp [inboxAppend, meet]

theorem deliver_all_core (alloc : Nat → Nat → Bool) (events : List Event) :
    ∀ (state : GState) (k : Nat), SameCore state (deliverAll sodium alloc state k events).1 := by
  induction events with
  | nil => exact fun state _ => SameCore.refl state
  | cons event rest ih =>
      intro state k
      cases event with
      | deliver msg =>
          exact (inbox_append_core (alloc k) state msg).trans
            (ih (inboxAppend (alloc k) state msg) (k + 1))
      | store msg rc => exact ih state k
      | send peer data rc => exact ih state k

theorem deliver_all_queued (alloc : Nat → Nat → Bool) (events : List Event) :
    ∀ (state : GState) (k : Nat) (items : List BcMessage), Queued state items →
      ∃ more, Queued (deliverAll sodium alloc state k events).1 (items ++ more) ∧
        ∀ msg ∈ more, Event.deliver msg ∈ events := by
  induction events with
  | nil =>
      intro state k items queued
      exact ⟨[], by rw [List.append_nil]; exact queued, fun _ none => nomatch none⟩
  | cons event rest ih =>
      intro state k items queued
      have later : ∀ (nextK : Nat) {next : GState} {before : List BcMessage}, Queued next before →
          ∃ more, Queued (deliverAll sodium alloc next nextK rest).1 (before ++ more) ∧
            ∀ msg ∈ more, Event.deliver msg ∈ event :: rest := by
        intro nextK next before start
        obtain ⟨more, result, delivered⟩ := ih next nextK before start
        exact ⟨more, result, fun msg member => List.mem_cons_of_mem _ (delivered msg member)⟩
      cases event with
      | deliver msg =>
          rcases inbox_append_queued queued with same | joined
          · exact later (k + 1) same
          · obtain ⟨more, result, delivered⟩ := later (k + 1) joined
            rw [List.append_assoc] at result
            refine ⟨msg :: more, result, ?_⟩
            intro other member
            rcases List.mem_cons.mp member with here | inMore
            · rw [here]
              exact List.mem_cons_self
            · exact delivered other inMore
      | store msg rc => exact later k queued
      | send peer data rc => exact later k queued

theorem deliver_all_frame (alloc : Nat → Nat → Bool) (router : Option (BcRouter PendingMessages))
    (store : PendingMessages) (events : List Event) :
    ∀ (state : GState) (k : Nat),
      (deliverAll sodium alloc { state with router := router, store := store } k events).1 =
        { (deliverAll sodium alloc state k events).1 with router := router, store := store } := by
  induction events with
  | nil => exact fun _ _ => rfl
  | cons event rest ih =>
      intro state k
      cases event with
      | deliver msg =>
          have appended : inboxAppend (alloc k) { state with router := router, store := store } msg =
              { inboxAppend (alloc k) state msg with router := router, store := store } := by
            simp only [inboxAppend]
            split_ifs
            · split <;> rfl
            · rfl
          simp only [deliverAll, onMessageReceived, appended]
          exact ih (inboxAppend (alloc k) state msg) (k + 1)
      | store msg rc => exact ih state k
      | send peer data rc => exact ih state k

theorem deliver_all_append (alloc : Nat → Nat → Bool) (first second : List Event) :
    ∀ (state : GState) (k : Nat), ∃ next,
      (deliverAll sodium alloc state k (first ++ second)).1 =
        (deliverAll sodium alloc (deliverAll sodium alloc state k first).1 next second).1 := by
  induction first with
  | nil => exact fun _ k => ⟨k, rfl⟩
  | cons event rest ih =>
      intro state k
      cases event with
      | deliver msg => exact ih (inboxAppend (alloc k) state msg) (k + 1)
      | store msg rc => exact ih state k
      | send peer data rc => exact ih state k

theorem deliver_all_silent (alloc : Nat → Nat → Bool) (events : List Event)
    (silent : ∀ msg, Event.deliver msg ∉ events) :
    ∀ (state : GState) (k : Nat), (deliverAll sodium alloc state k events).1 = state := by
  induction events with
  | nil => exact fun _ _ => rfl
  | cons event rest ih =>
      intro state k
      have later := ih fun msg member => silent msg (List.mem_cons_of_mem _ member)
      cases event with
      | deliver msg => exact absurd List.mem_cons_self (silent msg)
      | store msg rc => exact later state k
      | send peer data rc => exact later state k

theorem poll_queued {state : GState} {msg : BcMessage} {items : List BcMessage} (bufLen : Nat)
    (initialized : state.initialized = true) (queued : Queued state (msg :: items)) :
    (bitchatPollMessages sodium state bufLen).1 =
        pollSlot sodium state.identity (some msg) bufLen ∧
      Queued (bitchatPollMessages sodium state bufLen).2 items ∧
      SameCore state (bitchatPollMessages sodium state bufLen).2 := by
  have nonempty : state.inboxTail ≠ state.inboxHead := by
    intro meet
    cases (RingBuffer.Represents.empty_iff queued).mp meet
  obtain ⟨front, rest⟩ := RingBuffer.Represents.pop queued
  simp only [bitchatPollMessages, initialized, Bool.true_eq_false, if_false, nonempty, front]
  exact ⟨trivial, rest, initialized.symm, rfl, rfl, rfl, rfl, rfl, rfl⟩

theorem poll_empty {state : GState} (bufLen : Nat) (initialized : state.initialized = true)
    (queued : Queued state []) :
    bitchatPollMessages sodium state bufLen = (⟨.ok, 0, none, []⟩, state) := by
  have meet := (RingBuffer.Represents.empty_iff queued).mpr rfl
  simp [bitchatPollMessages, initialized, meet]

structure FreshRouter (state : GState) (router : BcRouter PendingMessages) : Prop where
  localPubkey : router.localPubkey = state.identity.pubkey
  onMessage : router.onMessage = true
  peers : router.peers = []
  dedupTable : router.dedupTable = emptyTable

structure Recreated (before after : GState) : Prop where
  initialized : after.initialized = before.initialized
  identity : after.identity = before.identity
  transport : after.transport = before.transport
  storage : after.storage = before.storage
  inbox : after.inbox = before.inbox
  inboxHead : after.inboxHead = before.inboxHead
  inboxTail : after.inboxTail = before.inboxTail
  userCallback : after.userCallback = before.userCallback
  router : ∀ router, after.router = some router → FreshRouter before router
  discovery : after.discovery = before.discovery ∨
    ∀ discovery, after.discovery = some discovery → discovery.peers = []

theorem discovery_create_peers {alloc : Bool} {transport : Option BcTransport}
    {discovery : BcDiscovery} (made : bcDiscoveryCreate alloc transport = some discovery) :
    discovery.peers = [] := by
  unfold bcDiscoveryCreate at made
  split_ifs at made
  rw [← Option.some.inj made]

theorem recreate_recreated (state : GState) (env : SetupEnv) :
    Recreated state (recreate state env).2 := by
  unfold recreate
  split
  · exact ⟨rfl, rfl, rfl, rfl, rfl, rfl, rfl, rfl, by simp, .inl rfl⟩
  · rename_i made created
    refine ⟨rfl, rfl, rfl, rfl, rfl, rfl, rfl, rfl, ?_, .inr fun _ => discovery_create_peers⟩
    intro router same
    cases same
    rw [created_eq created]
    exact ⟨rfl, rfl, rfl, rfl⟩

theorem wired_recreate {state : GState} {env : SetupEnv} (initialized : state.initialized = true)
    (inbox : ∃ items, Queued state items) : Wired (recreate state env).2 := by
  have recreated := recreate_recreated state env
  constructor
  · intro router present
    have fresh := recreated.router router present
    rw [recreated.initialized, recreated.identity]
    exact ⟨initialized, fresh.localPubkey, fresh.onMessage⟩
  · unfold Queued
    rw [recreated.inbox, recreated.inboxHead, recreated.inboxTail]
    exact inbox

def sealedMessage (state : GState) (env : SendEnv) (recipient : Pubkey)
    (ciphertext : List UInt8) : BcMessage where
  uuid := env.uuid
  ttl := bcDefaultTtl
  senderPubkey := state.identity.pubkey
  receiverPubkey := recipient
  timestamp := env.created
  payload := env.nonce.toList ++ ciphertext

theorem seal_for_ok {identity : BcIdentity} {env : SendEnv} {recipient : Pubkey}
    {plaintext payload : List UInt8}
    (sealed : sealFor sodium identity env recipient plaintext = .ok payload) :
    ∃ key ciphertext, sodium.boxBeforenm recipient identity.secretKey = some key ∧
      sodium.aeadEncrypt key env.nonce plaintext = some ciphertext ∧
      payload = env.nonce.toList ++ ciphertext := by
  unfold sealFor bcCryptoDeriveShared at sealed
  cases derived : sodium.boxBeforenm recipient identity.secretKey with
  | none => simp [derived] at sealed
  | some key =>
      simp only [derived] at sealed
      split_ifs at sealed
      unfold bcCryptoEncrypt at sealed
      cases encrypted : sodium.aeadEncrypt key env.nonce plaintext with
      | none => simp [encrypted] at sealed
      | some ciphertext =>
          simp only [encrypted, Except.ok.injEq] at sealed
          exact ⟨key, ciphertext, rfl, encrypted, sealed.symm⟩

theorem seal_for_error {identity : BcIdentity} {env : SendEnv} {recipient : Pubkey}
    {plaintext : List UInt8} {rc : Rc}
    (refused : sealFor sodium identity env recipient plaintext = .error rc) : rc ≠ .ok := by
  unfold sealFor bcCryptoDeriveShared bcCryptoEncrypt at refused
  rintro rfl
  cases derived : sodium.boxBeforenm recipient identity.secretKey with
  | none => simp [derived] at refused
  | some key =>
      cases encrypted : sodium.aeadEncrypt key env.nonce plaintext <;>
        simp only [derived, encrypted] at refused <;> split_ifs at refused <;> simp at refused

/-- Everything a send can do: refuse, with the state unchanged, or broadcast
what it has encrypted under the key it shares with the recipient. -/
theorem send_cases (state : GState) (env : SendEnv) (recipient : Pubkey)
    (plaintext : List UInt8) :
    (∃ rc, bitchatSendMessage sodium state env recipient plaintext = ⟨rc, state, [], []⟩ ∧
      rc ≠ .ok) ∨
    ∃ router key ciphertext, state.initialized = true ∧ state.router = some router ∧
      sodium.boxBeforenm recipient state.identity.secretKey = some key ∧
      sodium.aeadEncrypt key env.nonce plaintext = some ciphertext ∧
      bitchatSendMessage sodium state env recipient plaintext =
        let broadcast := bcRouterBroadcast ⟨router, state.store⟩ env.call
          (sealedMessage state env recipient ciphertext)
        ⟨broadcast.rc,
          { state with router := some broadcast.node.router, store := broadcast.node.store },
          broadcast.events, []⟩ := by
  unfold bitchatSendMessage
  split_ifs with off
  · exact .inl ⟨_, rfl, by decide⟩
  · split
    · exact .inl ⟨_, rfl, by decide⟩
    · rename_i router present
      split
      · rename_i rc refused
        exact .inl ⟨rc, rfl, seal_for_error sodium refused⟩
      · rename_i payload sealed
        obtain ⟨key, ciphertext, derived, encrypted, same⟩ := seal_for_ok sodium sealed
        split
        · exact .inl ⟨_, rfl, by decide⟩
        · rename_i msg created
          refine .inr ⟨router, key, ciphertext, by simpa using off, present, derived, encrypted, ?_⟩
          unfold bcMessageCreate at created
          split_ifs at created
          rw [same] at created
          rw [← Option.some.inj created]
          rfl

theorem tick_identity (state : GState) (env : FfiTickEnv) :
    (bitchatTick sodium state env).state.initialized = state.initialized ∧
      (bitchatTick sodium state env).state.identity = state.identity := by
  unfold bitchatTick
  split_ifs
  · exact ⟨rfl, rfl⟩
  · split
    · exact ⟨rfl, rfl⟩
    · exact ⟨(deliver_all_core sodium env.alloc _ _ 0).initialized,
        (deliver_all_core sodium env.alloc _ _ 0).identity⟩

def withNode (state : GState) (node : Node PendingMessages) : GState :=
  { state with router := some node.router, store := node.store }

def afterTick (state : GState) (router : BcRouter PendingMessages) (env : FfiTickEnv) : GState :=
  let ticked := bcRouterTick ⟨router, state.store⟩ env.tick
  (deliverAll sodium env.alloc (withNode state ticked.1) 0 ticked.2).1

theorem after_tick_core (state : GState) (router : BcRouter PendingMessages) (env : FfiTickEnv) :
    SameCore (withNode state (bcRouterTick ⟨router, state.store⟩ env.tick).1)
      (afterTick sodium state router env) :=
  deliver_all_core sodium env.alloc (bcRouterTick ⟨router, state.store⟩ env.tick).2 _ 0

theorem after_tick_queued {state : GState} (router : BcRouter PendingMessages) (env : FfiTickEnv)
    {items : List BcMessage} (queued : Queued state items) :
    ∃ more, Queued (afterTick sodium state router env) (items ++ more) ∧
      ∀ msg ∈ more, Event.deliver msg ∈ (bcRouterTick ⟨router, state.store⟩ env.tick).2 :=
  deliver_all_queued sodium env.alloc (bcRouterTick ⟨router, state.store⟩ env.tick).2
    (withNode state (bcRouterTick ⟨router, state.store⟩ env.tick).1) 0 items queued

/-- Everything a call can do to the core: nothing, or what its longest path
does. -/
inductive Effect (state : GState) : FfiCall → GState → Prop
  | nothing (call : FfiCall) : Effect state call state
  | storageFailed (env : InitEnv) (down : state.initialized = false) :
      Effect state (.init env) { state with storage := none }
  | started (env : InitEnv) (store : PendingMessages) (down : state.initialized = false) :
      Effect state (.init env)
        { state with
          storage := some sqliteStorage
          store := store
          transport := env.transport
          initialized := true }
  | generated (id : BcIdentity) (env : SetupEnv) (up : state.initialized = true) :
      Effect state (.generateIdentity (some id) env) (recreate { state with identity := id } env).2
  | loaded (identityData : List UInt8) (id : BcIdentity) (env : SetupEnv)
      (up : state.initialized = true) (parsed : bcIdentityDeserialize identityData = some id) :
      Effect state (.loadIdentity identityData env) (recreate { state with identity := id } env).2
  | sent (env : SendEnv) (recipient : Pubkey) (plaintext : List UInt8)
      (router : BcRouter PendingMessages) (msg : BcMessage) (up : state.initialized = true)
      (present : state.router = some router) :
      Effect state (.sendMessage env recipient plaintext)
        (withNode state (bcRouterBroadcast ⟨router, state.store⟩ env.call msg).node)
  | polled (bufLen : Nat) (up : state.initialized = true)
      (content : state.inboxTail ≠ state.inboxHead) :
      Effect state (.pollMessages bufLen)
        { state with inboxTail := (state.inboxTail + 1) % inboxSlots }
  | scanned (env : ScanEnv) (discovery : BcDiscovery) (up : state.initialized = true)
      (present : state.discovery = some discovery) :
      Effect state (.startDiscovery env)
        { state with discovery := some (bcDiscoveryScan discovery env).2.1 }
  | ticked (env : FfiTickEnv) (router : BcRouter PendingMessages) (up : state.initialized = true)
      (present : state.router = some router) :
      Effect state (.tick env) (afterTick sodium state router env)
  | registered (callback : Bool) (up : state.initialized = true) :
      Effect state (.setOnMessageCallback callback) { state with userCallback := callback }
  | stopped (up : state.initialized = true) :
      Effect state .shutdown
        { state with
          initialized := false
          identity := bcIdentityWipe state.identity
          transport := none
          storage := none
          router := none
          discovery := none
          inboxHead := 0
          inboxTail := 0
          userCallback := false }

theorem effect_init (state : GState) (env : InitEnv) :
    Effect sodium state (.init env) (bitchatInit state env).2 := by
  unfold bitchatInit
  split_ifs with mutex on crypto
  · exact .nothing _
  · exact .nothing _
  · exact .nothing _
  · have down : state.initialized = false := by simpa using on
    split
    · exact .storageFailed env down
    · rename_i store opened
      exact .started env store down

theorem effect_send (state : GState) (env : SendEnv) (recipient : Pubkey)
    (plaintext : List UInt8) :
    Effect sodium state (.sendMessage env recipient plaintext)
      (bitchatSendMessage sodium state env recipient plaintext).state := by
  rcases send_cases sodium state env recipient plaintext with
    ⟨rc, same, -⟩ | ⟨router, key, ciphertext, up, present, -, -, same⟩
  · rw [same]
    exact .nothing _
  · rw [same]
    exact .sent env recipient plaintext router _ up present

theorem run_effect (state : GState) (call : FfiCall) :
    Effect sodium state call (call.run sodium state) := by
  have up : ¬ state.initialized = false → state.initialized = true := by simp
  cases call with
  | init env => exact effect_init sodium state env
  | generateIdentity keypair env =>
      simp only [FfiCall.run, bitchatGenerateIdentity]
      split_ifs with off
      · exact .nothing _
      · cases keypair with
        | none => exact .nothing _
        | some id => exact .generated id env (up off)
  | loadIdentity identityData env =>
      simp only [FfiCall.run, bitchatLoadIdentity]
      split_ifs with off
      · exact .nothing _
      · cases parsed : bcIdentityDeserialize identityData with
        | none => exact .nothing _
        | some id => exact .loaded identityData id env (up off) parsed
  | sendMessage env recipient plaintext => exact effect_send sodium state env recipient plaintext
  | pollMessages bufLen =>
      simp only [FfiCall.run, bitchatPollMessages]
      split_ifs with off empty
      · exact .nothing _
      · exact .nothing _
      · exact .polled bufLen (up off) empty
  | startDiscovery env =>
      simp only [FfiCall.run, bitchatStartDiscovery]
      split_ifs with off
      · exact .nothing _
      · split
        · exact .nothing _
        · rename_i discovery present
          exact .scanned env discovery (up off) present
  | tick env =>
      simp only [FfiCall.run, bitchatTick]
      split_ifs with off
      · exact .nothing _
      · split
        · exact .nothing _
        · rename_i router present
          exact .ticked env router (up off) present
  | setOnMessageCallback callback =>
      simp only [FfiCall.run, bitchatSetOnMessageCallback]
      split_ifs with off
      · exact .nothing _
      · exact .registered callback (up off)
  | shutdown =>
      simp only [FfiCall.run, bitchatShutdown]
      split_ifs with off
      · exact .nothing _
      · exact .stopped (up off)

theorem wired_tick {state : GState} {router : BcRouter PendingMessages} (env : FfiTickEnv)
    (wired : Wired state) (present : state.router = some router) :
    Wired (afterTick sodium state router env) := by
  obtain ⟨initialized, localKey, registered⟩ := wired.ready router present
  obtain ⟨items, queued⟩ := wired.inbox
  have wiring := tick_fixture ⟨router, state.store⟩ env.tick
  have core := after_tick_core sodium state router env
  constructor
  · intro installed same
    cases core.router.symm.trans same
    rw [core.initialized, core.identity]
    exact ⟨initialized, wiring.localPubkey.trans localKey, wiring.onMessage.trans registered⟩
  · obtain ⟨more, extended, -⟩ := after_tick_queued sodium router env queued
    exact ⟨items ++ more, extended⟩

theorem wired_effect {state after : GState} {call : FfiCall} (wired : Wired state)
    (effect : Effect sodium state call after) : Wired after := by
  cases effect with
  | nothing => exact wired
  | storageFailed env down => exact ⟨wired.ready, wired.inbox⟩
  | started env store down =>
      exact ⟨fun router present => ⟨rfl, (wired.ready router present).2⟩, wired.inbox⟩
  | generated id env up => exact wired_recreate up wired.inbox
  | loaded identityData id env up parsed => exact wired_recreate up wired.inbox
  | sent env recipient plaintext router msg up present =>
      obtain ⟨-, localKey, registered⟩ := wired.ready router present
      have wiring := broadcast_fixture ⟨router, state.store⟩ env.call msg
      refine ⟨?_, wired.inbox⟩
      intro installed same
      cases same
      exact ⟨up, wiring.localPubkey.trans localKey, wiring.onMessage.trans registered⟩
  | polled bufLen up content =>
      refine ⟨wired.ready, ?_⟩
      obtain ⟨items, queued⟩ := wired.inbox
      cases items with
      | nil => exact absurd ((RingBuffer.Represents.empty_iff queued).mpr rfl) content
      | cons msg rest => exact ⟨rest, (RingBuffer.Represents.pop queued).2⟩
  | scanned env discovery up present => exact ⟨wired.ready, wired.inbox⟩
  | ticked env router up present => exact wired_tick sodium env wired present
  | registered callback up => exact ⟨wired.ready, wired.inbox⟩
  | stopped up =>
      refine ⟨?_, [], RingBuffer.represents_nil state.inbox (by decide)⟩
      intro router wrong
      cases wrong

theorem wired_of_reachable {state : GState} (reached : Reachable (ffiSystem sodium) state) :
    Wired state := by
  apply Reachable.invariant Wired _ _ reached
  · rintro _ rfl
    refine ⟨?_, [], ?_⟩
    · intro router wrong
      cases wrong
    · exact RingBuffer.represents_nil _ (by decide)
  · rintro before call _ wired rfl
    exact wired_effect sodium wired (run_effect sodium before call)

end Runs

def plainIdentity (tag : UInt8) : BcIdentity :=
  ⟨List.Vector.replicate 32 tag, List.Vector.replicate 32 tag⟩

def setupCalls (tag : UInt8) : List FfiCall :=
  [.init ⟨true, true, some KeyedTable.empty, some ⟨true, true, true⟩⟩,
    .loadIdentity (bcIdentitySerialize (plainIdentity tag)) ⟨allocates, true⟩]

def loadedNode (tag : UInt8) : GState :=
  runCalls plainSodium zeroedState (setupCalls tag)

def loadedRouter (tag : UInt8) : BcRouter PendingMessages where
  transport := some ⟨true, true, true⟩
  storage := some sqliteStorage
  config := bcDefaultConfig
  localPubkey := (plainIdentity tag).pubkey
  dedupTable := emptyTable
  dedupCap := 10000
  peers := []
  onMessage := true
  lastSfTick := 0

theorem loaded_node_eq (tag : UInt8) :
    loadedNode tag =
      { zeroedState with
        initialized := true
        identity := plainIdentity tag
        transport := some ⟨true, true, true⟩
        storage := some sqliteStorage
        router := some (loadedRouter tag)
        discovery := bcDiscoveryCreate true (some ⟨true, true, true⟩) } := by
  simp only [loadedNode, runCalls, setupCalls, List.foldl, FfiCall.run, bitchatInit, zeroedState,
    bitchatLoadIdentity, identity_round_trip, recreate, bcRouterCreate]
  rfl

theorem loaded_node_reachable (tag : UInt8) :
    Reachable (ffiSystem plainSodium) (loadedNode tag) :=
  run_calls_reachable plainSodium (setupCalls tag) zeroedState (.start rfl)

theorem loaded_node_wired (tag : UInt8) : Wired (loadedNode tag) :=
  wired_of_reachable plainSodium (loaded_node_reachable tag)

end BitChat.FfiRuns
