import BitChat.FfiRuns
import BitChat.RouterMemory

/-!
# The FFI core in memory

Transcription of `bridge/bitchat_ffi.c` and of the constructors behind it with
all their allocations: the storage with its connection and statements, the
transport, the router, the discovery manager, the messages in the inbox and
the buffers of each call. In every run of public calls, whatever allocation
fails, no freed block of the heap is touched or freed again, the allocated
blocks are those that the global state holds, and the state is the one of the
model without memory. Buffers on the stack, such as the one a datagram is
received into, are not checked.
-/

namespace BitChat.FfiMemory

open BitChat.WireMessage BitChat.CryptoManager BitChat.PendingStorage BitChat.MeshRouter
open BitChat.NodeDiscovery BitChat.FfiCore BitChat.FfiRuns BitChat.MessageMemory
open BitChat.RouterMemory Ownership

set_option autoImplicit false

structure DiscoveryPtr where
  block : Nat
  transport : Option Nat
  value : BcDiscovery

/-- `g_state` with its pointers. A poll leaves its pointer behind in the slot
it takes. `lost` are the connections that nothing points to any more. -/
structure HeapState where
  initialized : Bool
  identity : BcIdentity
  transport : Option TransportPtr
  storage : Option StoragePtr
  store : PendingMessages
  router : Option RouterPtr
  discovery : Option DiscoveryPtr
  inbox : Nat → Option MessagePtr
  inboxHead : Nat
  inboxTail : Nat
  userCallback : Bool
  lost : Multiset Nat

def HeapState.value (state : HeapState) : GState where
  initialized := state.initialized
  identity := state.identity
  transport := state.transport.map TransportPtr.value
  storage := state.storage.map fun _ => sqliteStorage
  store := state.store
  router := state.router.map RouterPtr.value
  discovery := state.discovery.map DiscoveryPtr.value
  inbox := fun slot => (state.inbox slot).map MessagePtr.value
  inboxHead := state.inboxHead
  inboxTail := state.inboxTail
  userCallback := state.userCallback

/-! ### The storage -/

/-- What `bc_storage_sqlite_create` learns from the outside. A connection that
could not be opened may still have been allocated. -/
structure StorageEnv where
  path : Bool
  ctxAlloc : Bool
  opened : Bool
  handle : Bool
  table : Bool
  index : Bool
  prepare : Nat → Bool
  vtableAlloc : Bool
  contents : PendingMessages

def prepareAll : List Bool → Prog (Bool × List Nat)
  | [] => pure (true, [])
  | ok :: rest => do
      match ← malloc ok with
      | none => pure (false, [])
      | some statement => do
          let later ← prepareAll rest
          pure (later.1, statement :: later.2)

def closeStorage (ctx db : Nat) (statements : List Nat) : Prog Unit := do
  freeAll statements
  free db
  free ctx

/-- The part of `bc_storage_sqlite_create` that has the connection. -/
def setUpStorage (env : StorageEnv) (ctx db : Nat) : Prog (Option StoragePtr) :=
  if env.table = false then do
    closeStorage ctx db []
    pure none
  else if env.index = false then do
    closeStorage ctx db []
    pure none
  else do
    let prepared ← prepareAll ((List.range 5).map env.prepare)
    if prepared.1 = false then do
      closeStorage ctx db prepared.2
      pure none
    else
      match ← malloc env.vtableAlloc with
      | none => do
          closeStorage ctx db prepared.2
          pure none
      | some block => pure (some ⟨block, ctx, db, prepared.2⟩)

/-- The second component is the connection that is given up without being
closed. -/
def bcStorageSqliteCreate (env : StorageEnv) : Prog (Option StoragePtr × Option Nat) :=
  if env.path = false then pure (none, none)
  else do
    match ← malloc env.ctxAlloc with
    | none => pure (none, none)
    | some ctx =>
        match env.opened, ← malloc (env.opened || env.handle) with
        | true, some db => do
            let storage ← setUpStorage env ctx db
            pure (storage, none)
        | _, db => do
            free ctx
            pure (none, db)

def sqliteDestroy (storage : StoragePtr) : Prog Unit := do
  accessAll [storage.block, storage.ctx]
  closeStorage storage.ctx storage.db storage.statements
  free storage.block

/-! ### The public functions -/

structure HeapInitEnv where
  mutex : Bool
  sodiumInit : Bool
  storage : StorageEnv
  transportAlloc : Bool
  transport : BcTransport

def bitchatInit (state : HeapState) (env : HeapInitEnv) : Prog (Rc × HeapState) :=
  if env.mutex = false then pure (.err, state)
  else if state.initialized then pure (.ok, state)
  else if env.sodiumInit = false then pure (.crypto, state)
  else do
    match ← bcStorageSqliteCreate env.storage with
    | (none, given) =>
        pure (.storage, { state with storage := none, lost := blockOf given + state.lost })
    | (some storage, _) => do
        let block ← malloc env.transportAlloc
        pure (.ok, { state with
          storage := some storage
          store := env.storage.contents
          transport := block.map fun block => ⟨block, env.transport⟩
          initialized := true })

def destroyRouter : Option RouterPtr → Prog Unit
  | none => pure ()
  | some router => bcRouterDestroy router

def bcDiscoveryCreate (succeeds : Bool) (transport : Option TransportPtr) :
    Prog (Option DiscoveryPtr) := do
  match ← malloc succeeds with
  | none => pure none
  | some block =>
      pure (some ⟨block, transport.map TransportPtr.block,
        { transport := transport.map TransportPtr.value, peers := [], onFound := false }⟩)

def recreate (state : HeapState) (env : SetupEnv) : Prog (Rc × HeapState) := do
  destroyRouter state.router
  match ← RouterMemory.bcRouterCreate env.routerAlloc state.transport state.storage
      state.identity.pubkey none with
  | none => pure (.nomem, { state with router := none })
  | some router => do
      freeIfAny (state.discovery.map DiscoveryPtr.block)
      let discovery ← bcDiscoveryCreate env.discoveryAlloc state.transport
      pure (.ok, { state with
        router := some { router with value := bcRouterSetOnMessage router.value true }
        discovery := discovery })

def bitchatGenerateIdentity (state : HeapState) (keypair : Option BcIdentity) (env : SetupEnv) :
    Prog (Rc × HeapState) :=
  if state.initialized = false then pure (.err, state)
  else
    match keypair with
    | none => pure (.crypto, state)
    | some id => recreate { state with identity := id } env

def bitchatLoadIdentity (state : HeapState) (identityData : List UInt8) (env : SetupEnv) :
    Prog (Rc × HeapState) :=
  if state.initialized = false then pure (.invalid, state)
  else
    match bcIdentityDeserialize identityData with
    | none => pure (.invalid, state)
    | some id => recreate { state with identity := id } env

def bitchatStartDiscovery (state : HeapState) (env : ScanEnv) : Prog (Rc × HeapState) :=
  if state.initialized = false then pure (.err, state)
  else
    match state.discovery with
    | none => pure (.err, state)
    | some discovery => do
        access discovery.block
        accessAll discovery.transport.toList
        let scan := bcDiscoveryScan discovery.value env
        pure (scan.1, { state with discovery := some { discovery with value := scan.2.1 } })

def bitchatSetOnMessageCallback (state : HeapState) (callback : Bool) : Rc × HeapState :=
  if state.initialized = false then (.err, state)
  else (.ok, { state with userCallback := callback })

/-- The loop that drains the inbox, for at most `fuel` rounds. -/
def drainInbox (inbox : Nat → Option MessagePtr) (head : Nat) : Nat → Nat → Prog Unit
  | 0, tail => if tail = head then pure () else fun _ => none
  | fuel + 1, tail =>
      if tail = head then pure ()
      else do
        bcMessageDestroy (inbox tail)
        drainInbox inbox head fuel ((tail + 1) % inboxSlots)

def destroyStorage : Option StoragePtr → Prog Unit
  | none => pure ()
  | some storage => sqliteDestroy storage

/-- The transport's own `destroy` has no context to free. -/
def destroyTransport : Option TransportPtr → Prog Unit
  | none => pure ()
  | some transport => do
      access transport.block
      free transport.block

def bitchatShutdown (state : HeapState) : Prog HeapState :=
  if state.initialized = false then pure state
  else do
    drainInbox state.inbox state.inboxHead inboxSlots state.inboxTail
    freeIfAny (state.discovery.map DiscoveryPtr.block)
    destroyRouter state.router
    destroyStorage state.storage
    destroyTransport state.transport
    pure { state with
      initialized := false
      identity := bcIdentityWipe state.identity
      transport := none
      storage := none
      router := none
      discovery := none
      inboxHead := 0
      inboxTail := 0
      userCallback := false }

structure HeapOutcome where
  rc : Rc
  state : HeapState
  events : List Event
  pushes : List Push

def HeapOutcome.value (outcome : HeapOutcome) : FfiCore.Outcome where
  rc := outcome.rc
  state := outcome.state.value
  events := outcome.events
  pushes := outcome.pushes

structure FfiClient where
  state : HeapState
  calls : Nat
  pushes : List Push

section Messages

variable (sodium : Sodium)

/-- The message of `bitchat_send_message`, with the buffer for the ciphertext
that it is copied from. -/
def sealedCopy (identity : BcIdentity) (env : SendEnv) (recipient : Pubkey)
    (plaintext : List UInt8) : Prog (Except Rc MessagePtr) :=
  match bcCryptoDeriveShared sodium identity.secretKey recipient with
  | .error rc => pure (.error rc)
  | .ok sharedKey => do
      match ← malloc (env.alloc 0) with
      | none => pure (.error .nomem)
      | some buf =>
          match bcCryptoEncrypt sodium plaintext sharedKey env.nonce with
          | .error rc => do
              free buf
              pure (.error rc)
          | .ok ciphertext => do
              access buf
              let msg ← MessageMemory.bcMessageCreate (fun k => env.alloc (k + 1)) env.uuid
                env.created identity.pubkey recipient (env.nonce.toList ++ ciphertext)
              free buf
              match msg with
              | none => pure (.error .nomem)
              | some msg => pure (.ok msg)

def bitchatSendMessage (state : HeapState) (env : SendEnv) (recipient : Pubkey)
    (plaintext : List UInt8) : Prog HeapOutcome :=
  if state.initialized = false then pure ⟨.invalid, state, [], []⟩
  else
    match state.router with
    | none => pure ⟨.invalid, state, [], []⟩
    | some router => do
        match ← sealedCopy sodium state.identity env recipient plaintext with
        | .error rc => pure ⟨rc, state, [], []⟩
        | .ok msg => do
            let result ← RouterMemory.bcRouterBroadcast router state.store env.call msg
            bcMessageDestroy (some msg)
            pure
              { rc := result.rc
                state := { state with router := some result.router, store := result.store }
                events := result.events
                pushes := [] }

def inboxAppend (alloc : Nat → Bool) (state : HeapState) (msg : MessagePtr) : Prog HeapState := do
  let next := (state.inboxHead + 1) % inboxSlots
  if next ≠ state.inboxTail then do
    let value ← msg.read
    match ← MessageMemory.bcMessageCreate alloc value.uuid value.timestamp value.senderPubkey
        value.receiverPubkey value.payload with
    | none => pure state
    | some copy =>
        pure { state with
          inbox := Function.update state.inbox state.inboxHead
            (some { copy with
              value := { copy.value with
                uuid := value.uuid, ttl := value.ttl, timestamp := value.timestamp }
              null := copy.null })
          inboxHead := next }
  else pure state

/-- A payload that is null is too short as well. -/
def pushToUser (alloc : Nat → Bool) (state : HeapState) (msg : MessagePtr) : Prog (List Push) :=
  if state.userCallback = false then pure []
  else do
    let value ← msg.read
    if value.payload.length < bcNonceSize + bcTagSize then pure []
    else
      match bcCryptoDeriveShared sodium state.identity.secretKey value.senderPubkey with
      | .error _ => pure []
      | .ok sharedKey => do
          match ← malloc (alloc 2) with
          | none => pure []
          | some plaintext => do
              access plaintext
              let pushes :=
                match openWith sodium sharedKey value.payload with
                | .error _ => []
                | .ok opened => [⟨value.senderPubkey, opened⟩]
              free plaintext
              pure pushes

def onMessageReceived (alloc : Nat → Nat → Bool) (msg : MessagePtr) (client : FfiClient) :
    Prog FfiClient := do
  let state ← inboxAppend (alloc client.calls) client.state msg
  let pushes ← pushToUser sodium (alloc client.calls) state msg
  pure ⟨state, client.calls + 1, client.pushes ++ pushes⟩

def bitchatTick (state : HeapState) (env : FfiTickEnv) : Prog HeapOutcome :=
  if state.initialized = false then pure ⟨.ok, state, [], []⟩
  else
    match state.router with
    | none => pure ⟨.ok, state, [], []⟩
    | some router => do
        let ticked ← RouterMemory.bcRouterTick (onMessageReceived sodium env.alloc) router
          state.store env.tick ⟨state, 0, []⟩
        pure
          { rc := .ok
            state := { ticked.2.state with
              router := some ticked.1.router
              store := ticked.1.store }
            events := ticked.1.events
            pushes := ticked.2.pushes }

def readIfAny : Option MessagePtr → Prog (Option BcMessage)
  | none => pure none
  | some msg => do
      let value ← msg.read
      pure (some value)

/-- All ways out of the function destroy the message. -/
def bitchatPollMessages (state : HeapState) (bufLen : Nat) : Prog (PollResult × HeapState) :=
  if state.initialized = false then pure (⟨.invalid, 0, none, []⟩, state)
  else if state.inboxTail = state.inboxHead then pure (⟨.ok, 0, none, []⟩, state)
  else do
    let msg := state.inbox state.inboxTail
    let slot ← readIfAny msg
    bcMessageDestroy msg
    pure (pollSlot sodium state.identity slot bufLen,
      { state with inboxTail := (state.inboxTail + 1) % inboxSlots })

end Messages

/-! ### Runs -/

inductive HeapCall where
  | init (env : HeapInitEnv)
  | generateIdentity (keypair : Option BcIdentity) (env : SetupEnv)
  | loadIdentity (identityData : List UInt8) (env : SetupEnv)
  | sendMessage (env : SendEnv) (recipient : Pubkey) (plaintext : List UInt8)
  | pollMessages (bufLen : Nat)
  | startDiscovery (env : ScanEnv)
  | tick (env : FfiTickEnv)
  | setOnMessageCallback (callback : Bool)
  | shutdown

def StorageEnv.succeeds (env : StorageEnv) : Bool :=
  env.path && env.ctxAlloc && env.opened && env.table && env.index &&
    ((List.range 5).map env.prepare).all id && env.vtableAlloc

def HeapInitEnv.value (env : HeapInitEnv) : InitEnv where
  mutex := env.mutex
  sodiumInit := env.sodiumInit
  database := if env.storage.succeeds then some env.storage.contents else none
  transport := if env.transportAlloc then some env.transport else none

def HeapCall.value : HeapCall → FfiCall
  | .init env => .init env.value
  | .generateIdentity keypair env => .generateIdentity keypair env
  | .loadIdentity identityData env => .loadIdentity identityData env
  | .sendMessage env recipient plaintext => .sendMessage env recipient plaintext
  | .pollMessages bufLen => .pollMessages bufLen
  | .startDiscovery env => .startDiscovery env
  | .tick env => .tick env
  | .setOnMessageCallback callback => .setOnMessageCallback callback
  | .shutdown => .shutdown

section Runs

variable (sodium : Sodium)

def HeapCall.run (state : HeapState) : HeapCall → Prog HeapState
  | .init env => do
      let result ← bitchatInit state env
      pure result.2
  | .generateIdentity keypair env => do
      let result ← bitchatGenerateIdentity state keypair env
      pure result.2
  | .loadIdentity identityData env => do
      let result ← bitchatLoadIdentity state identityData env
      pure result.2
  | .sendMessage env recipient plaintext => do
      let result ← bitchatSendMessage sodium state env recipient plaintext
      pure result.state
  | .pollMessages bufLen => do
      let result ← bitchatPollMessages sodium state bufLen
      pure result.2
  | .startDiscovery env => do
      let result ← bitchatStartDiscovery state env
      pure result.2
  | .tick env => do
      let result ← bitchatTick sodium state env
      pure result.state
  | .setOnMessageCallback callback => pure (bitchatSetOnMessageCallback state callback).2
  | .shutdown => bitchatShutdown state

def runAll : List HeapCall → HeapState → Prog HeapState
  | [], state => pure state
  | call :: rest, state => do
      let after ← call.run sodium state
      runAll rest after

end Runs

def zeroedHeapState : HeapState where
  initialized := false
  identity := ⟨List.Vector.replicate 32 0, List.Vector.replicate 32 0⟩
  transport := none
  storage := none
  store := KeyedTable.empty
  router := none
  discovery := none
  inbox := fun _ => none
  inboxHead := 0
  inboxTail := 0
  userCallback := false
  lost := 0

/-! ### What the state owns -/

def HeapState.queue (state : HeapState) : List MessagePtr :=
  RingBuffer.contents inboxSlots state.inbox state.inboxHead state.inboxTail

/-- Everything that is reachable from the global state, and the lost
connections. -/
def HeapState.owned (state : HeapState) : Multiset Nat :=
  blockOf (state.transport.map TransportPtr.block) + storageBlocks state.storage +
    routerBlocks state.router + blockOf (state.discovery.map DiscoveryPtr.block) +
    listBlocks state.queue + state.lost

/-- The invariant between the calls: the inbox is a queue, router and
discovery manager point to the ports of the state, and a core that is not
initialized holds nothing. -/
structure Sound (state : HeapState) : Prop where
  inbox : RingBuffer.Represents inboxSlots state.inbox state.inboxHead state.inboxTail state.queue
  router : ∀ router, state.router = some router → Coherent router ∧
    router.transport = state.transport.map TransportPtr.block ∧ router.storage = state.storage
  discovery : ∀ discovery, state.discovery = some discovery →
    discovery.transport = state.transport.map TransportPtr.block
  off : state.initialized = false → state.transport = none ∧ state.storage = none ∧
    state.router = none ∧ state.discovery = none ∧ state.queue = []

section Storage

theorem prepare_all_triple (outcomes : List Bool) :
    Triple 0 (prepareAll outcomes) (fun prepared => (prepared.2 : Multiset Nat))
      fun prepared => prepared.1 = outcomes.all id := by
  induction outcomes with
  | nil => exact Triple.pure (true, []) rfl rfl
  | cons ok rest ih =>
      apply (malloc_triple ok).bind
      intro statement isSome
      cases statement with
      | none =>
          have failed : ok = false := isSome.symm
          rw [failed]
          exact Triple.pure (false, []) rfl rfl
      | some statement =>
          have succeeded : ok = true := isSome.symm
          have later := ih.frame {statement}
          refine (later.weaken (Multiset.zero_add _).symm (fun _ _ => rfl)
            fun _ ensured => ensured).bind ?_
          intro prepared all
          refine Triple.pure (prepared.1, statement :: prepared.2) ?_ ?_
          · rw [← Multiset.cons_coe, ← Multiset.singleton_add]
            exact Multiset.add_comm _ _
          · rw [succeeded, all]
            rfl

theorem close_storage_triple (ctx db : Nat) (statements : List Nat) :
    Triple ((statements : Multiset Nat) + ({db} + {ctx})) (closeStorage ctx db statements)
      (fun _ => 0) fun _ => True := by
  apply ((free_all_triple statements).frame ({db} + {ctx})).bind
  intro _ _
  rw [Multiset.zero_add]
  apply ((free_triple db).frame {ctx}).bind
  intro _ _
  exact (free_triple ctx).weaken (Multiset.zero_add _) (fun _ _ => rfl) fun _ _ => trivial

theorem parts_eq (storage : StoragePtr) :
    (storage.parts : Multiset Nat) =
      (storage.statements : Multiset Nat) + ({storage.db} + {storage.ctx}) + {storage.block} := by
  simp only [StoragePtr.parts, ← Multiset.cons_coe, ← Multiset.singleton_add]
  abel

theorem sqlite_destroy_triple (storage : StoragePtr) :
    Triple (storage.parts : Multiset Nat) (sqliteDestroy storage) (fun _ => 0) fun _ => True := by
  have here : ∀ block ∈ [storage.block, storage.ctx], block ∈ (storage.parts : Multiset Nat) := by
    intro block member
    rw [Multiset.mem_coe, StoragePtr.parts]
    simp only [List.mem_cons, List.not_mem_nil, or_false] at member ⊢
    rcases member with first | second
    · exact .inl first
    · exact .inr (.inl second)
  apply (access_all_triple here).bind
  intro _ _
  rw [parts_eq]
  apply ((close_storage_triple storage.ctx storage.db storage.statements).frame
    {storage.block}).bind
  intro _ _
  exact (free_triple storage.block).weaken (Multiset.zero_add _) (fun _ _ => rfl) fun _ _ => trivial

def StorageEnv.leavesHandle (env : StorageEnv) : Bool := !env.opened && env.handle

theorem give_up_triple (ctx db : Nat) (statements : List Nat) {owned : Multiset Nat}
    (held : owned = (statements : Multiset Nat) + ({db} + {ctx}))
    {ensures : Option StoragePtr → Prop} (ensured : ensures none) :
    Triple owned
      (do
        closeStorage ctx db statements
        pure none)
      storageBlocks ensures := by
  rw [held]
  apply (close_storage_triple ctx db statements).bind
  intro _ _
  exact Triple.pure none rfl ensured

def StorageEnv.completes (env : StorageEnv) : Bool :=
  env.table && env.index && ((List.range 5).map env.prepare).all id && env.vtableAlloc

theorem set_up_triple (env : StorageEnv) (ctx db : Nat) :
    Triple ({db} + {ctx}) (setUpStorage env ctx db) storageBlocks
      fun storage => storage.isSome = env.completes := by
  have nothing : (([] : List Nat) : Multiset Nat) + ({db} + {ctx}) = {db} + {ctx} :=
    Multiset.zero_add _
  unfold setUpStorage
  by_cases noTable : env.table = false
  · rw [if_pos noTable]
    exact give_up_triple ctx db [] nothing.symm (by simp [StorageEnv.completes, noTable])
  rw [if_neg noTable]
  by_cases noIndex : env.index = false
  · rw [if_pos noIndex]
    exact give_up_triple ctx db [] nothing.symm (by simp [StorageEnv.completes, noIndex])
  rw [if_neg noIndex]
  have preparing := (prepare_all_triple ((List.range 5).map env.prepare)).frame ({db} + {ctx})
  rw [Multiset.zero_add] at preparing
  apply preparing.bind
  rintro ⟨complete, statements⟩ isComplete
  have all : ((List.range 5).map env.prepare).all id = complete := isComplete.symm
  cases complete with
  | false => exact give_up_triple ctx db statements rfl (by rw [StorageEnv.completes, all]; simp)
  | true =>
      have last := (malloc_triple env.vtableAlloc).frame
        ((statements : Multiset Nat) + ({db} + {ctx}))
      rw [Multiset.zero_add] at last
      apply last.bind
      intro block isSome
      have vtable : env.vtableAlloc = block.isSome := isSome.symm
      cases block with
      | none =>
          exact give_up_triple ctx db statements (Multiset.zero_add _)
            (by simp [StorageEnv.completes, vtable])
      | some block =>
          refine Triple.pure (some (⟨block, ctx, db, statements⟩ : StoragePtr)) ?_ ?_
          · show ((⟨block, ctx, db, statements⟩ : StoragePtr).parts : Multiset Nat) = {block} + _
            rw [parts_eq, Multiset.add_comm]
          · rw [Bool.not_eq_false] at noTable noIndex
            rw [StorageEnv.completes, noTable, noIndex, all, vtable]
            rfl

theorem succeeds_eq (env : StorageEnv) :
    env.succeeds = (env.path && env.ctxAlloc && env.opened && env.completes) := by
  simp only [StorageEnv.succeeds, StorageEnv.completes, Bool.and_assoc]

theorem storage_create_triple (env : StorageEnv) :
    Triple 0 (bcStorageSqliteCreate env)
      (fun made => storageBlocks made.1 + blockOf made.2)
      fun made => made.1.isSome = env.succeeds ∧ (made.1.isSome = true → made.2 = none) ∧
        (made.2.isSome = true → env.leavesHandle = true) := by
  have nothing : (none : Option Nat).isSome = true → env.leavesHandle = true :=
    fun absent => absurd absent Bool.false_ne_true
  rw [succeeds_eq]
  unfold bcStorageSqliteCreate
  by_cases noPath : env.path = false
  · rw [if_pos noPath, noPath]
    exact Triple.pure (none, none) rfl ⟨rfl, fun _ => rfl, nothing⟩
  rw [if_neg noPath, (Bool.not_eq_false _).mp noPath]
  apply (malloc_triple env.ctxAlloc).bind
  intro ctx isSome
  rw [← isSome]
  cases ctx with
  | none => exact Triple.pure (none, none) rfl ⟨rfl, fun _ => rfl, nothing⟩
  | some ctx =>
      have opening := (malloc_triple (env.opened || env.handle)).frame {ctx}
      rw [Multiset.zero_add] at opening
      apply opening.bind
      intro db isHandle
      cases opened : env.opened with
      | false =>
          -- The context is freed, and the handle is not closed.
          have freed := (free_triple ctx).frame (blockOf db)
          refine (freed.weaken (Multiset.add_comm _ _) (fun _ _ => rfl) fun _ _ => trivial).bind ?_
          intro _ _
          refine Triple.pure (none, db) rfl
            ⟨rfl, fun absent => absurd absent Bool.false_ne_true, ?_⟩
          intro left
          rw [opened, Bool.false_or] at isHandle
          rw [StorageEnv.leavesHandle, opened, ← isHandle, left]
          rfl
      | true =>
          cases db with
          | none =>
              rw [opened] at isHandle
              cases isHandle
          | some db =>
              apply (set_up_triple env ctx db).bind
              intro storage complete
              refine Triple.pure (storage, none) (Multiset.add_zero _)
                ⟨?_, fun _ => rfl, nothing⟩
              rw [← complete]
              rfl

end Storage

/-! ### What each call does -/

section Calls

variable {state : HeapState}

structure Left (lost : Multiset Nat) (handles : Nat) (after : HeapState) : Prop where
  sound : Sound after
  lost : after.lost.card ≤ lost.card + handles

theorem Left.same {handles : Nat} (sound : Sound state) : Left state.lost handles state :=
  ⟨sound, Nat.le_add_right _ _⟩

theorem off_owned (sound : Sound state) (off : state.initialized = false) :
    state.owned = state.lost := by
  obtain ⟨transport, storage, router, discovery, queue⟩ := sound.off off
  rw [HeapState.owned, transport, storage, router, discovery, queue]
  exact Multiset.zero_add _

theorem Sound.without_storage (sound : Sound state) (off : state.initialized = false)
    (lost : Multiset Nat) : Sound { state with storage := none, lost := lost } := by
  obtain ⟨transport, -, router, discovery, queue⟩ := sound.off off
  refine ⟨sound.inbox, ?_, sound.discovery, fun _ => ⟨transport, rfl, router, discovery, queue⟩⟩
  intro found isRouter
  rw [show state.router = some found from isRouter] at router
  cases router

theorem init_triple (sound : Sound state) (env : HeapInitEnv) :
    Triple state.owned (bitchatInit state env) (fun result => result.2.owned) fun result =>
      (result.1, result.2.value) = FfiCore.bitchatInit state.value env.value ∧
        Left state.lost (if env.storage.leavesHandle then 1 else 0) result.2 := by
  simp only [bitchatInit, FfiCore.bitchatInit]
  by_cases noMutex : env.mutex = false
  · rw [if_pos noMutex, if_pos (show env.value.mutex = false from noMutex)]
    exact Triple.pure _ rfl ⟨rfl, Left.same sound⟩
  rw [if_neg noMutex, if_neg (show ¬ env.value.mutex = false from noMutex)]
  by_cases on : state.initialized = true
  · rw [if_pos on, if_pos (show state.value.initialized = true from on)]
    exact Triple.pure _ rfl ⟨rfl, Left.same sound⟩
  rw [if_neg on, if_neg (show ¬ state.value.initialized = true from on)]
  by_cases noSodium : env.sodiumInit = false
  · rw [if_pos noSodium, if_pos (show env.value.sodiumInit = false from noSodium)]
    exact Triple.pure _ rfl ⟨rfl, Left.same sound⟩
  rw [if_neg noSodium, if_neg (show ¬ env.value.sodiumInit = false from noSodium)]
  have off : state.initialized = false := (Bool.not_eq_true _).mp on
  obtain ⟨transport, storage, router, discovery, queue⟩ := sound.off off
  rw [off_owned sound off]
  have opening := (storage_create_triple env.storage).frame state.lost
  rw [Multiset.zero_add] at opening
  apply opening.bind
  rintro ⟨made, given⟩ ⟨isSome, kept, leaves⟩
  have database : env.value.database = if made.isSome then some env.storage.contents else none := by
    rw [isSome]
    rfl
  rw [database]
  cases made with
  | none =>
      have left := sound.without_storage off (blockOf given + state.lost)
      refine Triple.pure _ ?_ ⟨rfl, left, ?_⟩
      · rw [off_owned left off]
        exact congrArg (· + state.lost) (Multiset.zero_add _).symm
      · show (blockOf given + state.lost).card ≤ state.lost.card + _
        rw [Multiset.card_add, Nat.add_comm]
        apply Nat.add_le_add_left
        cases given with
        | none => exact Nat.zero_le _
        | some handle =>
            rw [leaves rfl]
            exact Nat.le_refl 1
  | some storage =>
      obtain rfl : given = none := kept rfl
      have last := (malloc_triple env.transportAlloc).frame
        (storageBlocks (some storage) + blockOf none + state.lost)
      rw [Multiset.zero_add] at last
      apply last.bind
      intro block isBlock
      refine Triple.pure _ ?_ ⟨?_, ⟨sound.inbox, ?_, ?_, ?_⟩, Nat.le_add_right _ _⟩
      · show blockOf ((block.map fun block => (⟨block, env.transport⟩ : TransportPtr)).map
            TransportPtr.block) + storageBlocks (some storage) + routerBlocks state.router +
          blockOf (state.discovery.map DiscoveryPtr.block) + listBlocks state.queue + state.lost = _
        rw [router, discovery, queue, Option.map_map, Function.comp_def, Option.map_id']
        simp only [routerBlocks, listBlocks, Option.map_none, blockOf]
        abel
      · have transport : env.value.transport =
            (block.map fun block => (⟨block, env.transport⟩ : TransportPtr)).map
              TransportPtr.value := by
          rw [HeapInitEnv.value, ← isBlock]
          cases block <;> rfl
        rw [transport]
        rfl
      · intro found isRouter
        rw [show state.router = some found from isRouter] at router
        cases router
      · intro found isDiscovery
        rw [show state.discovery = some found from isDiscovery] at discovery
        cases discovery
      · exact fun wrong => absurd wrong.symm Bool.false_ne_true

theorem destroy_router_triple (router : Option RouterPtr) :
    Triple (routerBlocks router) (destroyRouter router) (fun _ => 0) fun _ => True := by
  cases router with
  | none => exact Triple.pure () rfl trivial
  | some router => exact router_destroy_triple router

theorem discovery_create_triple (succeeds : Bool) (transport : Option TransportPtr) :
    Triple 0 (bcDiscoveryCreate succeeds transport)
      (fun created => blockOf (created.map DiscoveryPtr.block)) fun created =>
        created.map DiscoveryPtr.value =
          NodeDiscovery.bcDiscoveryCreate succeeds (transport.map TransportPtr.value) ∧
        ∀ discovery, created = some discovery →
          discovery.transport = transport.map TransportPtr.block := by
  apply (malloc_triple succeeds).bind
  intro block isSome
  rw [← isSome]
  cases block with
  | none => exact Triple.pure none rfl ⟨rfl, fun _ absent => absurd absent (Option.not_mem_none _)⟩
  | some block =>
      refine Triple.pure _ rfl ⟨rfl, ?_⟩
      intro discovery isDiscovery
      cases isDiscovery
      rfl

def HeapState.others (state : HeapState) : Multiset Nat :=
  blockOf (state.transport.map TransportPtr.block) + storageBlocks state.storage +
    blockOf (state.discovery.map DiscoveryPtr.block) + listBlocks state.queue + state.lost

theorem owned_router (state : HeapState) :
    state.owned = routerBlocks state.router + state.others := by
  rw [HeapState.owned, HeapState.others]
  abel

theorem recreate_triple (sound : Sound state) (on : state.initialized = true) (env : SetupEnv) :
    Triple state.owned (recreate state env) (fun result => result.2.owned) fun result =>
      (result.1, result.2.value) = FfiCore.recreate state.value env ∧ Left state.lost 0 result.2 := by
  have never {after : HeapState} (same : after.initialized = state.initialized) :
      ¬ after.initialized = false := by
    rw [same, on]
    decide
  rw [owned_router]
  apply ((destroy_router_triple state.router).frame state.others).bind
  intro _ _
  have creating := (router_create_triple env.routerAlloc state.transport state.storage
    state.identity.pubkey none).frame state.others
  refine (creating.weaken rfl (fun _ _ => rfl) fun _ ensured => ensured).bind ?_
  rintro created ⟨isValue, placed⟩
  simp only [FfiCore.recreate]
  rw [show MeshRouter.bcRouterCreate env.routerAlloc state.value.transport state.value.storage
    state.value.identity.pubkey none = created.map RouterPtr.value from isValue.symm]
  cases created with
  | none =>
      refine Triple.pure _ ?_ ⟨rfl, ⟨sound.inbox,
        fun _ absent => absurd absent (Option.not_mem_none _), sound.discovery,
        fun off => absurd off (never rfl)⟩, Nat.le_refl _⟩
      rw [owned_router]
      rfl
  | some router =>
      obtain ⟨coherent, transport, storage⟩ := placed router rfl
      let rest := blockOf (state.transport.map TransportPtr.block) + storageBlocks state.storage +
        router.blocks + listBlocks state.queue + state.lost
      have freed := (free_if_any_triple (state.discovery.map DiscoveryPtr.block)).frame rest
      refine (freed.weaken ?_ (fun _ _ => rfl) fun _ _ => trivial).bind ?_
      · rw [HeapState.others]
        simp only [routerBlocks, rest]
        abel
      · intro _ _
        have making := (discovery_create_triple env.discoveryAlloc state.transport).frame rest
        apply making.bind
        rintro discovery ⟨isDiscovery, points⟩
        refine Triple.pure _ ?_ ⟨?_, ⟨sound.inbox, ?_, points, ?_⟩, Nat.le_refl _⟩
        · show blockOf (state.transport.map TransportPtr.block) + storageBlocks state.storage +
            router.blocks + blockOf (discovery.map DiscoveryPtr.block) + listBlocks state.queue +
            state.lost = blockOf (discovery.map DiscoveryPtr.block) + rest
          simp only [rest]
          abel
        · simp only [HeapState.value, Option.map_some, isDiscovery]
        · intro found isRouter
          cases isRouter
          exact ⟨coherent, transport, storage⟩
        · exact fun off => absurd off (never rfl)

theorem Sound.renamed (sound : Sound state) (id : BcIdentity) :
    Sound { state with identity := id } :=
  ⟨sound.inbox, sound.router, sound.discovery, sound.off⟩

theorem generate_triple (sound : Sound state) (keypair : Option BcIdentity) (env : SetupEnv) :
    Triple state.owned (bitchatGenerateIdentity state keypair env) (fun result => result.2.owned)
      fun result =>
        (result.1, result.2.value) = FfiCore.bitchatGenerateIdentity state.value keypair env ∧
          Left state.lost 0 result.2 := by
  simp only [bitchatGenerateIdentity, FfiCore.bitchatGenerateIdentity]
  by_cases off : state.initialized = false
  · rw [if_pos off, if_pos (show state.value.initialized = false from off)]
    exact Triple.pure _ rfl ⟨rfl, Left.same sound⟩
  rw [if_neg off, if_neg (show ¬ state.value.initialized = false from off)]
  cases keypair with
  | none => exact Triple.pure _ rfl ⟨rfl, Left.same sound⟩
  | some id => exact recreate_triple (sound.renamed id) ((Bool.not_eq_false _).mp off) env

theorem load_triple (sound : Sound state) (identityData : List UInt8) (env : SetupEnv) :
    Triple state.owned (bitchatLoadIdentity state identityData env) (fun result => result.2.owned)
      fun result =>
        (result.1, result.2.value) = FfiCore.bitchatLoadIdentity state.value identityData env ∧
          Left state.lost 0 result.2 := by
  simp only [bitchatLoadIdentity, FfiCore.bitchatLoadIdentity]
  by_cases off : state.initialized = false
  · rw [if_pos off, if_pos (show state.value.initialized = false from off)]
    exact Triple.pure _ rfl ⟨rfl, Left.same sound⟩
  rw [if_neg off, if_neg (show ¬ state.value.initialized = false from off)]
  cases bcIdentityDeserialize identityData with
  | none => exact Triple.pure _ rfl ⟨rfl, Left.same sound⟩
  | some id => exact recreate_triple (sound.renamed id) ((Bool.not_eq_false _).mp off) env

theorem reach_discovery (state : HeapState) :
    blockOf (state.discovery.map DiscoveryPtr.block) +
      blockOf (state.transport.map TransportPtr.block) ≤ state.owned := by
  apply Multiset.le_iff_exists_add.mpr
  refine ⟨storageBlocks state.storage + routerBlocks state.router + listBlocks state.queue +
    state.lost, ?_⟩
  rw [HeapState.owned]
  abel

theorem discovery_triple (sound : Sound state) (env : ScanEnv) :
    Triple state.owned (bitchatStartDiscovery state env) (fun result => result.2.owned)
      fun result =>
        (result.1, result.2.value) = FfiCore.bitchatStartDiscovery state.value env ∧
          Left state.lost 0 result.2 := by
  simp only [bitchatStartDiscovery, FfiCore.bitchatStartDiscovery]
  by_cases off : state.initialized = false
  · rw [if_pos off, if_pos (show state.value.initialized = false from off)]
    exact Triple.pure _ rfl ⟨rfl, Left.same sound⟩
  rw [if_neg off, if_neg (show ¬ state.value.initialized = false from off)]
  cases present : state.discovery with
  | none =>
      rw [show state.value.discovery = none from congrArg (Option.map DiscoveryPtr.value) present]
      exact Triple.pure _ rfl ⟨rfl, Left.same sound⟩
  | some discovery =>
      rw [show state.value.discovery = some discovery.value from
        congrArg (Option.map DiscoveryPtr.value) present]
      have reach := reach_discovery state
      have points := sound.discovery discovery present
      rw [present] at reach
      have here : discovery.block ∈ state.owned := by
        apply Multiset.mem_of_le reach
        exact Multiset.mem_add.mpr (.inl (Multiset.mem_singleton_self _))
      have there : ∀ block ∈ discovery.transport.toList, block ∈ state.owned := by
        intro block member
        rw [Option.mem_toList, points] at member
        apply Multiset.mem_of_le reach
        rw [Option.mem_def.mp member]
        exact Multiset.mem_add.mpr (.inr (Multiset.mem_singleton_self block))
      apply (access_triple here).bind
      intro _ _
      apply (access_all_triple there).bind
      intro _ _
      refine Triple.pure _ ?_ ⟨rfl, ⟨sound.inbox, sound.router, ?_, ?_⟩, Nat.le_refl _⟩
      · simp only [HeapState.owned, present]
        rfl
      · intro scanned isScanned
        cases isScanned
        exact points
      · exact fun wrong => absurd wrong off

theorem set_callback_triple (sound : Sound state) (callback : Bool) :
    let result := bitchatSetOnMessageCallback state callback
    result.2.owned = state.owned ∧
      (result.1, result.2.value) = FfiCore.bitchatSetOnMessageCallback state.value callback ∧
      Left state.lost 0 result.2 := by
  simp only [bitchatSetOnMessageCallback, FfiCore.bitchatSetOnMessageCallback]
  by_cases off : state.initialized = false
  · rw [if_pos off, if_pos (show state.value.initialized = false from off)]
    exact ⟨rfl, rfl, Left.same sound⟩
  · rw [if_neg off, if_neg (show ¬ state.value.initialized = false from off)]
    exact ⟨rfl, rfl, ⟨sound.inbox, sound.router, sound.discovery, sound.off⟩, Nat.le_refl _⟩

theorem drain_inbox_triple {inbox : Nat → Option MessagePtr} {head : Nat}
    (items : List MessagePtr) :
    ∀ (fuel tail : Nat), RingBuffer.Represents inboxSlots inbox head tail items →
      items.length ≤ fuel →
      Triple (listBlocks items) (drainInbox inbox head fuel tail) (fun _ => 0) fun _ => True := by
  induction items with
  | nil =>
      intro fuel tail ring _
      have meet : tail = head := ring.empty_iff.mpr rfl
      cases fuel <;> rw [drainInbox, if_pos meet] <;> exact Triple.pure () rfl trivial
  | cons msg rest ih =>
      intro fuel tail ring enough
      have apart : tail ≠ head := mt ring.empty_iff.mp (List.cons_ne_nil msg rest)
      obtain ⟨cell, later⟩ := ring.pop
      cases fuel with
      | zero => cases enough
      | succ fuel =>
          rw [drainInbox, if_neg apart, cell]
          apply ((message_destroy_triple (some msg)).frame (listBlocks rest)).bind
          intro _ _
          rw [Multiset.zero_add]
          exact ih fuel _ later (Nat.le_of_succ_le_succ enough)

theorem destroy_storage_triple (storage : Option StoragePtr) :
    Triple (storageBlocks storage) (destroyStorage storage) (fun _ => 0) fun _ => True := by
  cases storage with
  | none => exact Triple.pure () rfl trivial
  | some storage => exact sqlite_destroy_triple storage

theorem destroy_transport_triple (transport : Option TransportPtr) :
    Triple (blockOf (transport.map TransportPtr.block)) (destroyTransport transport)
      (fun _ => 0) fun _ => True := by
  cases transport with
  | none => exact Triple.pure () rfl trivial
  | some transport =>
      have here : transport.block ∈ blockOf (some transport.block) :=
        Multiset.mem_singleton_self _
      exact (access_triple here).bind fun _ _ => free_triple transport.block

theorem shutdown_triple (sound : Sound state) :
    Triple state.owned (bitchatShutdown state) HeapState.owned fun after =>
      after.value = FfiCore.bitchatShutdown state.value ∧ Left state.lost 0 after := by
  simp only [bitchatShutdown, FfiCore.bitchatShutdown]
  by_cases off : state.initialized = false
  · rw [if_pos off, if_pos (show state.value.initialized = false from off)]
    exact Triple.pure _ rfl ⟨rfl, Left.same sound⟩
  rw [if_neg off, if_neg (show ¬ state.value.initialized = false from off)]
  let transport := blockOf (state.transport.map TransportPtr.block)
  let discovery := blockOf (state.discovery.map DiscoveryPtr.block)
  have order : state.owned = listBlocks state.queue + (discovery + (routerBlocks state.router +
      (storageBlocks state.storage + (transport + state.lost)))) := by
    rw [HeapState.owned]
    abel
  rw [order]
  apply ((drain_inbox_triple state.queue inboxSlots state.inboxTail sound.inbox
    (Nat.le_of_lt sound.inbox.room)).frame _).bind
  intro _ _
  rw [Multiset.zero_add]
  apply ((free_if_any_triple (state.discovery.map DiscoveryPtr.block)).frame _).bind
  intro _ _
  rw [Multiset.zero_add]
  apply ((destroy_router_triple state.router).frame _).bind
  intro _ _
  rw [Multiset.zero_add]
  apply ((destroy_storage_triple state.storage).frame _).bind
  intro _ _
  rw [Multiset.zero_add]
  apply ((destroy_transport_triple state.transport).frame _).bind
  intro _ _
  rw [Multiset.zero_add]
  have ring : RingBuffer.Represents inboxSlots state.inbox 0 0 [] :=
    RingBuffer.represents_nil state.inbox (by decide)
  have emptied := ring.contents_eq
  refine Triple.pure _ ?_ ⟨rfl, ⟨?_, fun _ absent => absurd absent (Option.not_mem_none _),
    fun _ absent => absurd absent (Option.not_mem_none _),
    fun _ => ⟨rfl, rfl, rfl, rfl, emptied⟩⟩, Nat.le_refl _⟩
  · show 0 + listBlocks (RingBuffer.contents inboxSlots state.inbox 0 0) + state.lost = state.lost
    rw [emptied]
    exact Multiset.zero_add _
  · show RingBuffer.Represents inboxSlots state.inbox 0 0
      (RingBuffer.contents inboxSlots state.inbox 0 0)
    rw [emptied]
    exact ring

theorem Sound.popped (sound : Sound state) {msg : MessagePtr} {rest : List MessagePtr}
    (front : state.queue = msg :: rest) :
    let after := { state with inboxTail := (state.inboxTail + 1) % inboxSlots }
    state.inbox state.inboxTail = some msg ∧ state.owned = msg.blocks + after.owned ∧
      (state.initialized = true → Sound after) := by
  intro after
  have ring := sound.inbox
  rw [front] at ring
  obtain ⟨cell, later⟩ := ring.pop
  have queue : after.queue = rest := later.contents_eq
  refine ⟨cell, ?_, fun on => ⟨queue ▸ later, sound.router, sound.discovery, ?_⟩⟩
  · rw [HeapState.owned, HeapState.owned, front, queue]
    show _ + (msg.blocks + listBlocks rest) + _ = _
    abel
  · intro off
    rw [show state.initialized = false from off] at on
    cases on

theorem read_if_any_triple {msg : MessagePtr} {pre : Multiset Nat} (mine : msg.blocks ≤ pre) :
    Triple pre (readIfAny (some msg)) (fun _ => pre) fun slot => slot = some msg.value := by
  apply (read_triple mine).bind
  intro value isValue
  exact Triple.pure (some value) rfl (congrArg some isValue)

theorem poll_triple (sodium : Sodium) (sound : Sound state) (bufLen : Nat) :
    Triple state.owned (bitchatPollMessages sodium state bufLen) (fun result => result.2.owned)
      fun result =>
        (result.1, result.2.value) = FfiCore.bitchatPollMessages sodium state.value bufLen ∧
          Left state.lost 0 result.2 := by
  simp only [bitchatPollMessages, FfiCore.bitchatPollMessages]
  by_cases off : state.initialized = false
  · rw [if_pos off, if_pos (show state.value.initialized = false from off)]
    exact Triple.pure _ rfl ⟨rfl, Left.same sound⟩
  rw [if_neg off, if_neg (show ¬ state.value.initialized = false from off)]
  by_cases meet : state.inboxTail = state.inboxHead
  · rw [if_pos meet, if_pos (show state.value.inboxTail = state.value.inboxHead from meet)]
    exact Triple.pure _ rfl ⟨rfl, Left.same sound⟩
  rw [if_neg meet, if_neg (show ¬ state.value.inboxTail = state.value.inboxHead from meet)]
  cases front : state.queue with
  | nil => exact absurd (sound.inbox.empty_iff.mpr front) meet
  | cons msg rest =>
      obtain ⟨cell, owned, left⟩ := sound.popped front
      rw [owned, cell]
      apply (read_if_any_triple (Multiset.le_add_right msg.blocks _)).bind
      intro slot isSlot
      apply (destroy_rest msg _).bind
      intro _ _
      refine Triple.pure _ rfl ⟨?_, left ((Bool.not_eq_false _).mp off), Nat.le_refl _⟩
      have taken : state.value.inbox state.value.inboxTail = some msg.value := by
        show (state.inbox state.inboxTail).map MessagePtr.value = _
        rw [cell]
        rfl
      rw [taken, isSlot]
      rfl

theorem no_router (absent : state.router = none) : state.value.router = none :=
  congrArg (Option.map RouterPtr.value) absent

theorem value_router {router : RouterPtr} (present : state.router = some router) :
    state.value.router = some router.value :=
  congrArg (Option.map RouterPtr.value) present

def HeapState.aside (state : HeapState) : Multiset Nat :=
  blockOf (state.discovery.map DiscoveryPtr.block) + listBlocks state.queue + state.lost

theorem owned_reaches {router : RouterPtr} (sound : Sound state)
    (present : state.router = some router) : state.owned = router.reaches + state.aside := by
  obtain ⟨-, transport, storage⟩ := sound.router router present
  rw [HeapState.owned, HeapState.aside, RouterPtr.reaches, transport, storage, present]
  show _ + _ + router.blocks + _ + _ + _ = _
  abel

theorem Sound.served {router : RouterPtr} (sound : Sound state)
    (present : state.router = some router) {result : RouterResult} (kept : Kept router result) :
    let after := { state with router := some result.router, store := result.store }
    after.owned = state.owned ∧ Sound after := by
  intro after
  have place : result.router = { router with value := result.router.value } := kept.place
  have served : Sound after := by
    refine ⟨sound.inbox, ?_, sound.discovery, ?_⟩
    · intro found isRouter
      cases isRouter
      obtain ⟨-, transport, storage⟩ := sound.router router present
      rw [place]
      exact ⟨by rw [← place]; exact kept.coherent, transport, storage⟩
    · intro off
      obtain ⟨-, -, absent, -⟩ := sound.off off
      rw [present] at absent
      cases absent
  refine ⟨?_, served⟩
  rw [owned_reaches sound present, owned_reaches served rfl, kept.place.reaches]
  rfl

section Messages

variable (sodium : Sodium)

def exceptBlocks : Except Rc MessagePtr → Multiset Nat
  | .error _ => 0
  | .ok msg => msg.blocks

def sealedValue (identity : BcIdentity) (env : SendEnv) (recipient : Pubkey)
    (plaintext : List UInt8) : Except Rc BcMessage :=
  match sealFor sodium identity env recipient plaintext with
  | .error rc => .error rc
  | .ok payload =>
      match WireMessage.bcMessageCreate (fun k => env.alloc (k + 1)) env.uuid env.created
          identity.pubkey recipient payload with
      | none => .error .nomem
      | some msg => .ok msg

theorem sealed_copy_triple (identity : BcIdentity) (env : SendEnv) (recipient : Pubkey)
    (plaintext : List UInt8) :
    Triple 0 (sealedCopy sodium identity env recipient plaintext) exceptBlocks fun made =>
      made.map MessagePtr.value = sealedValue sodium identity env recipient plaintext := by
  simp only [sealedCopy, sealedValue, sealFor]
  cases bcCryptoDeriveShared sodium identity.secretKey recipient with
  | error rc => exact Triple.pure _ rfl rfl
  | ok sharedKey =>
      dsimp only
      apply (malloc_triple (env.alloc 0)).bind
      intro buf isSome
      cases buf with
      | none =>
          rw [if_pos (show env.alloc 0 = false from isSome.symm)]
          exact Triple.pure _ rfl rfl
      | some buf =>
          rw [show env.alloc 0 = true from isSome.symm, if_neg (by decide)]
          cases bcCryptoEncrypt sodium plaintext sharedKey env.nonce with
          | error rc =>
              apply (free_triple buf).bind
              intro _ _
              exact Triple.pure _ rfl rfl
          | ok ciphertext =>
              dsimp only
              apply (access_triple (Multiset.mem_singleton_self buf)).bind
              intro _ _
              have making := (message_create_triple (fun k => env.alloc (k + 1)) env.uuid
                env.created identity.pubkey recipient (env.nonce.toList ++ ciphertext)).frame {buf}
              rw [Multiset.zero_add] at making
              apply making.bind
              intro msg isValue
              have freed := (free_triple buf).frame (ptrBlocks msg)
              refine (freed.weaken (Multiset.add_comm _ _) (fun _ _ => rfl)
                fun _ _ => trivial).bind ?_
              intro _ _
              rw [Multiset.zero_add, ← isValue]
              cases msg with
              | none => exact Triple.pure _ rfl rfl
              | some msg => exact Triple.pure _ rfl rfl

theorem send_eq (state : GState) {router : BcRouter PendingMessages} (env : SendEnv)
    (recipient : Pubkey) (plaintext : List UInt8) (on : ¬ state.initialized = false)
    (present : state.router = some router) :
    FfiCore.bitchatSendMessage sodium state env recipient plaintext =
      match sealedValue sodium state.identity env recipient plaintext with
      | .error rc => ⟨rc, state, [], []⟩
      | .ok msg =>
          let broadcast := MeshRouter.bcRouterBroadcast ⟨router, state.store⟩ env.call msg
          { rc := broadcast.rc
            state := { state with
              router := some broadcast.node.router
              store := broadcast.node.store }
            events := broadcast.events
            pushes := [] } := by
  simp only [FfiCore.bitchatSendMessage, sealedValue, if_neg on, present]
  cases sealFor sodium state.identity env recipient plaintext with
  | error rc => rfl
  | ok payload =>
      cases created : WireMessage.bcMessageCreate (fun k => env.alloc (k + 1)) env.uuid
        env.created state.identity.pubkey recipient payload <;> simp only [created]

theorem send_triple (sound : Sound state) (env : SendEnv) (recipient : Pubkey)
    (plaintext : List UInt8) :
    Triple state.owned (bitchatSendMessage sodium state env recipient plaintext)
      (fun result => result.state.owned) fun result =>
        result.value = FfiCore.bitchatSendMessage sodium state.value env recipient plaintext ∧
          Left state.lost 0 result.state := by
  unfold bitchatSendMessage
  by_cases off : state.initialized = false
  · rw [if_pos off, FfiCore.bitchatSendMessage,
      if_pos (show state.value.initialized = false from off)]
    exact Triple.pure _ rfl ⟨rfl, Left.same sound⟩
  rw [if_neg off]
  cases present : state.router with
  | none =>
      rw [FfiCore.bitchatSendMessage, if_neg (show ¬ state.value.initialized = false from off),
        no_router present]
      exact Triple.pure _ rfl ⟨rfl, Left.same sound⟩
  | some router =>
      rw [send_eq sodium state.value env recipient plaintext off (value_router present)]
      have sealing := (sealed_copy_triple sodium state.identity env recipient plaintext).frame
        state.owned
      rw [Multiset.zero_add] at sealing
      apply sealing.bind
      intro made isValue
      rw [show sealedValue sodium state.value.identity env recipient plaintext =
        made.map MessagePtr.value from isValue.symm]
      cases made with
      | error rc => exact Triple.pure _ (Multiset.zero_add _).symm ⟨rfl, Left.same sound⟩
      | ok msg =>
          have reach : router.reaches ≤ msg.blocks + state.owned := by
            rw [owned_reaches sound present]
            exact (Multiset.le_add_right _ _).trans (Multiset.le_add_left _ _)
          apply (router_broadcast_triple (sound.router router present).1 reach
            (Multiset.le_add_right _ _) state.store env.call).bind
          rintro result ⟨isOutcome, kept⟩
          obtain ⟨owned, left⟩ := sound.served present kept
          apply (destroy_rest msg state.owned).bind
          intro _ _
          refine Triple.pure _ owned ⟨?_, left, Nat.le_refl _⟩
          simp only [Except.map, HeapOutcome.value]
          rw [show MeshRouter.bcRouterBroadcast ⟨router.value, state.value.store⟩ env.call
            msg.value = result.outcome from isOutcome.symm]
          rfl

def OnlyInbox (before after : HeapState) : Prop :=
  after = { before with inbox := after.inbox, inboxHead := after.inboxHead }

theorem inbox_append_triple (alloc : Nat → Bool) (msg : MessagePtr)
    (ring : RingBuffer.Represents inboxSlots state.inbox state.inboxHead state.inboxTail
      state.queue) :
    Triple (msg.blocks + listBlocks state.queue) (inboxAppend alloc state msg)
      (fun after => msg.blocks + listBlocks after.queue) fun after =>
        after.value = FfiCore.inboxAppend alloc state.value msg.value ∧
          RingBuffer.Represents inboxSlots after.inbox after.inboxHead after.inboxTail
            after.queue ∧ OnlyInbox state after := by
  simp only [inboxAppend, FfiCore.inboxAppend]
  by_cases full : (state.inboxHead + 1) % inboxSlots = state.inboxTail
  · rw [if_neg (not_not.mpr full), if_neg (not_not.mpr (show
      (state.value.inboxHead + 1) % inboxSlots = state.value.inboxTail from full))]
    exact Triple.pure _ rfl ⟨rfl, ring, rfl⟩
  rw [if_pos full, if_pos (show
    (state.value.inboxHead + 1) % inboxSlots ≠ state.value.inboxTail from full)]
  apply (read_triple (Multiset.le_add_right _ _)).bind
  intro value isValue
  rw [isValue]
  have making := (message_create_triple alloc msg.value.uuid msg.value.timestamp
    msg.value.senderPubkey msg.value.receiverPubkey msg.value.payload).frame
    (msg.blocks + listBlocks state.queue)
  rw [Multiset.zero_add] at making
  apply making.bind
  intro copy isCopy
  rw [← isCopy]
  cases copy with
  | none => exact Triple.pure _ (Multiset.zero_add _).symm ⟨rfl, ring, rfl⟩
  | some copy =>
      let kept : MessagePtr :=
        { copy with
          value := { copy.value with
            uuid := msg.value.uuid, ttl := msg.value.ttl, timestamp := msg.value.timestamp }
          null := copy.null }
      have longer := ring.push kept full
      have queue := longer.contents_eq
      refine Triple.pure _ ?_ ⟨?_, ?_, rfl⟩
      · show msg.blocks + listBlocks (RingBuffer.contents inboxSlots
          (Function.update state.inbox state.inboxHead (some kept))
          ((state.inboxHead + 1) % inboxSlots) state.inboxTail) = _
        rw [queue, list_blocks_append]
        show msg.blocks + (listBlocks state.queue + (copy.blocks + 0)) = copy.blocks + _
        abel
      · have slots := Function.comp_update (Option.map MessagePtr.value) state.inbox
          state.inboxHead (some kept)
        simp only [HeapState.value, Option.map_some, GState.mk.injEq, true_and, and_true]
        exact slots
      · show RingBuffer.Represents inboxSlots _ _ _ (RingBuffer.contents inboxSlots
          (Function.update state.inbox state.inboxHead (some kept))
          ((state.inboxHead + 1) % inboxSlots) state.inboxTail)
        rw [queue]
        exact longer

theorem push_to_user_triple {pre : Multiset Nat} (alloc : Nat → Bool) {msg : MessagePtr}
    (mine : msg.blocks ≤ pre) :
    Triple pre (pushToUser sodium alloc state msg) (fun _ => pre) fun pushes =>
      pushes = FfiCore.pushToUser sodium alloc state.value msg.value := by
  simp only [pushToUser, FfiCore.pushToUser]
  by_cases deaf : state.userCallback = false
  · rw [if_pos deaf, if_pos (show state.value.userCallback = false from deaf)]
    exact Triple.pure _ rfl rfl
  rw [if_neg deaf, if_neg (show ¬ state.value.userCallback = false from deaf)]
  apply (read_triple mine).bind
  intro value isValue
  rw [isValue]
  by_cases short : msg.value.payload.length < bcNonceSize + bcTagSize
  · rw [if_pos short, if_pos short]
    exact Triple.pure _ rfl rfl
  rw [if_neg short, if_neg short]
  rw [show state.value.identity = state.identity from rfl]
  cases bcCryptoDeriveShared sodium state.identity.secretKey msg.value.senderPubkey with
  | error rc => exact Triple.pure _ rfl rfl
  | ok sharedKey =>
      dsimp only
      have making := (malloc_triple (alloc 2)).frame pre
      rw [Multiset.zero_add] at making
      apply making.bind
      intro plaintext isSome
      cases plaintext with
      | none =>
          rw [if_pos (show alloc 2 = false from isSome.symm)]
          exact Triple.pure _ (Multiset.zero_add _).symm rfl
      | some plaintext =>
          rw [show alloc 2 = true from isSome.symm, if_neg (by decide)]
          have room : plaintext ∈ blockOf (some plaintext) + pre :=
            Multiset.mem_add.mpr (.inl (Multiset.mem_singleton_self plaintext))
          apply (access_triple room).bind
          intro _ _
          apply ((free_triple plaintext).frame pre).bind
          intro _ _
          rw [Multiset.zero_add]
          exact Triple.pure _ rfl rfl

def inboxClient (alloc : Nat → Nat → Bool) (base : HeapState) :
    ClientModel FfiClient (GState × Nat × List Push) where
  onMessage := onMessageReceived sodium alloc
  owns client := listBlocks client.state.queue
  value client := (client.state.value, client.calls, client.pushes)
  sound client :=
    RingBuffer.Represents inboxSlots client.state.inbox client.state.inboxHead
      client.state.inboxTail client.state.queue ∧ OnlyInbox base client.state
  handle msg client :=
    let received := FfiCore.onMessageReceived sodium (alloc client.2.1) client.1 msg
    (received.1, client.2.1 + 1, client.2.2 ++ received.2)

theorem inbox_client_handles (alloc : Nat → Nat → Bool) (base : HeapState) :
    (inboxClient sodium alloc base).Handles := by
  intro msg client sound
  obtain ⟨ring, only⟩ := sound
  apply (inbox_append_triple (alloc client.calls) msg ring).bind
  rintro state ⟨isState, longer, onlyInbox⟩
  apply (push_to_user_triple sodium (alloc client.calls) (Multiset.le_add_right _ _)).bind
  intro pushes isPushes
  refine Triple.pure _ rfl ⟨?_, longer, ?_⟩
  · have same : FfiCore.pushToUser sodium (alloc client.calls) state.value msg.value =
        FfiCore.pushToUser sodium (alloc client.calls) client.state.value msg.value := by
      rw [onlyInbox]
      rfl
    show (state.value, client.calls + 1, client.pushes ++ pushes) = _
    rw [isState, isPushes, same]
    rfl
  · show state = _
    rw [onlyInbox, only]

theorem deliver_events_all (alloc : Nat → Nat → Bool) (base : HeapState) (events : List Event) :
    ∀ (state : GState) (k : Nat) (pushes : List Push), ∃ calls,
      deliverEvents (inboxClient sodium alloc base).handle events (state, k, pushes) =
        ((deliverAll sodium alloc state k events).1, calls,
          pushes ++ (deliverAll sodium alloc state k events).2) := by
  induction events with
  | nil =>
      intro state k pushes
      exact ⟨k, by rw [deliverAll, List.append_nil]; rfl⟩
  | cons event rest ih =>
      intro state k pushes
      cases event with
      | deliver msg =>
          obtain ⟨calls, same⟩ := ih (FfiCore.inboxAppend (alloc k) state msg) (k + 1)
            (pushes ++ FfiCore.pushToUser sodium (alloc k) state msg)
          refine ⟨calls, Eq.trans same ?_⟩
          rw [List.append_assoc]
          rfl
      | store msg rc => exact ih state k pushes
      | send peer data rc => exact ih state k pushes

theorem deliver_pushes_frame (alloc : Nat → Nat → Bool)
    (router : Option (BcRouter PendingMessages)) (store : PendingMessages) (events : List Event) :
    ∀ (state : GState) (k : Nat),
      (deliverAll sodium alloc { state with router := router, store := store } k events).2 =
        (deliverAll sodium alloc state k events).2 := by
  induction events with
  | nil => exact fun _ _ => rfl
  | cons event rest ih =>
      intro state k
      cases event with
      | deliver msg =>
          -- One delivery alone does not look at them either.
          have appended := deliver_all_frame sodium (fun _ => alloc k) router store
            [.deliver msg] state 0
          simp only [deliverAll] at appended ⊢
          rw [appended, ih]
          rfl
      | store msg rc => exact ih state k
      | send peer data rc => exact ih state k

theorem Sound.received {after : HeapState} (sound : Sound state)
    (on : ¬ state.initialized = false)
    (ring : RingBuffer.Represents inboxSlots after.inbox after.inboxHead after.inboxTail
      after.queue) (only : OnlyInbox state after) : Sound after := by
  have core : after.initialized = state.initialized ∧ after.transport = state.transport ∧
      after.storage = state.storage ∧ after.router = state.router ∧
      after.discovery = state.discovery := by
    rw [only]
    exact ⟨rfl, rfl, rfl, rfl, rfl⟩
  obtain ⟨initialized, transport, storage, router, discovery⟩ := core
  refine ⟨ring, ?_, ?_, fun off => absurd (initialized.symm.trans off) on⟩
  · rw [router, transport, storage]
    exact sound.router
  · rw [discovery, transport]
    exact sound.discovery

theorem tick_triple (sound : Sound state) (env : FfiTickEnv) :
    Triple state.owned (bitchatTick sodium state env) (fun result => result.state.owned)
      fun result =>
        result.value = FfiCore.bitchatTick sodium state.value env ∧
          Left state.lost 0 result.state := by
  simp only [bitchatTick, FfiCore.bitchatTick]
  by_cases off : state.initialized = false
  · rw [if_pos off, if_pos (show state.value.initialized = false from off)]
    exact Triple.pure _ rfl ⟨rfl, Left.same sound⟩
  rw [if_neg off, if_neg (show ¬ state.value.initialized = false from off)]
  cases present : state.router with
  | none =>
      rw [no_router present]
      exact Triple.pure _ rfl ⟨rfl, Left.same sound⟩
  | some router =>
      rw [value_router present]
      let rest := blockOf (state.discovery.map DiscoveryPtr.block) + state.lost
      have start : (inboxClient sodium env.alloc state).sound ⟨state, 0, []⟩ := ⟨sound.inbox, rfl⟩
      have ticking := (router_tick_triple (sound.router router present).1
        (inbox_client_handles sodium env.alloc state) state.store env.tick start).frame rest
      refine (ticking.weaken ?_ (fun _ _ => rfl) fun _ ensured => ensured).bind ?_
      · rw [owned_reaches sound present, HeapState.aside]
        show _ = router.reaches + listBlocks state.queue + rest
        simp only [rest]
        abel
      · rintro ⟨result, client⟩ served
        obtain ⟨ring, only⟩ := served.sound
        have received := sound.received off ring only
        have still : client.state.router = some router := by
          rw [only]
          exact present
        obtain ⟨owned, left⟩ := received.served still served.kept
        have lost : client.state.lost = state.lost := by rw [only]
        have discovery : client.state.discovery = state.discovery := by rw [only]
        refine Triple.pure _ ?_ ⟨?_, left, ?_⟩
        · rw [owned, owned_reaches received still, HeapState.aside, lost, discovery]
          show _ = router.reaches + listBlocks client.state.queue + rest
          simp only [rest]
          abel
        · obtain ⟨calls, delivered⟩ := deliver_events_all sodium env.alloc state result.events
            state.value 0 []
          have isClient := served.client.trans delivered
          have isState : client.state.value =
              (deliverAll sodium env.alloc state.value 0 result.events).1 :=
            congrArg Prod.fst isClient
          have isPushes : client.pushes =
              (deliverAll sodium env.alloc state.value 0 result.events).2 :=
            congrArg (fun client => client.2.2) isClient
          have node : (MeshRouter.bcRouterTick ⟨router.value, state.store⟩ env.tick).1 =
              ⟨result.router.value, result.store⟩ :=
            (congrArg MeshRouter.Outcome.node served.outcome).symm
          have events : (MeshRouter.bcRouterTick ⟨router.value, state.store⟩ env.tick).2 =
              result.events := (congrArg MeshRouter.Outcome.events served.outcome).symm
          dsimp only
          rw [show state.value.store = state.store from rfl, node, events, deliver_all_frame,
            deliver_pushes_frame, ← isState, ← isPushes]
          rfl
        · show client.state.lost.card ≤ _
          rw [lost]
          exact Nat.le_refl _

def HeapCall.handles : HeapCall → Nat
  | .init env => if env.storage.leavesHandle then 1 else 0
  | _ => 0

theorem call_triple (sound : Sound state) (call : HeapCall) :
    Triple state.owned (call.run sodium state) HeapState.owned fun after =>
      after.value = call.value.run sodium state.value ∧ Left state.lost call.handles after := by
  cases call with
  | init env =>
      apply (init_triple sound env).bind
      rintro result ⟨same, left⟩
      exact Triple.pure _ rfl ⟨congrArg Prod.snd same, left⟩
  | generateIdentity keypair env =>
      apply (generate_triple sound keypair env).bind
      rintro result ⟨same, left⟩
      exact Triple.pure _ rfl ⟨congrArg Prod.snd same, left⟩
  | loadIdentity identityData env =>
      apply (load_triple sound identityData env).bind
      rintro result ⟨same, left⟩
      exact Triple.pure _ rfl ⟨congrArg Prod.snd same, left⟩
  | sendMessage env recipient plaintext =>
      apply (send_triple sodium sound env recipient plaintext).bind
      rintro result ⟨same, left⟩
      exact Triple.pure _ rfl ⟨congrArg FfiCore.Outcome.state same, left⟩
  | pollMessages bufLen =>
      apply (poll_triple sodium sound bufLen).bind
      rintro result ⟨same, left⟩
      exact Triple.pure _ rfl ⟨congrArg Prod.snd same, left⟩
  | startDiscovery env =>
      apply (discovery_triple sound env).bind
      rintro result ⟨same, left⟩
      exact Triple.pure _ rfl ⟨congrArg Prod.snd same, left⟩
  | tick env =>
      apply (tick_triple sodium sound env).bind
      rintro result ⟨same, left⟩
      exact Triple.pure _ rfl ⟨congrArg FfiCore.Outcome.state same, left⟩
  | setOnMessageCallback callback =>
      obtain ⟨owned, same, left⟩ := set_callback_triple sound callback
      exact Triple.pure _ owned ⟨congrArg Prod.snd same, left⟩
  | shutdown => exact shutdown_triple sound

theorem run_all_triple (calls : List HeapCall) :
    ∀ {state : HeapState}, Sound state →
      Triple state.owned (runAll sodium calls state) HeapState.owned fun after =>
        after.value = runCalls sodium state.value (calls.map HeapCall.value) ∧
          Left state.lost (calls.map HeapCall.handles).sum after := by
  induction calls with
  | nil =>
      intro state sound
      exact Triple.pure _ rfl ⟨rfl, Left.same sound⟩
  | cons call rest ih =>
      intro state sound
      apply (call_triple sodium sound call).bind
      rintro middle ⟨isMiddle, left⟩
      refine (ih left.sound).weaken rfl (fun _ _ => rfl) ?_
      rintro after ⟨isAfter, leftAfter⟩
      refine ⟨?_, leftAfter.sound, ?_⟩
      · rw [isAfter, isMiddle]
        rfl
      · have early := left.lost
        have late := leftAfter.lost
        rw [List.map_cons, List.sum_cons]
        omega

end Messages

end Calls

theorem zeroed_sound : Sound zeroedHeapState where
  inbox := RingBuffer.represents_nil _ (by decide)
  router := fun _ absent => absurd absent (Option.not_mem_none _)
  discovery := fun _ absent => absurd absent (Option.not_mem_none _)
  off := fun _ => ⟨rfl, rfl, rfl, rfl, rfl⟩

/-- Every run of public calls, whichever allocations, openings of the database
and cryptographic operations fail, goes through without a fault on the heap.
The allocated blocks are what the state holds; nothing is left after a
shutdown but the connections of databases that could not be opened. -/
theorem ffi_memory_exact (sodium : Sodium) (calls : List HeapCall) :
    ∃ state heap, runAll sodium calls zeroedHeapState emptyHeap = some (state, heap) ∧
      state.value = runCalls sodium zeroedState (calls.map HeapCall.value) ∧
      heap.live = state.owned ∧
      (state.initialized = false → heap.live = state.lost) ∧
      state.lost.card ≤ (calls.map HeapCall.handles).sum := by
  have start : emptyHeap.live = zeroedHeapState.owned + 0 := rfl
  obtain ⟨state, heap, ran, lives, isState, left⟩ :=
    run_all_triple sodium calls zeroed_sound emptyHeap 0 start
  rw [Multiset.add_zero] at lives
  refine ⟨state, heap, ran, isState, lives, fun off => ?_, ?_⟩
  · rw [lives, off_owned left.sound off]
  · have bound := left.lost
    rw [show zeroedHeapState.lost.card = 0 from rfl, Nat.zero_add] at bound
    exact bound

end BitChat.FfiMemory
