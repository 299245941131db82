import BitChat.MeshRouter
import BitChat.MessageMemory

/-!
# The router in memory

Transcription of `usecase/mesh_router.c` with its allocations, over the SQLite
storage. The callback for a message runs in the middle of `bc_router_receive`,
while the message is still there. Whatever the callback does with its own
blocks, each function keeps the blocks of the router and of its ports, and it
returns what the model without memory returns, with the messages delivered in
the order of its events.
-/

namespace BitChat.RouterMemory

open BitChat.WireMessage BitChat.DedupTable BitChat.PendingStorage BitChat.MeshRouter
open BitChat.MessageMemory Ownership

set_option autoImplicit false

/-- A transport as `bc_transport_ble_create` makes it, without a context. -/
structure TransportPtr where
  block : Nat
  value : BcTransport

structure StoragePtr where
  block : Nat
  ctx : Nat
  db : Nat
  statements : List Nat

def StoragePtr.parts (storage : StoragePtr) : List Nat :=
  storage.block :: storage.ctx :: storage.db :: storage.statements

def storageBlocks : Option StoragePtr → Multiset Nat
  | none => 0
  | some storage => storage.parts

/-- A router, with the pointers to its ports, which it does not own. -/
structure RouterPtr where
  block : Nat
  dedupTable : Nat
  transport : Option Nat
  storage : Option StoragePtr
  value : BcRouter PendingMessages

def RouterPtr.blocks (router : RouterPtr) : Multiset Nat := {router.block} + {router.dedupTable}

def routerBlocks : Option RouterPtr → Multiset Nat
  | none => 0
  | some router => router.blocks

def RouterPtr.reaches (router : RouterPtr) : Multiset Nat :=
  router.blocks + (blockOf router.transport + storageBlocks router.storage)

def bcRouterCreate (alloc : Nat → Bool) (transport : Option TransportPtr)
    (storage : Option StoragePtr) (localPubkey : Pubkey) (config : Option BcRouterConfig) :
    Prog (Option RouterPtr) := do
  match ← malloc (alloc 0) with
  | none => pure none
  | some block =>
      match ← malloc (alloc 1) with
      | none => do
          free block
          pure none
      | some table =>
          pure (some
            { block := block
              dedupTable := table
              transport := transport.map TransportPtr.block
              storage := storage
              value :=
                { transport := transport.map TransportPtr.value
                  storage := storage.map fun _ => sqliteStorage
                  config := config.getD bcDefaultConfig
                  localPubkey := localPubkey
                  dedupTable := emptyTable
                  dedupCap := (config.getD bcDefaultConfig).dedupCap
                  peers := []
                  onMessage := false
                  lastSfTick := 0 } })

def bcRouterDestroy (router : RouterPtr) : Prog Unit := do
  access router.block
  free router.dedupTable
  free router.block

def RouterPtr.mark (router : RouterPtr) (now : UInt64) (uuid : Uuid) : RouterPtr :=
  { router with value := router.value.mark now uuid }

def forwardToPeers (router : RouterPtr) (sendRc : Nat → Rc) (data : List UInt8) (buf : Nat) :
    Prog (Rc × List Event) := do
  access router.block
  accessAll router.transport.toList
  access buf
  pure (MeshRouter.forwardToPeers router.value sendRc data)

def storeIfPresent (router : RouterPtr) (store : PendingMessages) (now : UInt64)
    (msg : MessagePtr) : Prog (PendingMessages × List Event) := do
  access router.block
  match router.storage with
  | none => pure (store, [])
  | some storage => do
      accessAll storage.parts
      let value ← msg.read
      let result := sqliteStoreMessage now value store
      pure (result.2, [.store value result.1])

def forwardCopy (router : RouterPtr) (msg : MessagePtr) (succeeds : Bool) (sendRc : Nat → Rc) :
    Prog (List Event) := do
  let value ← msg.read
  match ← malloc succeeds with
  | none => pure []
  | some buf => do
      let wire ← MessageMemory.bcMessageSerialize msg buf
        (bcMessageHeaderSize + value.payload.length)
      if wire.rc = .ok then do
        let sends ← forwardToPeers router sendRc wire.written buf
        free buf
        pure sends.2
      else do
        free buf
        pure []

structure RouterResult where
  rc : Rc
  router : RouterPtr
  store : PendingMessages
  events : List Event

def RouterResult.outcome (result : RouterResult) : Outcome PendingMessages where
  rc := result.rc
  node := ⟨result.router.value, result.store⟩
  events := result.events

def bcRouterBroadcast (router : RouterPtr) (store : PendingMessages) (env : CallEnv)
    (msg : MessagePtr) : Prog RouterResult := do
  accessAll [router.block, router.dedupTable]
  let value ← msg.read
  let marked := router.mark env.now value.uuid
  match ← malloc (env.alloc 0) with
  | none => pure ⟨.nomem, marked, store, []⟩
  | some buf => do
      let wire ← MessageMemory.bcMessageSerialize msg buf
        (bcMessageHeaderSize + value.payload.length)
      if wire.rc ≠ .ok then do
        free buf
        pure ⟨wire.rc, marked, store, []⟩
      else do
        let sends ← forwardToPeers marked env.sendRc wire.written buf
        let stored ← storeIfPresent marked store env.storeNow msg
        free buf
        pure ⟨.ok, marked, stored.1, sends.2 ++ stored.2⟩

section Callback

variable {Client : Type}

def hop (msg : MessagePtr) : MessagePtr :=
  { msg with value := { msg.value with ttl := msg.value.ttl - 1 }, null := msg.null }

def receiveNew (onMessage : MessagePtr → Client → Prog Client) (router : RouterPtr)
    (store : PendingMessages) (env : CallEnv) (msg : MessagePtr) (client : Client) :
    Prog (RouterResult × Client) := do
  let marked := router.mark env.now msg.value.uuid
  if msg.value.ttl = 0 then do
    bcMessageDestroy (some msg)
    pure (⟨.ttlExpired, marked, store, []⟩, client)
  else if (hop msg).value.receiverPubkey = marked.value.localPubkey then do
    if marked.value.onMessage then do
      let after ← onMessage (hop msg) client
      bcMessageDestroy (some (hop msg))
      pure (⟨.ok, marked, store, [.deliver (hop msg).value]⟩, after)
    else do
      bcMessageDestroy (some (hop msg))
      pure (⟨.ok, marked, store, []⟩, client)
  else do
    let stored ← storeIfPresent marked store env.storeNow (hop msg)
    let sends ← forwardCopy marked (hop msg) (env.alloc 2) env.sendRc
    bcMessageDestroy (some (hop msg))
    pure (⟨.ok, marked, stored.1, stored.2 ++ sends⟩, client)

def bcRouterReceive (onMessage : MessagePtr → Client → Prog Client) (router : RouterPtr)
    (store : PendingMessages) (env : CallEnv) (data : List UInt8) (client : Client) :
    Prog (RouterResult × Client) :=
  if data.length = 0 then pure (⟨.invalid, router, store, []⟩, client)
  else do
    match ← MessageMemory.bcMessageDeserialize env.alloc ⟨data, env.beyond⟩ with
    | none => pure (⟨.invalid, router, store, []⟩, client)
    | some msg => do
        accessAll [router.block, router.dedupTable]
        let value ← msg.read
        if dedupContains router.value.dedupTable router.value.dedupCap value.uuid then do
          bcMessageDestroy (some msg)
          pure (⟨.duplicate, router, store, []⟩, client)
        else receiveNew onMessage router store env msg client

def receiveLoop (onMessage : MessagePtr → Client → Prog Client) :
    RouterPtr → PendingMessages → List Arrival → Client → Prog (RouterResult × Client)
  | router, store, [], client => pure (⟨.ok, router, store, []⟩, client)
  | router, store, arrival :: rest, client => do
      accessAll router.transport.toList
      if arrival.rc = .ok ∧ 0 < arrival.received.length then do
        let first ← bcRouterReceive onMessage router store arrival.env arrival.received client
        let later ← receiveLoop onMessage first.1.router first.1.store rest first.2
        pure ({ later.1 with events := first.1.events ++ later.1.events }, later.2)
      else pure (⟨.ok, router, store, []⟩, client)

def tickPoll (onMessage : MessagePtr → Client → Prog Client) (router : RouterPtr)
    (store : PendingMessages) (arrivals : List Arrival) (client : Client) :
    Prog (RouterResult × Client) :=
  if (router.value.transport.map BcTransport.recv).getD false = true then
    receiveLoop onMessage router store arrivals client
  else pure (⟨.ok, router, store, []⟩, client)

/-- The loop over the pending messages, each of which it destroys. -/
def rebroadcastLoop (router : RouterPtr) (bufAlloc : Nat → Bool) (sendRc : Nat → Nat → Rc)
    (arr : Option Nat) : List MessagePtr → Nat → Prog (List Event)
  | [], _ => pure []
  | msg :: rest, j => do
      deref arr
      let sends ← forwardCopy router msg (bufAlloc j) (sendRc j)
      bcMessageDestroy (some msg)
      let later ← rebroadcastLoop router bufAlloc sendRc arr rest (j + 1)
      pure (sends ++ later)

def RouterPtr.stamp (router : RouterPtr) (now : UInt64) : RouterPtr :=
  { router with value := { router.value with lastSfTick := now } }

def tickRebroadcast (router : RouterPtr) (store : PendingMessages) (env : TickEnv) :
    Prog (RouterPtr × List Event) := do
  match router.storage with
  | none => pure (router, [])
  | some storage =>
      if 0 < router.value.peers.length ∧
          env.sfNow - router.value.lastSfTick ≥ bcSfRebroadcastSec then do
        let ticked := router.stamp env.sfNow
        accessAll storage.parts
        let pending ← MessageMemory.sqliteGetPending env.pendingNow env.pendingAlloc none store
        if pending.rc = .ok then do
          let sends ← rebroadcastLoop ticked env.bufAlloc env.sendRc pending.arr pending.msgs 0
          freeIfAny pending.arr
          pure (ticked, sends)
        else pure (ticked, [])
      else pure (router, [])

def tickExpire (router : RouterPtr) (store : PendingMessages) (now : UInt64) :
    Prog PendingMessages := do
  match router.storage with
  | none => pure store
  | some storage => do
      accessAll storage.parts
      pure (sqliteEvictExpired now (72 * 3600) store).2

def bcRouterTick (onMessage : MessagePtr → Client → Prog Client) (router : RouterPtr)
    (store : PendingMessages) (env : TickEnv) (client : Client) :
    Prog (RouterResult × Client) := do
  accessAll [router.block, router.dedupTable]
  let evicted : RouterPtr :=
    { router with
      value :=
        { router.value with
          dedupTable := dedupEvict router.value.dedupTable router.value.dedupCap
            router.value.config.dedupMaxAge env.evictNow } }
  let polled ← tickPoll onMessage evicted store env.arrivals client
  let rebroadcast ← tickRebroadcast polled.1.router polled.1.store env
  let expired ← tickExpire rebroadcast.1 polled.1.store env.expireNow
  pure (⟨.ok, rebroadcast.1, expired, polled.1.events ++ rebroadcast.2⟩, polled.2)

end Callback

/-! ### What each function does -/

section Specifications

variable {pre : Multiset Nat} {router : RouterPtr}

def Coherent (router : RouterPtr) : Prop :=
  router.value.storage = router.storage.map fun _ => sqliteStorage

def SamePlace (before after : RouterPtr) : Prop := after = { before with value := after.value }

theorem block_mem_reaches (router : RouterPtr) :
    ∀ block ∈ [router.block, router.dedupTable], block ∈ router.reaches := by
  intro block member
  apply Multiset.mem_add.mpr
  apply Or.inl
  rcases List.mem_cons.mp member with first | second
  · rw [first]
    exact Multiset.mem_add.mpr (.inl (Multiset.mem_singleton_self _))
  · rw [List.mem_singleton.mp second]
    exact Multiset.mem_add.mpr (.inr (Multiset.mem_singleton_self _))

theorem transport_mem_reaches (router : RouterPtr) :
    ∀ block ∈ router.transport.toList, block ∈ router.reaches := by
  intro block member
  rw [Option.mem_toList] at member
  rw [RouterPtr.reaches, Option.mem_def.mp member]
  apply Multiset.mem_add.mpr
  exact .inr (Multiset.mem_add.mpr (.inl (Multiset.mem_singleton_self block)))

theorem storage_mem_reaches {storage : StoragePtr} (present : router.storage = some storage) :
    ∀ block ∈ storage.parts, block ∈ router.reaches := by
  intro block member
  rw [RouterPtr.reaches, present]
  apply Multiset.mem_add.mpr
  exact .inr (Multiset.mem_add.mpr (.inr (Multiset.mem_coe.mpr member)))

theorem router_create_triple (alloc : Nat → Bool) (transport : Option TransportPtr)
    (storage : Option StoragePtr) (localPubkey : Pubkey) (config : Option BcRouterConfig) :
    Triple 0 (bcRouterCreate alloc transport storage localPubkey config) routerBlocks
      fun created =>
        created.map RouterPtr.value =
          MeshRouter.bcRouterCreate alloc (transport.map TransportPtr.value)
            (storage.map fun _ => sqliteStorage) localPubkey config ∧
        ∀ router, created = some router → Coherent router ∧
          router.transport = transport.map TransportPtr.block ∧ router.storage = storage := by
  simp only [MeshRouter.bcRouterCreate]
  apply (malloc_triple (alloc 0)).bind
  intro block isSome
  cases block with
  | none =>
      rw [if_pos (show alloc 0 = false from isSome.symm)]
      exact Triple.pure none rfl ⟨rfl, fun _ absent => absurd absent (Option.not_mem_none _)⟩
  | some block =>
      rw [show alloc 0 = true from isSome.symm, if_neg (by decide)]
      have more := (malloc_triple (alloc 1)).frame {block}
      rw [Multiset.zero_add] at more
      apply more.bind
      intro table isSome
      cases table with
      | none =>
          rw [if_pos (show alloc 1 = false from isSome.symm)]
          have freed := (free_triple block).weaken (Multiset.zero_add {block})
            (fun _ _ => rfl) fun _ _ => trivial
          apply freed.bind
          intro _ _
          exact Triple.pure none rfl ⟨rfl, fun _ absent => absurd absent (Option.not_mem_none _)⟩
      | some table =>
          rw [show alloc 1 = true from isSome.symm, if_neg (by decide)]
          refine Triple.pure _ (Multiset.add_comm _ _) ⟨rfl, ?_⟩
          intro router isRouter
          cases isRouter
          exact ⟨rfl, rfl, rfl⟩

theorem router_destroy_triple (router : RouterPtr) :
    Triple router.blocks (bcRouterDestroy router) (fun _ => 0) fun _ => True := by
  have here : router.block ∈ router.blocks :=
    Multiset.mem_add.mpr (.inl (Multiset.mem_singleton_self _))
  apply (access_triple here).bind
  intro _ _
  have table := (free_triple router.dedupTable).frame {router.block}
  refine (table.weaken (Multiset.add_comm _ _) (fun _ _ => rfl) fun _ _ => trivial).bind ?_
  intro _ _
  exact (free_triple router.block).weaken (Multiset.zero_add _) (fun _ _ => rfl) fun _ _ => trivial

theorem forward_triple {buf : Nat} (mine : router.reaches ≤ pre) (room : buf ∈ pre)
    (sendRc : Nat → Rc) (data : List UInt8) :
    Triple pre (forwardToPeers router sendRc data buf) (fun _ => pre) fun sends =>
      sends = MeshRouter.forwardToPeers router.value sendRc data := by
  have reach : ∀ block ∈ router.reaches, block ∈ pre := fun _ => Multiset.mem_of_le mine
  apply (access_triple (reach _ (block_mem_reaches router _ List.mem_cons_self))).bind
  intro _ _
  apply (access_all_triple fun block member =>
    reach block (transport_mem_reaches router block member)).bind
  intro _ _
  apply (access_triple room).bind
  intro _ _
  exact Triple.pure _ rfl rfl

theorem store_triple {msg : MessagePtr} (mine : router.reaches ≤ pre) (held : msg.blocks ≤ pre)
    (coherent : Coherent router) (store : PendingMessages) (now : UInt64) :
    Triple pre (storeIfPresent router store now msg) (fun _ => pre) fun stored =>
      MeshRouter.storeIfPresent ⟨router.value, store⟩ now msg.value =
        (⟨router.value, stored.1⟩, stored.2) := by
  have reach : ∀ block ∈ router.reaches, block ∈ pre := fun _ => Multiset.mem_of_le mine
  apply (access_triple (reach _ (block_mem_reaches router _ List.mem_cons_self))).bind
  intro _ _
  cases present : router.storage with
  | none =>
      refine Triple.pure (store, []) rfl ?_
      simp only [MeshRouter.storeIfPresent, show router.value.storage = none by
        rw [coherent, present]; rfl]
      rfl
  | some storage =>
      apply (access_all_triple fun block member =>
        reach block (storage_mem_reaches present block member)).bind
      intro _ _
      apply (read_triple held).bind
      intro value isValue
      rw [isValue]
      refine Triple.pure _ rfl ?_
      simp only [MeshRouter.storeIfPresent, show router.value.storage = some sqliteStorage by
        rw [coherent, present]; rfl]
      rfl

theorem forward_copy_triple {msg : MessagePtr} (mine : router.reaches ≤ pre)
    (held : msg.blocks ≤ pre) (succeeds : Bool) (sendRc : Nat → Rc) :
    Triple pre (forwardCopy router msg succeeds sendRc) (fun _ => pre) fun events =>
      let wire := WireMessage.bcMessageSerialize msg.value
        (bcMessageHeaderSize + msg.value.payload.length)
      events = if succeeds = true ∧ wire.rc = .ok then
        (MeshRouter.forwardToPeers router.value sendRc wire.written).2 else [] := by
  apply (read_triple held).bind
  intro value isValue
  rw [isValue]
  have making := (malloc_triple succeeds).frame pre
  rw [Multiset.zero_add] at making
  apply making.bind
  intro buf isSome
  cases buf with
  | none =>
      rw [show succeeds = false from isSome.symm]
      exact Triple.pure [] (Multiset.zero_add pre).symm rfl
  | some buf =>
      rw [show succeeds = true from isSome.symm]
      have within : pre ≤ {buf} + pre := Multiset.le_add_left _ _
      have room : buf ∈ {buf} + pre :=
        Multiset.mem_add.mpr (.inl (Multiset.mem_singleton_self buf))
      have freed := (free_triple buf).frame pre
      rw [Multiset.zero_add] at freed
      apply (message_serialize_triple (held.trans within) room _).bind
      intro wire isWire
      rw [isWire]
      by_cases fits : (WireMessage.bcMessageSerialize msg.value
          (bcMessageHeaderSize + msg.value.payload.length)).rc = .ok
      · simp only [if_pos fits]
        apply (forward_triple (mine.trans within) room sendRc _).bind
        intro sends isSends
        apply freed.bind
        intro _ _
        refine Triple.pure sends.2 rfl ?_
        rw [if_pos ⟨trivial, fits⟩, isSends]
      · simp only [if_neg fits]
        apply freed.bind
        intro _ _
        refine Triple.pure [] rfl ?_
        rw [if_neg fun both => fits both.2]

structure Kept (before : RouterPtr) (result : RouterResult) : Prop where
  place : SamePlace before result.router
  coherent : Coherent result.router

theorem SamePlace.reaches {before after : RouterPtr} (same : SamePlace before after) :
    after.reaches = before.reaches := by
  rw [same]
  rfl

theorem SamePlace.trans {first second third : RouterPtr} (start : SamePlace first second)
    (rest : SamePlace second third) : SamePlace first third := by
  rw [SamePlace, rest, start]

theorem router_broadcast_triple {msg : MessagePtr} (coherent : Coherent router)
    (mine : router.reaches ≤ pre) (held : msg.blocks ≤ pre) (store : PendingMessages)
    (env : CallEnv) :
    Triple pre (bcRouterBroadcast router store env msg) (fun _ => pre) fun result =>
      result.outcome = MeshRouter.bcRouterBroadcast ⟨router.value, store⟩ env msg.value ∧
        Kept router result := by
  have reach : ∀ block ∈ router.reaches, block ∈ pre := fun _ => Multiset.mem_of_le mine
  simp only [MeshRouter.bcRouterBroadcast]
  apply (access_all_triple fun block member =>
    reach block (block_mem_reaches router block member)).bind
  intro _ _
  apply (read_triple held).bind
  intro value isValue
  rw [isValue]
  have making := (malloc_triple (env.alloc 0)).frame pre
  rw [Multiset.zero_add] at making
  apply making.bind
  intro buf isSome
  cases buf with
  | none =>
      rw [if_pos (show env.alloc 0 = false from isSome.symm)]
      exact Triple.pure (⟨.nomem, router.mark env.now msg.value.uuid, store, []⟩ : RouterResult)
        (Multiset.zero_add pre).symm ⟨rfl, rfl, coherent⟩
  | some buf =>
      rw [show env.alloc 0 = true from isSome.symm, if_neg (by decide)]
      have within : pre ≤ {buf} + pre := Multiset.le_add_left _ _
      have room : buf ∈ {buf} + pre :=
        Multiset.mem_add.mpr (.inl (Multiset.mem_singleton_self buf))
      have freed := (free_triple buf).frame pre
      rw [Multiset.zero_add] at freed
      apply (message_serialize_triple (held.trans within) room _).bind
      intro wire isWire
      rw [isWire, serialize_fits]
      simp only [ne_eq, not_true_eq_false, if_false]
      have marked : (router.mark env.now msg.value.uuid).reaches ≤ {buf} + pre :=
        mine.trans within
      apply (forward_triple marked room env.sendRc _).bind
      intro sends isSends
      apply (store_triple marked (held.trans within) coherent store env.storeNow).bind
      intro stored isStored
      apply freed.bind
      intro _ _
      refine Triple.pure (⟨.ok, router.mark env.now msg.value.uuid, stored.1,
        sends.2 ++ stored.2⟩ : RouterResult) rfl ⟨?_, rfl, coherent⟩
      simp only [RouterResult.outcome, isSends]
      rw [show MeshRouter.storeIfPresent ⟨router.value.mark env.now msg.value.uuid, store⟩
        env.storeNow msg.value = _ from isStored]
      rfl

end Specifications

/-! ### Calls with a client -/

section Clients

variable {Client Abstract : Type}

/-- A client with blocks of its own, and what it is without them. -/
structure ClientModel (Client Abstract : Type) where
  onMessage : MessagePtr → Client → Prog Client
  owns : Client → Multiset Nat
  value : Client → Abstract
  sound : Client → Prop
  handle : BcMessage → Abstract → Abstract

/-- The callback leaves the message alone and does what it does without
memory. -/
def ClientModel.Handles (model : ClientModel Client Abstract) : Prop :=
  ∀ msg client, model.sound client →
    Triple (msg.blocks + model.owns client) (model.onMessage msg client)
      (fun after => msg.blocks + model.owns after)
      fun after => model.value after = model.handle msg.value (model.value client) ∧
        model.sound after

def deliverEvents (handle : BcMessage → Abstract → Abstract) : List Event → Abstract → Abstract
  | [], client => client
  | .deliver msg :: rest, client => deliverEvents handle rest (handle msg client)
  | _ :: rest, client => deliverEvents handle rest client

theorem deliver_events_append (handle : BcMessage → Abstract → Abstract)
    (first second : List Event) (client : Abstract) :
    deliverEvents handle (first ++ second) client =
      deliverEvents handle second (deliverEvents handle first client) := by
  induction first generalizing client with
  | nil => rfl
  | cons event rest ih =>
      cases event with
      | deliver msg => exact ih (handle msg client)
      | store | send => exact ih client

def Silent (events : List Event) : Prop := ∀ msg, Event.deliver msg ∉ events

theorem deliver_silent {events : List Event} (silent : Silent events)
    (handle : BcMessage → Abstract → Abstract) (client : Abstract) :
    deliverEvents handle events client = client := by
  induction events with
  | nil => rfl
  | cons event rest ih =>
      have later : Silent rest := fun msg member => silent msg (List.mem_cons_of_mem event member)
      cases event with
      | deliver msg => exact absurd List.mem_cons_self (silent msg)
      | store | send => exact ih later

theorem silent_append {first second : List Event} (start : Silent first) (rest : Silent second) :
    Silent (first ++ second) := by
  intro msg member
  rcases List.mem_append.mp member with early | late
  · exact start msg early
  · exact rest msg late

theorem store_silent (node : Node PendingMessages) (now : UInt64) (msg : BcMessage) :
    Silent (MeshRouter.storeIfPresent node now msg).2 := by
  intro delivered member
  obtain ⟨rc, isStore⟩ := store_if_present_events node now msg _ member
  cases isStore

theorem forward_silent (router : BcRouter PendingMessages) (sendRc : Nat → Rc)
    (data : List UInt8) : Silent (MeshRouter.forwardToPeers router sendRc data).2 := by
  intro delivered member
  obtain ⟨peer, rc, isSend⟩ := forward_to_peers_events router sendRc data _ member
  cases isSend

variable (model : ClientModel Client Abstract)

structure Served (router : RouterPtr) (client : Client) (outcome : Outcome PendingMessages)
    (result : RouterResult × Client) : Prop where
  outcome : result.1.outcome = outcome
  kept : Kept router result.1
  client : model.value result.2 =
    deliverEvents model.handle result.1.events (model.value client)
  sound : model.sound result.2

theorem destroy_rest (msg : MessagePtr) (rest : Multiset Nat) :
    Triple (msg.blocks + rest) (bcMessageDestroy (some msg)) (fun _ => rest) fun _ => True :=
  ((message_destroy_triple (some msg)).frame rest).weaken rfl
    (fun _ _ => (Multiset.zero_add rest).symm) fun _ _ => trivial

variable {model} {router : RouterPtr} (coherent : Coherent router) (handles : model.Handles)

include coherent handles

theorem receive_new_triple (store : PendingMessages) (env : CallEnv) (msg : MessagePtr)
    {client : Client} (sound : model.sound client) :
    Triple (msg.blocks + (router.reaches + model.owns client))
      (receiveNew model.onMessage router store env msg client)
      (fun result => router.reaches + model.owns result.2)
      (Served model router client (MeshRouter.receiveNew ⟨router.value, store⟩ env msg.value)) := by
  have destroyed := destroy_rest msg (router.reaches + model.owns client)
  unfold receiveNew
  by_cases dead : msg.value.ttl = 0
  · simp only [if_pos dead]
    apply destroyed.bind
    intro _ _
    refine Triple.pure _ rfl ⟨?_, ⟨rfl, coherent⟩, rfl, sound⟩
    simp [MeshRouter.receiveNew, dead, RouterResult.outcome, RouterPtr.mark]
  · simp only [if_neg dead]
    by_cases mine : (hop msg).value.receiverPubkey =
        (router.mark env.now msg.value.uuid).value.localPubkey
    · simp only [if_pos mine]
      have addressed : msg.value.receiverPubkey = router.value.localPubkey := mine
      cases listens : router.value.onMessage with
      | false =>
          have silent : (router.mark env.now msg.value.uuid).value.onMessage = false := listens
          simp only [silent, Bool.false_eq_true, if_false]
          apply destroyed.bind
          intro _ _
          refine Triple.pure _ rfl ⟨?_, ⟨rfl, coherent⟩, rfl, sound⟩
          simp [MeshRouter.receiveNew, dead, addressed, listens, RouterResult.outcome, RouterPtr.mark]
      | true =>
          have loud : (router.mark env.now msg.value.uuid).value.onMessage = true := listens
          simp only [loud, if_true]
          have called := (handles (hop msg) client sound).frame router.reaches
          refine (called.weaken ?_ (fun _ _ => rfl) fun _ ensured => ensured).bind ?_
          · show msg.blocks + (router.reaches + model.owns client) =
              msg.blocks + model.owns client + router.reaches
            abel
          · rintro after ⟨handled, soundAfter⟩
            have gone := destroy_rest (hop msg) (router.reaches + model.owns after)
            refine (gone.weaken ?_ (fun _ _ => rfl) fun _ _ => trivial).bind ?_
            · abel
            · intro _ _
              refine Triple.pure _ rfl ⟨?_, ⟨rfl, coherent⟩, handled, soundAfter⟩
              simp [MeshRouter.receiveNew, dead, addressed, listens, RouterResult.outcome,
                RouterPtr.mark, hop]
    · simp only [if_neg mine]
      have foreign : ¬ msg.value.receiverPubkey =
          (router.value.mark env.now msg.value.uuid).localPubkey := mine
      have held : (hop msg).blocks ≤ msg.blocks + (router.reaches + model.owns client) :=
        Multiset.le_add_right _ _
      have reach : (router.mark env.now msg.value.uuid).reaches ≤
          msg.blocks + (router.reaches + model.owns client) :=
        (Multiset.le_add_right _ _).trans (Multiset.le_add_left _ _)
      apply (store_triple reach held coherent store env.storeNow).bind
      intro stored isStored
      apply (forward_copy_triple reach held (env.alloc 2) env.sendRc).bind
      intro sends isSends
      apply destroyed.bind
      intro _ _
      have silent : Silent (stored.2 ++ sends) := by
        apply silent_append
        · rw [← congrArg Prod.snd isStored]
          exact store_silent _ _ _
        · rw [isSends]
          split_ifs
          · exact forward_silent _ _ _
          · exact fun _ => List.not_mem_nil
      refine Triple.pure _ rfl
        ⟨?_, ⟨rfl, coherent⟩, (deliver_silent silent _ _).symm, sound⟩
      simp only [MeshRouter.receiveNew, if_neg dead]
      rw [if_neg foreign]
      rw [show MeshRouter.storeIfPresent ⟨router.value.mark env.now msg.value.uuid, store⟩
        env.storeNow { msg.value with ttl := msg.value.ttl - 1 } = _ from isStored, isSends]
      rfl

theorem router_receive_triple (store : PendingMessages) (env : CallEnv) (data : List UInt8)
    {client : Client} (sound : model.sound client) :
    Triple (router.reaches + model.owns client)
      (bcRouterReceive model.onMessage router store env data client)
      (fun result => router.reaches + model.owns result.2)
      (Served model router client
        (MeshRouter.bcRouterReceive ⟨router.value, store⟩ env data)) := by
  have invalid : Served model router client
      ⟨.invalid, ⟨router.value, store⟩, []⟩ (⟨.invalid, router, store, []⟩, client) :=
    ⟨rfl, ⟨rfl, coherent⟩, rfl, sound⟩
  simp only [bcRouterReceive, MeshRouter.bcRouterReceive]
  by_cases empty : data.length = 0
  · simp only [if_pos empty]
    exact Triple.pure _ rfl invalid
  · simp only [if_neg empty]
    have parsing := (message_deserialize_triple env.alloc ⟨data, env.beyond⟩).frame
      (router.reaches + model.owns client)
    rw [Multiset.zero_add] at parsing
    apply parsing.bind
    intro msg isValue
    rw [← isValue]
    cases msg with
    | none => exact Triple.pure _ (Multiset.zero_add _).symm invalid
    | some msg =>
        have reach : ∀ block ∈ [router.block, router.dedupTable],
            block ∈ ptrBlocks (some msg) + (router.reaches + model.owns client) := by
          intro block member
          apply Multiset.mem_of_le _ (block_mem_reaches router block member)
          exact (Multiset.le_add_right _ _).trans (Multiset.le_add_left _ _)
        apply (access_all_triple reach).bind
        intro _ _
        apply (read_triple (Multiset.le_add_right _ _)).bind
        intro value same
        rw [same]
        simp only [Option.map_some, receiveParsed]
        cases dedupContains router.value.dedupTable router.value.dedupCap msg.value.uuid with
        | true =>
            simp only [if_true]
            apply (destroy_rest msg (router.reaches + model.owns client)).bind
            intro _ _
            exact Triple.pure _ rfl ⟨rfl, ⟨rfl, coherent⟩, rfl, sound⟩
        | false =>
            simp only [Bool.false_eq_true, if_false]
            exact receive_new_triple coherent handles store env msg sound

omit coherent in
theorem receive_loop_triple (arrivals : List Arrival) :
    ∀ (router : RouterPtr) (store : PendingMessages) (client : Client), Coherent router →
      model.sound client →
      Triple (router.reaches + model.owns client)
        (receiveLoop model.onMessage router store arrivals client)
        (fun result => router.reaches + model.owns result.2)
        (Served model router client
          ⟨.ok, (MeshRouter.receiveLoop ⟨router.value, store⟩ arrivals).1,
            (MeshRouter.receiveLoop ⟨router.value, store⟩ arrivals).2⟩) := by
  induction arrivals with
  | nil =>
      intro router store client coherent sound
      exact Triple.pure _ rfl ⟨rfl, ⟨rfl, coherent⟩, rfl, sound⟩
  | cons arrival rest ih =>
      intro router store client coherent sound
      have reach : ∀ block ∈ router.transport.toList,
          block ∈ router.reaches + model.owns client := fun block member =>
        Multiset.mem_add.mpr (.inl (transport_mem_reaches router block member))
      apply (access_all_triple reach).bind
      intro _ _
      simp only [MeshRouter.receiveLoop]
      by_cases arrives : arrival.rc = .ok ∧ 0 < arrival.received.length
      · simp only [if_pos arrives]
        apply (router_receive_triple coherent handles store arrival.env arrival.received sound).bind
        rintro ⟨first, after⟩ served
        have place : first.router.reaches = router.reaches := served.kept.place.reaches
        have node : (⟨first.router.value, first.store⟩ : Node PendingMessages) =
            (MeshRouter.bcRouterReceive ⟨router.value, store⟩ arrival.env arrival.received).node :=
          congrArg Outcome.node served.outcome
        have events : first.events =
            (MeshRouter.bcRouterReceive ⟨router.value, store⟩ arrival.env
              arrival.received).events := congrArg Outcome.events served.outcome
        have later := ih first.router first.store after served.kept.coherent served.sound
        rw [node, place] at later
        apply later.bind
        rintro ⟨last, final⟩ servedLast
        refine Triple.pure _ rfl ⟨?_, ⟨?_, servedLast.kept.coherent⟩, ?_, servedLast.sound⟩
        · have result := servedLast.outcome
          simp only [RouterResult.outcome, Outcome.mk.injEq] at result ⊢
          exact ⟨result.1, result.2.1, by rw [events, result.2.2]⟩
        · exact served.kept.place.trans servedLast.kept.place
        · show model.value final =
            deliverEvents model.handle (first.events ++ last.events) (model.value client)
          rw [deliver_events_append, ← served.client, servedLast.client]
      · simp only [if_neg arrives]
        exact Triple.pure _ rfl ⟨rfl, ⟨rfl, coherent⟩, rfl, sound⟩

theorem tick_poll_triple (store : PendingMessages) (arrivals : List Arrival) {client : Client}
    (sound : model.sound client) :
    Triple (router.reaches + model.owns client)
      (tickPoll model.onMessage router store arrivals client)
      (fun result => router.reaches + model.owns result.2)
      (Served model router client
        ⟨.ok, (MeshRouter.tickPoll ⟨router.value, store⟩ arrivals).1,
          (MeshRouter.tickPoll ⟨router.value, store⟩ arrivals).2⟩) := by
  simp only [tickPoll, MeshRouter.tickPoll]
  split_ifs
  · exact receive_loop_triple handles arrivals router store client coherent sound
  · exact Triple.pure _ rfl ⟨rfl, ⟨rfl, coherent⟩, rfl, sound⟩

omit coherent handles

theorem rebroadcast_loop_triple (router : RouterPtr) (bufAlloc : Nat → Bool)
    (sendRc : Nat → Nat → Rc) {arr : Option Nat} (msgs : List MessagePtr)
    (notNull : msgs ≠ [] → arr ≠ none) :
    ∀ j, Triple (listBlocks msgs + (blockOf arr + router.reaches))
      (rebroadcastLoop router bufAlloc sendRc arr msgs j)
      (fun _ => blockOf arr + router.reaches)
      fun events => events = MeshRouter.rebroadcastLoop router.value bufAlloc sendRc
        (msgs.map MessagePtr.value) j := by
  induction msgs with
  | nil =>
      intro j
      exact Triple.pure [] (Multiset.zero_add _).symm rfl
  | cons msg rest ih =>
      intro j
      have there : arr ≠ none := notNull (List.cons_ne_nil msg rest)
      have array : blockOf arr ≤ listBlocks (msg :: rest) + (blockOf arr + router.reaches) :=
        (Multiset.le_add_right _ _).trans (Multiset.le_add_left _ _)
      have reach : router.reaches ≤ listBlocks (msg :: rest) + (blockOf arr + router.reaches) :=
        (Multiset.le_add_left _ _).trans (Multiset.le_add_left _ _)
      have held : msg.blocks ≤ listBlocks (msg :: rest) + (blockOf arr + router.reaches) :=
        (Multiset.le_add_right _ _).trans (Multiset.le_add_right _ _)
      apply (deref_triple there array).bind
      intro _ _
      apply (forward_copy_triple reach held (bufAlloc j) (sendRc j)).bind
      intro sends isSends
      have gone := destroy_rest msg (listBlocks rest + (blockOf arr + router.reaches))
      refine (gone.weaken ?_ (fun _ _ => rfl) fun _ _ => trivial).bind ?_
      · exact Multiset.add_assoc _ _ _
      · intro _ _
        apply (ih (fun _ => there) (j + 1)).bind
        intro later isLater
        refine Triple.pure _ rfl ?_
        rw [isSends, isLater]
        rfl

theorem tick_rebroadcast_triple (coherent : Coherent router) (store : PendingMessages)
    (env : TickEnv) :
    Triple router.reaches (tickRebroadcast router store env) (fun _ => router.reaches)
      fun result =>
        MeshRouter.tickRebroadcast ⟨router.value, store⟩ env =
          (⟨result.1.value, store⟩, result.2) ∧
        SamePlace router result.1 ∧ Coherent result.1 := by
  unfold tickRebroadcast
  cases present : router.storage with
  | none =>
      refine Triple.pure (router, []) rfl ⟨?_, rfl, coherent⟩
      simp only [MeshRouter.tickRebroadcast, show router.value.storage = none by
        rw [coherent, present]; rfl]
      rfl
  | some storage =>
      have queries : router.value.storage.bind BcStorage.getPending =
          some PendingStorage.sqliteGetPending := by
        rw [coherent, present]
        rfl
      simp only [MeshRouter.tickRebroadcast, queries]
      by_cases due : 0 < router.value.peers.length ∧
          env.sfNow - router.value.lastSfTick ≥ bcSfRebroadcastSec
      · simp only [if_pos due]
        apply (access_all_triple (storage_mem_reaches present)).bind
        intro _ _
        have querying := (get_pending_triple env.pendingNow env.pendingAlloc none store).frame
          router.reaches
        rw [Multiset.zero_add] at querying
        apply querying.bind
        rintro pending ⟨isPending, sound⟩
        rw [← isPending]
        by_cases ok : pending.rc = .ok
        · simp only [if_pos ok]
          have looping := rebroadcast_loop_triple (router.stamp env.sfNow) env.bufAlloc env.sendRc
            pending.msgs sound.notNull 0
          refine (looping.weaken ?_ (fun _ _ => rfl) fun _ ensured => ensured).bind ?_
          · show blockOf pending.arr + listBlocks pending.msgs + router.reaches =
              listBlocks pending.msgs + (blockOf pending.arr + router.reaches)
            abel
          · intro sends isSends
            have freed := (free_if_any_triple pending.arr).frame router.reaches
            rw [Multiset.zero_add] at freed
            apply freed.bind
            intro _ _
            refine Triple.pure (router.stamp env.sfNow, sends) rfl ⟨?_, rfl, coherent⟩
            rw [isSends]
            rfl
        · simp only [if_neg ok]
          refine Triple.pure (router.stamp env.sfNow, []) ?_ ⟨rfl, rfl, coherent⟩
          rw [sound.failed ok, Multiset.zero_add]
      · simp only [if_neg due]
        exact Triple.pure (router, []) rfl ⟨rfl, rfl, coherent⟩

theorem tick_expire_triple (coherent : Coherent router) (store : PendingMessages)
    (now : UInt64) :
    Triple router.reaches (tickExpire router store now) (fun _ => router.reaches)
      fun expired => MeshRouter.tickExpire ⟨router.value, store⟩ now = ⟨router.value, expired⟩ := by
  unfold tickExpire
  cases present : router.storage with
  | none =>
      refine Triple.pure store rfl ?_
      simp only [MeshRouter.tickExpire, show router.value.storage = none by
        rw [coherent, present]; rfl]
      rfl
  | some storage =>
      apply (access_all_triple (storage_mem_reaches present)).bind
      intro _ _
      refine Triple.pure _ rfl ?_
      simp only [MeshRouter.tickExpire, show router.value.storage = some sqliteStorage by
        rw [coherent, present]; rfl]
      rfl

/-- A tick with the callbacks in the middle of it is a tick without memory,
followed by the callbacks for the messages it delivered. -/
theorem router_tick_triple (coherent : Coherent router) (handles : model.Handles)
    (store : PendingMessages) (env : TickEnv) {client : Client} (sound : model.sound client) :
    Triple (router.reaches + model.owns client)
      (bcRouterTick model.onMessage router store env client)
      (fun result => router.reaches + model.owns result.2)
      (Served model router client
        ⟨.ok, (MeshRouter.bcRouterTick ⟨router.value, store⟩ env).1,
          (MeshRouter.bcRouterTick ⟨router.value, store⟩ env).2⟩) := by
  have reach : ∀ block ∈ [router.block, router.dedupTable],
      block ∈ router.reaches + model.owns client := fun block member =>
    Multiset.mem_add.mpr (.inl (block_mem_reaches router block member))
  apply (access_all_triple reach).bind
  intro _ _
  let evicted : RouterPtr :=
    { router with
      value :=
        { router.value with
          dedupTable := dedupEvict router.value.dedupTable router.value.dedupCap
            router.value.config.dedupMaxAge env.evictNow } }
  have evictedCoherent : Coherent evicted := coherent
  apply (tick_poll_triple evictedCoherent handles store env.arrivals sound).bind
  rintro ⟨polled, after⟩ served
  have place : polled.router.reaches = router.reaches := served.kept.place.reaches
  have node : (⟨polled.router.value, polled.store⟩ : Node PendingMessages) =
      (MeshRouter.tickPoll ⟨evicted.value, store⟩ env.arrivals).1 :=
    congrArg Outcome.node served.outcome
  have events : polled.events = (MeshRouter.tickPoll ⟨evicted.value, store⟩ env.arrivals).2 :=
    congrArg Outcome.events served.outcome
  have again := (tick_rebroadcast_triple served.kept.coherent polled.store env).frame
    (model.owns after)
  rw [place] at again
  apply again.bind
  rintro ⟨last, sends⟩ ⟨isRebroadcast, lastPlace, lastCoherent⟩
  have expiring := (tick_expire_triple lastCoherent polled.store env.expireNow).frame
    (model.owns after)
  rw [lastPlace.reaches, place] at expiring
  apply expiring.bind
  intro expired isExpired
  have silent : Silent sends := by
    have same : (MeshRouter.tickRebroadcast ⟨polled.router.value, polled.store⟩ env).2 = sends :=
      congrArg Prod.snd isRebroadcast
    intro msg member
    rw [← same] at member
    obtain ⟨peer, data, rc, isSend⟩ := rebroadcast_events _ env _ member
    cases isSend
  refine Triple.pure _ rfl ⟨?_, ⟨?_, lastCoherent⟩, ?_, served.sound⟩
  · have evictedNode : MeshRouter.tickEvict ⟨router.value, store⟩ env.evictNow =
        ⟨evicted.value, store⟩ := rfl
    simp only [RouterResult.outcome, MeshRouter.bcRouterTick, evictedNode, ← node, ← events,
      isRebroadcast, isExpired]
  · exact (show SamePlace router polled.router from served.kept.place).trans lastPlace
  · show model.value after =
      deliverEvents model.handle (polled.events ++ sends) (model.value client)
    rw [deliver_events_append, deliver_silent silent]
    exact served.client

end Clients

end BitChat.RouterMemory
