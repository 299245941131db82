import BitChat.MeshRouter
import BitChat.Library.TransitionSystem

/-!
# Runs of one router

Any sequence of calls on a router from its creation, at clock readings that
never step back. The probe-chain invariant survives broadcasts, receives and
everything inside a tick except an eviction that empties a slot in the middle
of a chain: `dedup_evict` leaves no tombstone, so the entries behind the gap
are no longer found.
-/

namespace BitChat.RouterRuns

open BitChat.WireMessage BitChat.DedupTable BitChat.PendingStorage BitChat.MeshRouter
open TransitionSystem

set_option autoImplicit false

inductive RouterCall where
  | broadcast (env : CallEnv) (msg : BcMessage)
  | receive (env : CallEnv) (data : List UInt8)
  | tick (env : TickEnv)
  | addPeer (now : UInt64) (peer : BcPeer)
  | setOnMessage (callback : Bool)

def CallEnv.Within (env : CallEnv) (start finish : UInt64) : Prop :=
  start ≤ env.now ∧ env.now ≤ env.storeNow ∧ env.storeNow ≤ finish

def ArrivalsWithin (start finish : UInt64) : List Arrival → Prop
  | [] => start ≤ finish
  | arrival :: rest =>
      start ≤ arrival.env.now ∧ arrival.env.now ≤ arrival.env.storeNow ∧
        ArrivalsWithin arrival.env.storeNow finish rest

theorem arrivals_within_le {start finish : UInt64} (arrivals : List Arrival)
    (within : ArrivalsWithin start finish arrivals) : start ≤ finish := by
  induction arrivals generalizing start with
  | nil => exact within
  | cons arrival rest ih =>
      exact UInt64.le_trans within.1 (UInt64.le_trans within.2.1 (ih within.2.2))

def TickEnv.Within (env : TickEnv) (start finish : UInt64) : Prop :=
  start ≤ env.evictNow ∧ ArrivalsWithin env.evictNow env.sfNow env.arrivals ∧
    env.sfNow ≤ env.pendingNow ∧ env.pendingNow ≤ env.expireNow ∧ env.expireNow ≤ finish

theorem tick_within_sf {env : TickEnv} {start finish : UInt64}
    (within : TickEnv.Within env start finish) : start ≤ env.sfNow ∧ env.sfNow ≤ finish := by
  obtain ⟨begins, arrivals, pending, expire, ends⟩ := within
  exact ⟨UInt64.le_trans begins (arrivals_within_le _ arrivals),
    UInt64.le_trans pending (UInt64.le_trans expire ends)⟩

def RouterCall.Within (start finish : UInt64) : RouterCall → Prop
  | .broadcast env _ => CallEnv.Within env start finish
  | .receive env _ => CallEnv.Within env start finish
  | .tick env => TickEnv.Within env start finish
  | .addPeer now _ => start ≤ now ∧ now ≤ finish
  | .setOnMessage _ => start ≤ finish

theorem within_le {start finish : UInt64} {call : RouterCall} (within : call.Within start finish) :
    start ≤ finish := by
  cases call with
  | broadcast env msg => exact UInt64.le_trans within.1 (UInt64.le_trans within.2.1 within.2.2)
  | receive env data => exact UInt64.le_trans within.1 (UInt64.le_trans within.2.1 within.2.2)
  | tick env =>
      obtain ⟨begins, ends⟩ := tick_within_sf within
      exact UInt64.le_trans begins ends
  | addPeer now peer => exact UInt64.le_trans within.1 within.2
  | setOnMessage callback => exact within

section Runs

variable {Store : Type}

def RouterCall.run (node : Node Store) : RouterCall → Node Store
  | .broadcast env msg => (bcRouterBroadcast node env msg).node
  | .receive env data => (bcRouterReceive node env data).node
  | .tick env => (bcRouterTick node env).1
  | .addPeer now peer => { node with router := bcRouterAddPeer node.router now peer }
  | .setOnMessage callback => { node with router := bcRouterSetOnMessage node.router callback }

theorem run_keeps_setup (node : Node Store) (call : RouterCall) :
    (call.run node).router.storage = node.router.storage ∧
      (call.run node).router.config = node.router.config ∧
      (call.run node).router.dedupCap = node.router.dedupCap := by
  cases call with
  | broadcast env msg =>
      have fixture := broadcast_fixture node env msg
      exact ⟨fixture.storage, fixture.config, fixture.dedupCap⟩
  | receive env data =>
      have fixture := receive_fixture node env data
      exact ⟨fixture.storage, fixture.config, fixture.dedupCap⟩
  | tick env =>
      have fixture := tick_fixture node env
      exact ⟨fixture.storage, fixture.config, fixture.dedupCap⟩
  | addPeer now peer => exact ⟨rfl, rfl, rfl⟩
  | setOnMessage callback => exact ⟨rfl, rfl, rfl⟩

structure RunState (Store : Type) where
  node : Node Store
  clock : UInt64

def routerSystem (Store : Type) : System (RunState Store) RouterCall where
  initial state := ∃ alloc transport storage localPubkey config,
    bcRouterCreate alloc transport storage localPubkey config = some state.node.router ∧
      1 ≤ state.node.router.dedupCap
  step state call after :=
    after.node = call.run state.node ∧ call.Within state.clock after.clock

def NodeIntact (node : Node Store) (clock : UInt64) : Prop :=
  0 < node.router.dedupCap ∧
    Intact node.router.dedupCap node.router.config.dedupMaxAge clock node.router.dedupTable

theorem NodeIntact.later {node : Node Store} {clock after : UInt64}
    (intact : NodeIntact node clock) (order : clock ≤ after) : NodeIntact node after :=
  ⟨intact.1, intact.2.later order⟩

theorem NodeIntact.of_router {node changed : Node Store} {clock : UInt64}
    (intact : NodeIntact node clock)
    (cap : changed.router.dedupCap = node.router.dedupCap)
    (config : changed.router.config = node.router.config)
    (table : changed.router.dedupTable = node.router.dedupTable) : NodeIntact changed clock := by
  unfold NodeIntact
  rw [cap, config, table]
  exact intact

theorem NodeIntact.mark {node changed : Node Store} {clock now : UInt64} {uuid : Uuid}
    (intact : NodeIntact node clock) (order : clock ≤ now)
    (router : changed.router = node.router.mark now uuid) : NodeIntact changed now := by
  unfold NodeIntact
  rw [router]
  exact ⟨intact.1, (intact.2.later order).insert uuid intact.1⟩

theorem NodeIntact.receive {node : Node Store} {clock : UInt64} {env : CallEnv}
    (data : List UInt8) (intact : NodeIntact node clock) (order : clock ≤ env.now) :
    NodeIntact (bcRouterReceive node env data).node env.now := by
  rcases receive_router node env data with same | ⟨msg, -, -, marked⟩
  · exact (intact.later order).of_router (by rw [same]) (by rw [same]) (by rw [same])
  · exact intact.mark order marked

theorem NodeIntact.receive_loop {clock finish : UInt64} (arrivals : List Arrival)
    (order : ArrivalsWithin clock finish arrivals) :
    ∀ node : Node Store, NodeIntact node clock → NodeIntact (receiveLoop node arrivals).1 finish := by
  induction arrivals generalizing clock with
  | nil => exact fun node intact => intact.later order
  | cons arrival rest ih =>
      intro node intact
      obtain ⟨first, second, later⟩ := order
      rw [receiveLoop]
      split_ifs with received
      · exact ih later _ ((intact.receive arrival.received first).later second)
      · -- The loop stops here; the remaining readings still bound the clock.
        exact intact.later (arrivals_within_le (arrival :: rest) ⟨first, second, later⟩)

theorem NodeIntact.poll {node : Node Store} {clock finish : UInt64} {arrivals : List Arrival}
    (intact : NodeIntact node clock) (order : ArrivalsWithin clock finish arrivals) :
    NodeIntact (tickPoll node arrivals).1 finish := by
  unfold tickPoll
  split_ifs
  · exact NodeIntact.receive_loop arrivals order node intact
  · exact intact.later (arrivals_within_le arrivals order)

theorem NodeIntact.rebroadcast {node : Node Store} {clock : UInt64} (env : TickEnv)
    (intact : NodeIntact node clock) : NodeIntact (tickRebroadcast node env).1 clock := by
  have fixture := rebroadcast_fixture node env
  exact intact.of_router fixture.dedupCap fixture.config (rebroadcast_table node env)

theorem NodeIntact.expire {node : Node Store} {clock : UInt64} (now : UInt64)
    (intact : NodeIntact node clock) : NodeIntact (tickExpire node now) clock := by
  have same := expire_router node now
  exact intact.of_router (by rw [same]) (by rw [same]) (by rw [same])

theorem NodeIntact.evict {node : Node Store} {clock now : UInt64}
    (intact : NodeIntact node clock) (order : clock ≤ now)
    (spares : EvictionSpares node.router.dedupCap node.router.config.dedupMaxAge now
      node.router.dedupTable) :
    NodeIntact (tickEvict node now) now :=
  ⟨intact.1, (intact.2.later order).evict spares⟩

/-- The condition on a call: an eviction spares the probe walks of the
entries that are still fresh. -/
def SparesFreshEntries (state : RunState Store) : RouterCall → Prop
  | .tick env => EvictionSpares state.node.router.dedupCap state.node.router.config.dedupMaxAge
      env.evictNow state.node.router.dedupTable
  | _ => True

theorem node_intact_call {state after : RunState Store} {call : RouterCall}
    (intact : NodeIntact state.node state.clock) (spares : SparesFreshEntries state call)
    (step : (routerSystem Store).step state call after) : NodeIntact after.node after.clock := by
  obtain ⟨result, within⟩ := step
  rw [result]
  cases call with
  | broadcast env msg =>
      have marked : NodeIntact (bcRouterBroadcast state.node env msg).node env.now :=
        intact.mark within.1 (broadcast_router state.node env msg)
      exact marked.later (UInt64.le_trans within.2.1 within.2.2)
  | receive env data =>
      exact (intact.receive data within.1).later (UInt64.le_trans within.2.1 within.2.2)
  | tick env =>
      obtain ⟨start, arrivals, pending, expire, finish⟩ := within
      have evicted := intact.evict start spares
      have ticked := ((evicted.poll arrivals).rebroadcast env).expire env.expireNow
      exact ticked.later (UInt64.le_trans pending (UInt64.le_trans expire finish))
  | addPeer now peer => exact (intact.later (within_le within)).of_router rfl rfl rfl
  | setOnMessage callback => exact (intact.later (within_le within)).of_router rfl rfl rfl

theorem created_table {state : RunState Store} (created : (routerSystem Store).initial state) :
    0 < state.node.router.dedupCap ∧ state.node.router.dedupTable = emptyTable := by
  obtain ⟨alloc, transport, storage, localPubkey, config, made, cap⟩ := created
  refine ⟨cap, ?_⟩
  rw [created_eq made]

theorem node_intact_created {state : RunState Store}
    (created : (routerSystem Store).initial state) : NodeIntact state.node state.clock := by
  obtain ⟨cap, empty⟩ := created_table created
  refine ⟨cap, ?_⟩
  rw [empty]
  exact intact_empty _ _ _

/-- Every uuid the table holds with an age of at most the limit is found, so
a datagram that carries it is dropped as a duplicate without any effect. -/
def DedupComplete (state : RunState Store) : Prop :=
  ∀ now, state.clock ≤ now → ∀ slot, slot < state.node.router.dedupCap →
    (state.node.router.dedupTable slot).occupied = true →
    now - (state.node.router.dedupTable slot).seenAt ≤ state.node.router.config.dedupMaxAge →
    dedupContains state.node.router.dedupTable state.node.router.dedupCap
        (state.node.router.dedupTable slot).uuid = true ∧
      ∀ env data msg, bcMessageDeserialize env.alloc ⟨data, env.beyond⟩ = some msg →
        msg.uuid = (state.node.router.dedupTable slot).uuid →
        bcRouterReceive state.node env data = ⟨.duplicate, state.node, []⟩

theorem NodeIntact.complete {state : RunState Store}
    (intact : NodeIntact state.node state.clock) : DedupComplete state := by
  intro now order slot bound taken age
  have fresh : ¬ expired state.node.router.config.dedupMaxAge now
      (state.node.router.dedupTable slot) := UInt64.not_lt.mpr age
  have found := (intact.2.later order).contains bound taken fresh
  refine ⟨found, ?_⟩
  intro env data msg parsed same
  rw [← same] at found
  exact receive_seen state.node env parsed found

/-- Deduplication is complete in every run whose evictions leave the probe
walks of fresh entries alone. -/
theorem dedup_complete_of_spared {state : RunState Store}
    (reached : Reachable (guarded (routerSystem Store) SparesFreshEntries) state) :
    DedupComplete state := by
  have intact : NodeIntact state.node state.clock := by
    apply Reachable.invariant (fun s => NodeIntact s.node s.clock) _ _ reached
    · exact fun s created => node_intact_created created
    · exact fun s call after inv step => node_intact_call inv step.2 step.1
  exact intact.complete

theorem reachable_call {guard : RunState Store → RouterCall → Prop} {state : RunState Store}
    (call : RouterCall) (clock : UInt64)
    (reached : Reachable (guarded (routerSystem Store) guard) state)
    (within : call.Within state.clock clock) (admitted : guard state call) :
    Reachable (guarded (routerSystem Store) guard) ⟨call.run state.node, clock⟩ :=
  .next call reached ⟨⟨rfl, within⟩, admitted⟩

end Runs

def twoSlotNode : Node Unit where
  router :=
    { transport := none
      storage := none
      config := { fanout := 3, dedupCap := 2, dedupMaxAge := 600 }
      localPubkey := List.Vector.replicate 32 1
      dedupTable := emptyTable
      dedupCap := 2
      peers := []
      onMessage := false
      lastSfTick := 0 }
  store := ()

theorem two_slot_node_initial : (routerSystem Unit).initial ⟨twoSlotNode, 0⟩ :=
  ⟨allocates, none, none, _, some ⟨3, 2, 600⟩, rfl, by decide⟩

def fourSlotNode : Node Unit :=
  { twoSlotNode with
    router := { twoSlotNode.router with config := ⟨3, 4, 600⟩, dedupCap := 4 } }

theorem four_slot_node_initial : (routerSystem Unit).initial ⟨fourSlotNode, 0⟩ :=
  ⟨allocates, none, none, _, some ⟨3, 4, 600⟩, rfl, by decide⟩

/-- An entry of time 0 alone in slot 0, and two of time 500 on one probe walk
from slot 1 to slot 2. -/
def filledNode : Node Unit :=
  (RouterCall.broadcast (quietEnv 500) (probeMessage 4)).run
    ((RouterCall.broadcast (quietEnv 500) (probeMessage 0)).run
      ((RouterCall.broadcast (quietEnv 0) (probeMessage 3)).run fourSlotNode))

def sparedNode : Node Unit := (RouterCall.tick (quietTick 700)).run filledNode

/-- The tick at 700 seconds clears the expired slot 0 and leaves the walk of
the displaced entry in slot 2 alone, so that entry is still found. -/
theorem displaced_entry_found_after_eviction :
    (filledNode.router.dedupTable 0).occupied = true ∧
      (sparedNode.router.dedupTable 0).occupied = false ∧
      dedupHash (probeMessage 4).uuid 4 = 1 ∧
      sparedNode.router.dedupTable 2 = ⟨(probeMessage 4).uuid, 500, true⟩ ∧
      dedupContains sparedNode.router.dedupTable 4 (probeMessage 4).uuid = true := by
  refine ⟨by decide, by decide, by decide, by decide, ?_⟩
  have spared : EvictionSpares filledNode.router.dedupCap filledNode.router.config.dedupMaxAge 700
      filledNode.router.dedupTable := by decide
  have created : Reachable (guarded (routerSystem Unit) SparesFreshEntries) ⟨fourSlotNode, 0⟩ :=
    .start four_slot_node_initial
  have first := reachable_call (.broadcast (quietEnv 0) (probeMessage 3)) 0 created
    ⟨by decide, by decide, by decide⟩ trivial
  have second := reachable_call (.broadcast (quietEnv 500) (probeMessage 0)) 500 first
    ⟨by decide, by decide, by decide⟩ trivial
  have third := reachable_call (.broadcast (quietEnv 500) (probeMessage 4)) 500 second
    ⟨by decide, by decide, by decide⟩ trivial
  have reached := reachable_call (.tick (quietTick 700)) 700 third
    ⟨by decide, UInt64.le_refl _, by decide, by decide, by decide⟩ spared
  have complete : DedupComplete (⟨sparedNode, 700⟩ : RunState Unit) :=
    dedup_complete_of_spared reached
  exact (complete 700 (by decide) 2 (by decide) (by decide) (by decide)).1

def collidedNode : Node Unit :=
  (RouterCall.broadcast (quietEnv 500) (probeMessage 2)).run
    ((RouterCall.broadcast (quietEnv 0) (probeMessage 0)).run twoSlotNode)

def evictedNode : Node Unit := (RouterCall.tick (quietTick 700)).run collidedNode

theorem evicted_node_reachable : Reachable (routerSystem Unit) ⟨evictedNode, 700⟩ := by
  have first : Reachable (routerSystem Unit)
      ⟨(RouterCall.broadcast (quietEnv 0) (probeMessage 0)).run twoSlotNode, 0⟩ :=
    .next (.broadcast (quietEnv 0) (probeMessage 0)) (.start two_slot_node_initial)
      ⟨rfl, by decide, by decide, by decide⟩
  have second : Reachable (routerSystem Unit) ⟨collidedNode, 500⟩ :=
    .next (.broadcast (quietEnv 500) (probeMessage 2)) first
      ⟨rfl, by decide, by decide, by decide⟩
  exact .next (.tick (quietTick 700)) second
    ⟨rfl, by decide, UInt64.le_refl _, by decide, by decide, by decide⟩

/-- Two colliding entries 500 seconds apart: the eviction of the first hides
the second, which is only 200 seconds old. -/
theorem eviction_hides_fresh_entry :
    ∃ state : RunState Unit, Reachable (routerSystem Unit) state ∧ ¬ DedupComplete state := by
  refine ⟨⟨evictedNode, 700⟩, evicted_node_reachable, ?_⟩
  intro complete
  have hidden : dedupContains evictedNode.router.dedupTable evictedNode.router.dedupCap
      (evictedNode.router.dedupTable 0).uuid = false := by decide
  have found := (complete 700 (by decide) 0 (by decide) (by decide) (by decide)).1
  exact absurd (hidden.symm.trans found) (by decide)

section Copies

variable {Store : Type}

def receiveAll : Node Store → List (CallEnv × List UInt8) → Node Store × List Event
  | node, [] => (node, [])
  | node, (env, data) :: rest =>
      let outcome := bcRouterReceive node env data
      let later := receiveAll outcome.node rest
      (later.1, outcome.events ++ later.2)

def deliveries (events : List Event) : Nat :=
  events.countP fun event => match event with
    | .deliver _ => true
    | _ => false

structure Copy where
  ttl : UInt8
  env : CallEnv

def Copy.datagram (msg : BcMessage) (trailing : List UInt8) (copy : Copy) :
    CallEnv × List UInt8 :=
  (copy.env, wireBytes { msg with ttl := copy.ttl } ++ trailing)

variable {node : Node Store} {msg : BcMessage} {now : UInt64}

theorem receive_copy_seen (trailing : List UInt8) (copy : Copy)
    (size : msg.payload.length < 2 ^ 32) (allocated : copy.env.alloc = allocates)
    (seen : dedupContains node.router.dedupTable node.router.dedupCap msg.uuid = true) :
    bcRouterReceive node (copy.datagram msg trailing).1 (copy.datagram msg trailing).2 =
      ⟨.duplicate, node, []⟩ := by
  have parsed := deserialize_wire copy.env.alloc { msg with ttl := copy.ttl } trailing
    copy.env.beyond size (by rw [allocated]; rfl) (by rw [allocated]; rfl)
  exact receive_seen node copy.env parsed seen

theorem receive_copy_unseen (trailing : List UInt8) (copy : Copy)
    (size : msg.payload.length < 2 ^ 32) (allocated : copy.env.alloc = allocates)
    (unseen : dedupContains node.router.dedupTable node.router.dedupCap msg.uuid = false) :
    bcRouterReceive node (copy.datagram msg trailing).1 (copy.datagram msg trailing).2 =
      receiveNew node copy.env { msg with ttl := copy.ttl } := by
  have parsed := deserialize_wire copy.env.alloc { msg with ttl := copy.ttl } trailing
    copy.env.beyond size (by rw [allocated]; rfl) (by rw [allocated]; rfl)
  exact receive_unseen node copy.env parsed unseen

theorem receive_all_seen (trailing : List UInt8) (size : msg.payload.length < 2 ^ 32)
    (copies : List Copy) (allocated : ∀ copy ∈ copies, copy.env.alloc = allocates)
    (seen : dedupContains node.router.dedupTable node.router.dedupCap msg.uuid = true) :
    receiveAll node (copies.map (Copy.datagram msg trailing)) = (node, []) := by
  induction copies with
  | nil => rfl
  | cons copy rest ih =>
      have here := receive_copy_seen trailing copy size (allocated copy List.mem_cons_self) seen
      have later := ih fun other inRest => allocated other (List.mem_cons_of_mem _ inRest)
      rw [List.map_cons, receiveAll, here]
      simp only [later, List.append_nil]

/-- Only the first copy to arrive decides: it marks the uuid before its TTL
is looked at. -/
theorem deliveries_of_first (trailing : List UInt8) (size : msg.payload.length < 2 ^ 32)
    (mine : msg.receiverPubkey = node.router.localPubkey) (registered : node.router.onMessage = true)
    (cap : 0 < node.router.dedupCap)
    (unseen : dedupContains node.router.dedupTable node.router.dedupCap msg.uuid = false)
    (first : Copy) (rest : List Copy)
    (allocated : ∀ copy ∈ first :: rest, copy.env.alloc = allocates) :
    deliveries (receiveAll node ((first :: rest).map (Copy.datagram msg trailing))).2 =
      if first.ttl = 0 then 0 else 1 := by
  have here := receive_copy_unseen trailing first size (allocated first List.mem_cons_self) unseen
  have marked := receive_new_router node first.env { msg with ttl := first.ttl }
  have seen : dedupContains
      (receiveNew node first.env { msg with ttl := first.ttl }).node.router.dedupTable
      (receiveNew node first.env { msg with ttl := first.ttl }).node.router.dedupCap
      msg.uuid = true := by
    rw [marked]
    exact contains_after_insert _ _ _ _ _ cap
  have later := receive_all_seen trailing size rest
    (fun other inRest => allocated other (List.mem_cons_of_mem _ inRest)) seen
  rw [List.map_cons, receiveAll, here]
  simp only [later, List.append_nil]
  rcases receive_new_cases node first.env { msg with ttl := first.ttl } with
    ⟨dead, same⟩ | ⟨alive, -, same⟩ | ⟨-, other, -⟩
  · rw [same, if_pos dead]
    rfl
  · rw [same, if_neg alive, registered]
    rfl
  · exact absurd mine other

/-- In every order of arrival the callback fires once if some copy can still
be delivered, and never otherwise. -/
def OrderIndependent (node : Node Store) (msg : BcMessage) (trailing : List UInt8)
    (copies : List Copy) : Prop :=
  ∀ order : List Copy, order.Perm copies →
    deliveries (receiveAll node (order.map (Copy.datagram msg trailing))).2 =
      if ∃ copy ∈ copies, 1 ≤ copy.ttl.toNat then 1 else 0

theorem live_iff (copy : Copy) : 1 ≤ copy.ttl.toNat ↔ copy.ttl ≠ 0 := by
  rw [Nat.one_le_iff_ne_zero, ne_eq, ne_eq, ← UInt8.toNat_inj]
  rfl

/-- Delivery is independent of the arrival order exactly when the copies do
not mix exhausted and live TTLs: an exhausted copy that comes first makes
the node drop all later ones as duplicates. The clock readings of the
receptions do not matter. -/
theorem order_independent_iff (node : Node Store) (msg : BcMessage) (trailing : List UInt8)
    (copies : List Copy)
    (unseen : dedupContains node.router.dedupTable node.router.dedupCap msg.uuid = false)
    (free : ∃ slot, slot < node.router.dedupCap ∧
      (node.router.dedupTable slot).occupied = false)
    (mine : msg.receiverPubkey = node.router.localPubkey)
    (registered : node.router.onMessage = true)
    (size : msg.payload.length < 2 ^ 32)
    (allocated : ∀ copy ∈ copies, copy.env.alloc = allocates) :
    OrderIndependent node msg trailing copies ↔
      (∀ copy ∈ copies, 1 ≤ copy.ttl.toNat) ∨ (∀ copy ∈ copies, copy.ttl = 0) := by
  have cap : 0 < node.router.dedupCap := by
    obtain ⟨slot, bound, -⟩ := free
    omega
  constructor
  · intro independent
    by_contra mixed
    push Not at mixed
    obtain ⟨⟨dead, deadIn, exhausted⟩, ⟨alive, aliveIn, live⟩⟩ := mixed
    have deadTtl : dead.ttl = 0 := by
      by_contra nonzero
      have := (live_iff dead).mpr nonzero
      omega
    obtain ⟨before, after, split⟩ := List.append_of_mem deadIn
    have perm : (dead :: (before ++ after)).Perm copies := by
      rw [split]
      exact List.perm_middle.symm
    have outcome := independent _ perm
    rw [if_pos ⟨alive, aliveIn, (live_iff alive).mpr live⟩,
      deliveries_of_first trailing size mine registered cap unseen dead _
        (fun copy member => allocated copy (perm.subset member)), if_pos deadTtl] at outcome
    omega
  · intro unmixed order perm
    cases order with
    | nil =>
        rw [← perm.nil_eq]
        rfl
    | cons first rest =>
        have firstIn : first ∈ copies := perm.subset List.mem_cons_self
        rw [deliveries_of_first trailing size mine registered cap unseen first rest
          (fun copy member => allocated copy (perm.subset member))]
        rcases unmixed with live | dead
        · rw [if_neg ((live_iff first).mp (live first firstIn)),
            if_pos ⟨first, firstIn, live first firstIn⟩]
        · rw [if_pos (dead first firstIn), if_neg]
          rintro ⟨copy, member, alive⟩
          exact (live_iff copy).mp alive (dead copy member)

end Copies

def listeningNode : Node Unit :=
  { twoSlotNode with
    router := { twoSlotNode.router with
      onMessage := true
      localPubkey := List.Vector.replicate 32 2 } }

theorem live_copies_order_independent :
    OrderIndependent listeningNode (probeMessage 0) []
        [⟨1, quietEnv 0⟩, ⟨7, quietEnv 0⟩] ↔
      (∀ copy ∈ [(⟨1, quietEnv 0⟩ : Copy), ⟨7, quietEnv 0⟩], 1 ≤ copy.ttl.toNat) ∨
        (∀ copy ∈ [(⟨1, quietEnv 0⟩ : Copy), ⟨7, quietEnv 0⟩], copy.ttl = 0) := by
  apply order_independent_iff
  · decide
  · exact ⟨0, by decide, by decide⟩
  · rfl
  · rfl
  · decide
  · intro copy member
    rcases List.mem_cons.mp member with rfl | later
    · rfl
    · rw [List.mem_singleton.mp later]
      rfl

/-- The exhausted copy first: the live one is dropped. -/
theorem exhausted_copy_blocks_delivery :
    ¬ OrderIndependent listeningNode (probeMessage 0) [] [⟨0, quietEnv 0⟩, ⟨7, quietEnv 0⟩] := by
  intro independent
  have outcome := independent _ (List.Perm.refl _)
  have none : deliveries (receiveAll listeningNode
      ([(⟨0, quietEnv 0⟩ : Copy), ⟨7, quietEnv 0⟩].map
        (Copy.datagram (probeMessage 0) []))).2 = 0 := by
    decide
  rw [none, if_pos ⟨⟨7, quietEnv 0⟩, by simp, by decide⟩] at outcome
  cases outcome

end BitChat.RouterRuns
