import BitChat.MeshNetwork

/-!
# Deliveries per uuid

The deduplication entry of a delivered message lives for `dedup_max_age`,
while copies of the message are rebroadcast from storage for 72 hours. A node
therefore delivers a uuid at most once only while it still remembers it: as
long as no copy comes in later than the entry lives, and neither the
insertion into a full table nor the eviction of a neighbouring entry makes
the node forget it before.
-/

namespace BitChat.AtMostOnce

open BitChat.WireMessage BitChat.DedupTable BitChat.PendingStorage BitChat.MeshRouter
open BitChat.MeshNetwork TransitionSystem

set_option autoImplicit false

section Runs

variable {Place : Type}

def DeliveredOnce (state : MeshState Place) : Prop :=
  (state.delivered.map fun delivery => (delivery.place, delivery.msg.uuid)).Nodup

def ClockInOrder (state : MeshState Place) (label : Place × MeshCall Place) : Prop :=
  (state.clock label.1 :: label.2.readings).IsChain (· ≤ ·)

instance (state : MeshState Place) (label : Place × MeshCall Place) :
    Decidable (ClockInOrder state label) :=
  inferInstanceAs (Decidable ((state.clock label.1 :: label.2.readings).IsChain (· ≤ ·)))

def Fresh (state : MeshState Place) (place : Place) (now : UInt64) (delivery : Delivery Place) :
    Prop :=
  delivery.place = place ∧
    ¬ expired (state.node place).router.config.dedupMaxAge now
      ⟨delivery.msg.uuid, delivery.time, true⟩

def InsertSpares (state : MeshState Place) (place : Place) (now : UInt64) (uuid : Uuid) : Prop :=
  ∀ delivery ∈ state.delivered, Fresh state place now delivery →
    ¬ Overwrites (state.node place).router.dedupCap (state.node place).router.config.dedupMaxAge
      now (state.node place).router.dedupTable uuid delivery.msg.uuid

/-- The condition on a call: a datagram does not bring in a uuid whose
delivery here has outlived its entry, an insertion does not overwrite the
fresh entry of a delivery, and an eviction does not clear a slot on the probe
walk to one. -/
def KeepsDeliveries (state : MeshState Place) : Place × MeshCall Place → Prop
  | (place, .receive _ env data) => ∀ parsed,
      bcMessageDeserialize env.alloc ⟨data, env.beyond⟩ = some parsed →
      (∀ delivery ∈ state.delivered, delivery.place = place →
        delivery.msg.uuid = parsed.uuid → Fresh state place env.now delivery) ∧
      (dedupContains (state.node place).router.dedupTable (state.node place).router.dedupCap
          parsed.uuid = false →
        InsertSpares state place env.now parsed.uuid)
  | (place, .broadcast env msg) => InsertSpares state place env.now msg.uuid
  | (place, .evict now) => ∀ delivery ∈ state.delivered, Fresh state place now delivery →
      ∀ slot, slot < (state.node place).router.dedupCap →
        (state.node place).router.dedupTable slot =
          ⟨delivery.msg.uuid, delivery.time, true⟩ →
        WalkSpared (state.node place).router.dedupCap
          (state.node place).router.config.dedupMaxAge now
          (state.node place).router.dedupTable slot
  | _ => True

structure Remembered (state : MeshState Place) : Prop where
  once : DeliveredOnce state
  storage : ∀ place, (state.node place).router.storage = some sqliteStorage
  positive : ∀ place, 0 < (state.node place).router.dedupCap
  past : ∀ delivery ∈ state.delivered, delivery.time ≤ state.clock delivery.place
  held : ∀ delivery ∈ state.delivered,
    Fresh state delivery.place (state.clock delivery.place) delivery →
    Remembers (state.node delivery.place).router.dedupCap
      (state.node delivery.place).router.dedupTable delivery.msg.uuid delivery.time

theorem chain_le_last (first : UInt64) (rest : List UInt64)
    (chain : (first :: rest).IsChain (· ≤ ·)) : first ≤ rest.getLastD first := by
  induction rest generalizing first with
  | nil => exact UInt64.le_refl first
  | cons second later ih =>
      rw [List.isChain_cons_cons] at chain
      rw [List.getLastD_cons]
      exact UInt64.le_trans chain.1 (ih second chain.2)

theorem chain_head_le_last (clock : UInt64) (readings : List UInt64)
    (chain : (clock :: readings).IsChain (· ≤ ·)) :
    readings.headD clock ≤ readings.getLastD clock := by
  cases readings with
  | nil => exact UInt64.le_refl clock
  | cons first rest =>
      rw [List.getLastD_cons]
      exact chain_le_last first rest (List.isChain_cons_cons.mp chain).2

theorem Fresh.earlier {state : MeshState Place} {place : Place} {now later : UInt64}
    {delivery : Delivery Place} (past : delivery.time ≤ now) (order : now ≤ later)
    (fresh : Fresh state place later delivery) : Fresh state place now delivery :=
  ⟨fresh.1, fun old => fresh.2 (expired_later past order old)⟩

theorem held_after_call {state : MeshState Place} {place : Place} {call : MeshCall Place}
    {delivery : Delivery Place} (inv : Remembered state)
    (inOrder : ClockInOrder state (place, call)) (keeps : KeepsDeliveries state (place, call))
    (member : delivery ∈ state.delivered)
    (fresh : Fresh state place (call.readings.getLastD (state.clock place)) delivery) :
    Remembers (state.node place).router.dedupCap
      (call.run (state.node place)).1.router.dedupTable delivery.msg.uuid delivery.time := by
  have past : delivery.time ≤ state.clock place := by
    rw [← fresh.1]
    exact inv.past delivery member
  have freshAt : ∀ now, state.clock place ≤ now →
      now ≤ call.readings.getLastD (state.clock place) → Fresh state place now delivery :=
    fun now lower upper => fresh.earlier (UInt64.le_trans past lower) upper
  have before : Remembers (state.node place).router.dedupCap
      (state.node place).router.dedupTable delivery.msg.uuid delivery.time := by
    have now := freshAt (state.clock place) (UInt64.le_refl _) (chain_le_last _ _ inOrder)
    obtain ⟨here, -⟩ := fresh
    subst here
    exact inv.held delivery member now
  rcases run_table (state.node place) call with
    same | ⟨now, isCall, table⟩ | ⟨env, msg, isCall, table⟩ |
      ⟨sender, env, data, msg, isCall, parsed, unseen, table⟩
  · rw [same]
    exact before
  · rw [table]
    subst isCall
    have freshNow := freshAt now (List.isChain_cons_cons.mp inOrder).1 (UInt64.le_refl _)
    exact before.evict freshNow.2 (keeps delivery member freshNow)
  · rw [table]
    subst isCall
    obtain ⟨lower, rest⟩ := List.isChain_cons_cons.mp inOrder
    have freshNow := freshAt env.now lower (List.isChain_cons_cons.mp rest).1
    exact before.insert msg.uuid freshNow.2 (keeps delivery member freshNow)
  · rw [table]
    subst isCall
    obtain ⟨lower, rest⟩ := List.isChain_cons_cons.mp inOrder
    have freshNow := freshAt env.now lower (List.isChain_cons_cons.mp rest).1
    exact before.insert msg.uuid freshNow.2 ((keeps msg parsed).2 unseen delivery member freshNow)

theorem delivery_is_new {state : MeshState Place} {place : Place} {call : MeshCall Place}
    {msg : BcMessage} (inv : Remembered state)
    (inOrder : ClockInOrder state (place, call)) (keeps : KeepsDeliveries state (place, call))
    (event : Event.deliver msg ∈ (call.run (state.node place)).2) :
    (call.run (state.node place)).2 = [.deliver msg] ∧
      (∀ delivery ∈ state.delivered, (delivery.place, delivery.msg.uuid) ≠ (place, msg.uuid)) ∧
      Remembers (state.node place).router.dedupCap
        (call.run (state.node place)).1.router.dedupTable msg.uuid
        (call.readings.headD (state.clock place)) := by
  obtain ⟨-, sender, env, data, parsed, isCall, accepted, unseen, events, sameUuid, marked⟩ :=
    run_delivers (.inr (inv.storage place)) event
  refine ⟨events, ?_, ?_⟩
  · intro delivery member same
    obtain ⟨here, uuid⟩ := Prod.mk.inj same
    subst isCall
    obtain ⟨lower, -⟩ := List.isChain_cons_cons.mp inOrder
    have freshNow := (keeps parsed accepted).1 delivery member here (uuid.trans sameUuid)
    subst here
    have past := inv.past delivery member
    have remembers := inv.held delivery member (freshNow.earlier past lower)
    rw [uuid, sameUuid] at remembers
    rw [remembers.contains] at unseen
    cases unseen
  · rw [marked, isCall, sameUuid]
    exact remembers_after_insert _ _ _ _ _ (inv.positive place)

variable [DecidableEq Place]

theorem new_deliveries {state : MeshState Place} {place : Place} {call : MeshCall Place}
    (inv : Remembered state) (inOrder : ClockInOrder state (place, call))
    (keeps : KeepsDeliveries state (place, call)) :
    (state.after place call).delivered = state.delivered ∨
    ∃ msg, Event.deliver msg ∈ (call.run (state.node place)).2 ∧
      (state.after place call).delivered = state.delivered ++
        [⟨place, msg, call.readings.headD (state.clock place)⟩] := by
  by_cases silent : ∀ msg, Event.deliver msg ∉ (call.run (state.node place)).2
  · apply Or.inl
    have none : deliveries place (call.readings.headD (state.clock place))
        (call.run (state.node place)).2 = [] := by
      apply List.eq_nil_iff_forall_not_mem.mpr
      intro delivery member
      exact silent delivery.msg (mem_deliveries member).2.2
    simp only [MeshState.after, none, List.append_nil]
  · push Not at silent
    obtain ⟨msg, event⟩ := silent
    refine .inr ⟨msg, event, ?_⟩
    obtain ⟨events, -⟩ := delivery_is_new inv inOrder keeps event
    simp only [MeshState.after, events]
    rfl

theorem past_after {state : MeshState Place} {place : Place} {call : MeshCall Place}
    {delivery : Delivery Place} (inOrder : ClockInOrder state (place, call))
    (past : delivery.time ≤ state.clock delivery.place) :
    delivery.time ≤ (state.after place call).clock delivery.place := by
  by_cases here : delivery.place = place
  · subst here
    rw [after_clock_here]
    exact UInt64.le_trans past (chain_le_last _ _ inOrder)
  · rw [after_clock_elsewhere state place call here]
    exact past

theorem held_after {state : MeshState Place} {place : Place} {call : MeshCall Place}
    {delivery : Delivery Place} (inv : Remembered state)
    (inOrder : ClockInOrder state (place, call)) (keeps : KeepsDeliveries state (place, call))
    (member : delivery ∈ state.delivered)
    (fresh : Fresh (state.after place call) delivery.place
      ((state.after place call).clock delivery.place) delivery) :
    Remembers ((state.after place call).node delivery.place).router.dedupCap
      ((state.after place call).node delivery.place).router.dedupTable
      delivery.msg.uuid delivery.time := by
  have setup := after_setup state place call delivery.place
  unfold Fresh at fresh
  rw [setup.config] at fresh
  rw [setup.dedupCap]
  by_cases here : delivery.place = place
  · subst here
    rw [after_clock_here] at fresh
    rw [after_node_here]
    exact held_after_call inv inOrder keeps member fresh
  · rw [after_clock_elsewhere state place call here] at fresh
    rw [after_node_elsewhere state place call here]
    exact inv.held delivery member fresh

theorem remembered_after {state : MeshState Place} {place : Place} {call : MeshCall Place}
    (inv : Remembered state) (inOrder : ClockInOrder state (place, call))
    (keeps : KeepsDeliveries state (place, call)) : Remembered (state.after place call) := by
  have setup := after_setup state place call
  have storage : ∀ other, ((state.after place call).node other).router.storage =
      some sqliteStorage := fun other => (setup other).storage.trans (inv.storage other)
  have positive : ∀ other, 0 < ((state.after place call).node other).router.dedupCap := by
    intro other
    rw [(setup other).dedupCap]
    exact inv.positive other
  rcases new_deliveries inv inOrder keeps with unchanged | ⟨msg, event, extended⟩
  · refine ⟨?_, storage, positive, ?_, ?_⟩
    · rw [DeliveredOnce, unchanged]
      exact inv.once
    · rw [unchanged]
      exact fun delivery member => past_after inOrder (inv.past delivery member)
    · rw [unchanged]
      exact fun delivery member => held_after inv inOrder keeps member
  · obtain ⟨-, unheard, marked⟩ := delivery_is_new inv inOrder keeps event
    refine ⟨?_, storage, positive, ?_, ?_⟩
    · rw [DeliveredOnce, extended, List.map_append, List.map_singleton, List.nodup_append_comm]
      apply List.nodup_cons.mpr
      refine ⟨?_, inv.once⟩
      intro member
      obtain ⟨delivery, inDelivered, same⟩ := List.mem_map.mp member
      exact unheard delivery inDelivered same
    · rw [extended]
      intro delivery member
      rcases List.mem_append.mp member with before | new
      · exact past_after inOrder (inv.past delivery before)
      · rw [List.mem_singleton.mp new, after_clock_here]
        exact chain_head_le_last _ _ inOrder
    · rw [extended]
      intro delivery member fresh
      rcases List.mem_append.mp member with before | new
      · exact held_after inv inOrder keeps before fresh
      · rw [List.mem_singleton.mp new, (setup place).dedupCap, after_node_here]
        exact marked

theorem remembered_initially {configs : Place → Option BcRouterConfig} {state : MeshState Place}
    (caps : ∀ place, 0 < ((configs place).getD bcDefaultConfig).dedupCap)
    (created : (meshSystem configs).initial state) : Remembered state := by
  obtain ⟨nodes, -, -, -, delivered⟩ := created
  have made : ∀ place, (state.node place).router.storage = some sqliteStorage ∧
      0 < (state.node place).router.dedupCap := by
    intro place
    obtain ⟨-, alloc, transport, localPubkey, router⟩ := nodes place
    rw [created_eq router]
    exact ⟨rfl, caps place⟩
  refine ⟨?_, fun place => (made place).1, fun place => (made place).2, ?_, ?_⟩
  · rw [DeliveredOnce, delivered]
    exact List.nodup_nil
  · simp [delivered]
  · simp [delivered]

/-- In every network with the default configuration, at clock readings that
never step back at a node, no node delivers a uuid twice as long as every
call meets the condition. -/
theorem delivered_once_while_remembered {state : MeshState Place}
    (reached : Reachable (guarded (meshSystem fun _ => none)
      fun current label => ClockInOrder current label ∧ KeepsDeliveries current label) state) :
    DeliveredOnce state := by
  have inv : Remembered state := by
    apply Reachable.invariant Remembered _ _ reached
    · exact fun _ created => remembered_initially (fun _ => by decide) created
    · rintro before ⟨place, call⟩ after inv ⟨⟨-, result⟩, inOrder, keeps⟩
      rw [result]
      exact remembered_after inv inOrder keeps
  exact inv.once

end Runs

def AtHome (cap : Nat) (table : Table) : Prop :=
  ∀ slot, (table slot).occupied = true → dedupHash (table slot).uuid cap = slot

theorem AtHome.insert {cap : Nat} {table : Table} (maxAge now : UInt64) (uuid : Uuid)
    (atHome : AtHome cap table) (positive : 0 < cap)
    (vacant : (table (dedupHash uuid cap % cap)).occupied = false) :
    AtHome cap (dedupInsert table cap maxAge now uuid) := by
  obtain ⟨k, -, written, before, -⟩ := dedup_insert_spec table cap maxAge now uuid positive
  have home : k = 0 := by
    by_contra later
    have taken := (before 0 (Nat.pos_of_ne_zero later)).1
    rw [Nat.add_zero, vacant] at taken
    cases taken
  intro slot
  rw [written, home, Nat.add_zero]
  by_cases here : slot = dedupHash uuid cap % cap
  · rw [here, Function.update_self]
    intro _
    exact (Nat.mod_eq_of_lt (Nat.mod_lt _ positive)).symm
  · rw [Function.update_of_ne here]
    exact atHome slot

theorem AtHome.spared {cap slot : Nat} {table : Table} (maxAge now : UInt64)
    (atHome : AtHome cap table) (taken : (table slot).occupied = true) :
    WalkSpared cap maxAge now table slot := by
  intro k bound lands i earlier
  rw [atHome slot taken] at lands
  have slotBound : slot < cap := by
    rw [← lands]
    exact Nat.mod_lt _ (Nat.zero_lt_of_lt bound)
  rcases Nat.lt_or_ge (slot + k) cap with within | past
  · rw [Nat.mod_eq_of_lt within] at lands
    omega
  · rw [Nat.mod_eq_sub_mod past, Nat.mod_eq_of_lt (by omega)] at lands
    omega

theorem insert_spares_of_vacant {Place : Type} {state : MeshState Place} {place : Place}
    (now : UInt64) (uuid : Uuid) (slot : Nat) (bound : slot < (state.node place).router.dedupCap)
    (vacant : ((state.node place).router.dedupTable slot).occupied = false) :
    InsertSpares state place now uuid := by
  intro delivery _ _ overwrites
  have taken := (overwrites.1 slot bound).1
  rw [vacant] at taken
  cases taken

def listeningMesh : MeshState Bool :=
  (pairMesh.after true (.setOnMessage true)).after false (.addPeer 0 receiverPeer)

/-- The sender broadcasts at 300 seconds, the receiver has marked a message of
its own at 0. -/
def preparedMesh : MeshState Bool :=
  (listeningMesh.after true (.broadcast (quietEnv 0) (probeMessage 1))).after false
    (.broadcast (quietEnv 300) (probeMessage 0))

def busyMesh : MeshState Bool :=
  (preparedMesh.after true (.receive false (quietEnv 300) (wireBytes (probeMessage 0)))).after true
    (.broadcast (quietEnv 350) (probeMessage 2))

def rememberedMesh : MeshState Bool :=
  (busyMesh.after false (.rebroadcast (quietTick 700))).after true (.evict 700)

/-- What the rebroadcast sends: the stored row has the time of storing. -/
def secondCopy : List UInt8 := wireBytes { probeMessage 0 with timestamp := 300 }

theorem remembered_mesh_delivered :
    rememberedMesh.delivered = [⟨true, { probeMessage 0 with ttl := 9 }, 300⟩] := rfl

theorem remembered_mesh_sent :
    rememberedMesh.sent = [⟨false, wireBytes (probeMessage 0)⟩, ⟨false, secondCopy⟩] := by
  decide

theorem busy_mesh_at_home : AtHome 10000 (busyMesh.node true).router.dedupTable := by
  have empty : AtHome 10000 emptyTable := by
    intro slot taken
    cases taken
  have first := empty.insert 600 0 (probeMessage 1).uuid (by decide) rfl
  have second := first.insert 600 300 (probeMessage 0).uuid (by decide) (by decide)
  exact second.insert 600 350 (probeMessage 2).uuid (by decide) (by decide)

theorem remembered_mesh_reachable :
    Reachable (guarded (meshSystem fun _ => none)
      fun current label => ClockInOrder current label ∧ KeepsDeliveries current label)
      rememberedMesh := by
  have start : Reachable (guarded (meshSystem fun _ => none)
      fun current label => ClockInOrder current label ∧ KeepsDeliveries current label)
      pairMesh := .start pair_mesh_initial
  have listening := reachable_after true (.setOnMessage true) start trivial ⟨by decide, trivial⟩
  have met := reachable_after false (.addPeer 0 receiverPeer) listening trivial
    ⟨by decide, trivial⟩
  have marked := reachable_after true (.broadcast (quietEnv 0) (probeMessage 1)) met trivial
    ⟨by decide, insert_spares_of_vacant _ _ 0 (by decide) (by decide)⟩
  have prepared := reachable_after false (.broadcast (quietEnv 300) (probeMessage 0)) marked trivial
    ⟨by decide, insert_spares_of_vacant _ _ 0 (by decide) (by decide)⟩
  have delivered := reachable_after true
    (.receive false (quietEnv 300) (wireBytes (probeMessage 0))) prepared
    ⟨⟨false, wireBytes (probeMessage 0)⟩, List.mem_singleton_self _, rfl, .inl rfl⟩ (by
      refine ⟨by decide, ?_⟩
      intro parsed _
      constructor
      · intro delivery member
        cases member
      · exact fun _ => insert_spares_of_vacant _ _ 0 (by decide) (by decide))
  have busy := reachable_after true (.broadcast (quietEnv 350) (probeMessage 2)) delivered trivial
    ⟨by decide, insert_spares_of_vacant _ _ 0 (by decide) (by decide)⟩
  have rebroadcast := reachable_after false (.rebroadcast (quietTick 700)) busy trivial
    ⟨by decide, trivial⟩
  apply reachable_after true (.evict 700) rebroadcast trivial
  refine ⟨by decide, ?_⟩
  intro delivery _ _ slot _ held
  exact busy_mesh_at_home.spared _ _ (congrArg DedupEntry.occupied held)

/-- The eviction at 700 seconds clears the entry of time 0 and spares that of
the delivered message, whose second copy is then dropped. -/
theorem second_copy_dropped :
    rememberedMesh.delivered = [⟨true, { probeMessage 0 with ttl := 9 }, 300⟩] ∧
      ((busyMesh.node true).router.dedupTable 7746).occupied = true ∧
      ((rememberedMesh.node true).router.dedupTable 7746).occupied = false ∧
      (bcRouterReceive (rememberedMesh.node true) (quietEnv 700) secondCopy).rc = .duplicate ∧
      DeliveredOnce (rememberedMesh.after true (.receive false (quietEnv 700) secondCopy)) := by
  refine ⟨remembered_mesh_delivered, by decide, by decide, by decide, ?_⟩
  apply delivered_once_while_remembered
  apply reachable_after true (.receive false (quietEnv 700) secondCopy) remembered_mesh_reachable
  · refine ⟨⟨false, secondCopy⟩, ?_, rfl, .inl rfl⟩
    rw [remembered_mesh_sent]
    exact List.mem_cons_of_mem _ (List.mem_singleton_self _)
  · refine ⟨by decide, ?_⟩
    intro parsed _
    constructor
    · -- The one delivery is 400 seconds old.
      intro delivery member _ _
      rw [remembered_mesh_delivered] at member
      rw [List.mem_singleton.mp member]
      exact ⟨rfl, by decide⟩
    · exact fun _ => insert_spares_of_vacant _ _ 0 (by decide) (by decide)

/-- Readings that never step back anywhere in the network, and broadcasts
with distinct uuids. -/
def OrderedRun {Place : Type} (state : MeshState Place) (label : Place × MeshCall Place) : Prop :=
  (∀ place, (state.clock place :: label.2.readings).IsChain (· ≤ ·)) ∧
    ∀ env msg, label.2 = .broadcast env msg →
      ∀ entry ∈ state.broadcasts, entry.2.uuid ≠ msg.uuid

def forgottenMesh : MeshState Bool :=
  (deliveredMesh.after false (.rebroadcast (quietTick 700))).after true (.evict 700)

def redeliveredMesh : MeshState Bool :=
  forgottenMesh.after true (.receive false (quietEnv 700) (wireBytes (probeMessage 0)))

theorem forgotten_mesh_sent :
    forgottenMesh.sent =
      [⟨false, wireBytes (probeMessage 0)⟩, ⟨false, wireBytes (probeMessage 0)⟩] := by
  decide

theorem redelivered_after_eviction :
    ∃ state : MeshState Bool,
      Reachable (guarded (meshSystem fun _ => none) OrderedRun) state ∧ ¬ DeliveredOnce state := by
  refine ⟨redeliveredMesh, ?_, ?_⟩
  · have delivered : Reachable (guarded (meshSystem fun _ => none) OrderedRun) deliveredMesh := by
      apply delivered_mesh_reachable
      · exact ⟨by decide, by intro env msg wrong; cases wrong⟩
      · exact ⟨by decide, by intro env msg wrong; cases wrong⟩
      · refine ⟨by decide, ?_⟩
        intro env msg _ entry member
        cases member
      · exact ⟨by decide, by intro env msg wrong; cases wrong⟩
    have rebroadcast := reachable_after false (.rebroadcast (quietTick 700)) delivered trivial
      ⟨by decide, by intro env msg wrong; cases wrong⟩
    have evicted := reachable_after true (.evict 700) rebroadcast trivial
      ⟨by decide, by intro env msg wrong; cases wrong⟩
    apply reachable_after true (.receive false (quietEnv 700) (wireBytes (probeMessage 0))) evicted
    · refine ⟨⟨false, wireBytes (probeMessage 0)⟩, ?_, rfl, .inl rfl⟩
      exact forgotten_mesh_sent ▸ List.mem_cons_self
    · exact ⟨by decide, by intro env msg wrong; cases wrong⟩
  · have twice : (redeliveredMesh.delivered.map fun delivery =>
        (delivery.place, delivery.msg.uuid)) =
        [(true, (probeMessage 0).uuid), (true, (probeMessage 0).uuid)] := by
      decide
    rw [DeliveredOnce, twice]
    decide

end BitChat.AtMostOnce
