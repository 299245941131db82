import BitChat.AtMostOnce
import BitChat.FalseDuplicates
import BitChat.Provenance
import BitChat.Library.Flooding

/-!
# A broadcast as a flood

One broadcast in a network of routers, followed over any interleaving with
the other traffic. For as long as no router forgets a uuid, which is the case
within `dedup_max_age` of the start and while there is a vacant slot, the
network refines a flood with a hop budget: a router takes the message up
once, at the first copy that reaches it, and everything it ever sends of it,
at once or out of its store, carries one TTL.
-/

namespace BitChat.FloodRefinement

open BitChat.WireMessage BitChat.DedupTable BitChat.PendingStorage BitChat.MeshRouter
open BitChat.MeshNetwork BitChat.AtMostOnce BitChat.Provenance
open TransitionSystem Flooding

set_option autoImplicit false

structure CallRecord (Place : Type) where
  place : Place
  call : MeshCall Place
  events : List Event

structure LoggedMesh (Place : Type) where
  mesh : MeshState Place
  log : List (CallRecord Place)

section Model

variable {Place : Type} [DecidableEq Place]

def LoggedMesh.after (run : LoggedMesh Place) (place : Place) (call : MeshCall Place) :
    LoggedMesh Place where
  mesh := run.mesh.after place call
  log := run.log ++ [⟨place, call, (call.run (run.mesh.node place)).2⟩]

def loggedSystem (configs : Place → Option BcRouterConfig) (keys : Place → Pubkey) :
    System (LoggedMesh Place) (Place × MeshCall Place) where
  initial run := (meshSystem configs).initial run.mesh ∧
    (∀ place, (run.mesh.node place).router.localPubkey = keys place) ∧ run.log = []
  step run label after := label.2.Allowed run.mesh ∧ after = run.after label.1 label.2

end Model

section Conditions

variable {Place : Type}

/-- The router at `place` has put a message with this uuid into its store. -/
def Holds (run : LoggedMesh Place) (place : Place) (uuid : Uuid) : Prop :=
  ∃ record ∈ run.log, record.place = place ∧
    ∃ msg rc, Event.store msg rc ∈ record.events ∧ msg.uuid = uuid

/-- A datagram of `speaker` with this uuid was received and parsed at
`listener`. -/
def Heard (run : LoggedMesh Place) (listener speaker : Place) (uuid : Uuid) : Prop :=
  ∃ record ∈ run.log, record.place = listener ∧ ∃ env data parsed,
    record.call = .receive speaker env data ∧
    bcMessageDeserialize env.alloc ⟨data, env.beyond⟩ = some parsed ∧ parsed.uuid = uuid

def Quiet (range : Place → Place → Prop) (run : LoggedMesh Place) (uuid : Uuid) : Prop :=
  ∀ speaker listener, Holds run speaker uuid → range speaker listener →
    Heard run listener speaker uuid

/-- The readings of a call lie within `dedup_max_age` of `start`. -/
def InWindow (start : UInt64) (run : LoggedMesh Place) (label : Place × MeshCall Place) : Prop :=
  ∀ reading ∈ label.2.readings, start ≤ reading ∧ reading.toNat ≤
    start.toNat + (run.mesh.node label.1).router.config.dedupMaxAge.toNat

def HasVacantSlot (run : LoggedMesh Place) (place : Place) : Prop :=
  ∃ slot, slot < (run.mesh.node place).router.dedupCap ∧
    ((run.mesh.node place).router.dedupTable slot).occupied = false

/-- The condition on a call: clocks do not step back and stay in the window,
the table is not full, the uuid of `message` is broadcast once, by `origin`
and with memory for its buffer, and addressees listen when they receive. -/
structure Admissible (keys : Place → Pubkey) (origin : Place) (message : BcMessage)
    (start : UInt64) (run : LoggedMesh Place) (label : Place × MeshCall Place) : Prop where
  inOrder : ClockInOrder run.mesh label
  inWindow : InWindow start run label
  vacant : HasVacantSlot run label.1
  once : ∀ env msg, label.2 = .broadcast env msg → msg.uuid = message.uuid →
    label.1 = origin ∧ msg = message ∧ env.alloc 0 = true ∧
      ∀ entry ∈ run.mesh.broadcasts, entry.2.uuid ≠ message.uuid
  listening : ∀ sender env data, label.2 = .receive sender env data →
    keys label.1 = message.receiverPubkey →
    (run.mesh.node label.1).router.onMessage = true

end Conditions

section Memory

variable {cap : Nat} {table : Table} {uuid : Uuid} {start clock maxAge now : UInt64} {known : Prop}

/-- All entries of a table are from the window, and `uuid` is found in it or
occurs nowhere. -/
structure Recalls (cap : Nat) (table : Table) (uuid : Uuid) (start clock : UInt64)
    (known : Prop) : Prop where
  stamped : ∀ slot, slot < cap → (table slot).occupied = true →
    start ≤ (table slot).seenAt ∧ (table slot).seenAt ≤ clock
  found : known → ∃ time, Remembers cap table uuid time
  absent : ¬ known → ∀ slot, slot < cap → (table slot).occupied = true → (table slot).uuid ≠ uuid

theorem Recalls.later {later : UInt64} (recalls : Recalls cap table uuid start clock known)
    (order : clock ≤ later) : Recalls cap table uuid start later known where
  stamped := fun slot bound taken =>
    ⟨(recalls.stamped slot bound taken).1,
      UInt64.le_trans (recalls.stamped slot bound taken).2 order⟩
  found := recalls.found
  absent := recalls.absent

theorem Recalls.contains_iff (recalls : Recalls cap table uuid start clock known)
    (positive : 0 < cap) : dedupContains table cap uuid = true ↔ known := by
  constructor
  · intro contains
    by_contra unknown
    obtain ⟨slot, bound, taken, same⟩ := FalseDuplicates.contains_slot positive contains
    exact recalls.absent unknown slot bound taken same
  · intro isKnown
    obtain ⟨time, remembers⟩ := recalls.found isKnown
    exact remembers.contains

theorem Recalls.fresh (recalls : Recalls cap table uuid start clock known) (order : clock ≤ now)
    (inside : now.toNat ≤ start.toNat + maxAge.toNat) {slot : Nat} (bound : slot < cap)
    (taken : (table slot).occupied = true) : ¬ expired maxAge now (table slot) := by
  obtain ⟨lower, upper⟩ := recalls.stamped slot bound taken
  have startBelow : start.toNat ≤ (table slot).seenAt.toNat := UInt64.le_iff_toNat_le.mp lower
  rw [expired_iff (UInt64.le_trans upper order)]
  omega

theorem Recalls.evict (recalls : Recalls cap table uuid start clock known) (order : clock ≤ now)
    (inside : now.toNat ≤ start.toNat + maxAge.toNat) : dedupEvict table cap maxAge now = table := by
  funext slot
  simp only [dedupEvict]
  split_ifs with cleared
  · exact absurd cleared.2.2 (recalls.fresh order inside cleared.1 cleared.2.1)
  · rfl

theorem Recalls.insert {after : Prop} (other : Uuid)
    (recalls : Recalls cap table uuid start clock known) (order : clock ≤ now)
    (lower : start ≤ now) (inside : now.toNat ≤ start.toNat + maxAge.toNat)
    (vacant : ∃ slot, slot < cap ∧ (table slot).occupied = false)
    (learns : after ↔ known ∨ other = uuid) :
    Recalls cap (dedupInsert table cap maxAge now other) uuid start now after := by
  obtain ⟨free, freeBound, isFree⟩ := vacant
  have positive : 0 < cap := Nat.zero_lt_of_lt freeBound
  constructor
  · intro slot bound taken
    rcases dedup_insert_entry table maxAge now other slot positive with new | same
    · rw [new]
      exact ⟨lower, UInt64.le_refl now⟩
    · rw [same] at taken ⊢
      exact ((recalls.later order).stamped slot bound taken)
  · intro isKnown
    rcases learns.mp isKnown with before | same
    · obtain ⟨time, remembers⟩ := recalls.found before
      obtain ⟨slot, bound, held, -⟩ := id remembers
      have fresh := recalls.fresh order inside bound (by rw [held])
      rw [held] at fresh
      refine ⟨time, remembers.insert other fresh ?_⟩
      intro overwrites
      have taken := (overwrites.1 free freeBound).1
      rw [isFree] at taken
      cases taken
    · exact ⟨now, same ▸ remembers_after_insert table cap maxAge now other positive⟩
  · intro unknown slot bound taken
    have neither := mt learns.mpr unknown
    push Not at neither
    rcases dedup_insert_entry table maxAge now other slot positive with new | same
    · rw [new]
      exact neither.2
    · rw [same] at taken ⊢
      exact recalls.absent neither.1 slot bound taken

end Memory

section Datagrams

theorem parsed_uuid {alloc : Nat → Bool} {copy parsed : BcMessage} {limit : Nat}
    {beyond : Nat → UInt8} (room : bcMessageHeaderSize ≤ limit)
    (accepted : bcMessageDeserialize alloc ⟨(wireBytes copy).take limit, beyond⟩ = some parsed) :
    parsed.uuid = copy.uuid := by
  obtain ⟨-, -, -, -, same⟩ := (deserialize_eq_some_iff _ _ _).mp accepted
  have header : bcMessageHeaderSize = 93 := rfl
  have layout : (wireBytes copy).take limit = [] ++ (copy.uuid.toList ++
      ((wireBytes copy).drop 16).take (limit - 16)) := by
    rw [List.nil_append, ← wire_bytes_take copy, ← List.take_add, Nat.add_sub_cancel' (by omega)]
  have read : Memory.read ⟨(wireBytes copy).take limit, beyond⟩ 0 16 = copy.uuid.toList :=
    Memory.read_field [] _ layout rfl (List.Vector.toList_length copy.uuid)
  rw [← same]
  exact Subtype.ext read

theorem received_prefix {copy : BcMessage} {sent data : List UInt8} (bytes : sent = wireBytes copy)
    (reads : data = sent ∨ data = sent.take 4096) :
    ∃ limit, bcMessageHeaderSize ≤ limit ∧ data = (wireBytes copy).take limit := by
  rcases reads with whole | truncated
  · refine ⟨(wireBytes copy).length, ?_, ?_⟩
    · rw [wire_bytes_length]
      omega
    · rw [whole, bytes, List.take_length]
  · exact ⟨4096, by decide, by rw [truncated, bytes]⟩

end Datagrams

section Refinement

variable {Place : Type} {keys : Place → Pubkey} {origin : Place} {message : BcMessage}
  {start : UInt64}

def Addressee (keys : Place → Pubkey) (message : BcMessage) (place : Place) : Prop :=
  keys place = message.receiverPubkey

instance : DecidablePred (Addressee keys message) :=
  fun place => inferInstanceAs (Decidable (keys place = message.receiverPubkey))

/-- `copy` is the message with the budget that `place` passes on. -/
def Carries (message : BcMessage) (flood : Flood Place) (place : Place) (copy : BcMessage) : Prop :=
  SameContent copy message ∧ flood.passes place = some copy.ttl.toNat

def Delivered (message : BcMessage) (mesh : MeshState Place) (place : Place) : Prop :=
  ∃ delivery ∈ mesh.delivered, delivery.place = place ∧ SameContent delivery.msg message

variable [DecidableEq Place]

def deliveriesOf (mesh : MeshState Place) (place : Place) (uuid : Uuid) : List (Delivery Place) :=
  mesh.delivered.filter fun delivery => decide (delivery.place = place ∧ delivery.msg.uuid = uuid)

structure Tracks (keys : Place → Pubkey) (origin : Place) (message : BcMessage) (start : UInt64)
    (run : LoggedMesh Place) (flood : Flood Place) : Prop where
  storage : ∀ place, (run.mesh.node place).router.storage = some sqliteStorage
  keyed : ∀ place, (run.mesh.node place).router.localPubkey = keys place
  recalls : ∀ place, Recalls (run.mesh.node place).router.dedupCap
    (run.mesh.node place).router.dedupTable message.uuid start (run.mesh.clock place)
    (place ∈ flood.seen)
  sent : ∀ transmission ∈ run.mesh.sent, ∃ copy, transmission.data = wireBytes copy ∧
    (copy.uuid = message.uuid → Carries message flood transmission.sender copy)
  stored : ∀ place, ∀ row ∈ (run.mesh.node place).store.rows,
    row.uuid = message.uuid → Carries message flood place (rowMessage row)
  begun : flood.seen.Nonempty ↔ ∃ entry ∈ run.mesh.broadcasts, entry.2.uuid = message.uuid
  held : ∀ place, (flood.passes place).isSome → Holds run place message.uuid
  heard : ∀ listener speaker, Heard run listener speaker message.uuid →
    flood.heard listener speaker
  delivered : ∀ place ∈ flood.seen, place ≠ origin → Addressee keys message place →
    Delivered message run.mesh place ∨ message.ttl.toNat + 1 < flood.seen.card
  atMostOnce : ∀ place, (deliveriesOf run.mesh place message.uuid).length ≤
    if place ∈ flood.seen then 1 else 0

omit [DecidableEq Place]

structure Advances (place : Place) (flood moved : Flood Place) : Prop where
  seen : flood.seen ⊆ moved.seen
  elsewhere : ∀ other, other ≠ place → other ∈ moved.seen → other ∈ flood.seen
  keeps : ∀ other budget, flood.passes other = some budget → moved.passes other = some budget
  others : ∀ other, other ≠ place → moved.passes other = flood.passes other
  heard : ∀ listener speaker, flood.heard listener speaker → moved.heard listener speaker

theorem Carries.advance {place other : Place} {flood moved : Flood Place} {copy : BcMessage}
    (advances : Advances place flood moved) (carries : Carries message flood other copy) :
    Carries message moved other copy :=
  ⟨carries.1, advances.keeps _ _ carries.2⟩

theorem Carries.row {place : Place} {flood : Flood Place} {copy : BcMessage} (now : UInt64)
    (size : message.payload.length < 2 ^ 31) (carries : Carries message flood place copy) :
    Carries message flood place (rowMessage (storedRow now copy)) := by
  obtain ⟨same, passes⟩ := carries
  rw [row_message_stored now copy (by rw [same.payload]; exact size)]
  exact ⟨⟨same.uuid, same.sender, same.receiver, same.payload⟩, passes⟩

/-- A call puts the message neither on the wire nor into the store, or every
copy that it can emit has the budget of the moved flood. -/
def Faithful (message : BcMessage) (moved : Flood Place) (place : Place)
    (node : Node PendingMessages) (call : MeshCall Place) : Prop :=
  ((∀ peer data rc, Event.send peer data rc ∉ (call.run node).2) ∧
      (call.run node).1.store = node.store) ∨
    ∀ copy, call.Emits node copy → copy.uuid = message.uuid → Carries message moved place copy

theorem local_pubkey_after (node : Node PendingMessages) (call : MeshCall Place) :
    (call.run node).1.router.localPubkey = node.router.localPubkey := by
  cases call with
  | broadcast env msg => exact (broadcast_fixture node env msg).localPubkey
  | receive sender env data => exact (receive_fixture node env data).localPubkey
  | evict now => rfl
  | rebroadcast env => exact (rebroadcast_fixture node env).localPubkey
  | expire now => exact (expire_fixture node now).localPubkey
  | addPeer now peer => rfl
  | setOnMessage callback => rfl

variable [DecidableEq Place] {run : LoggedMesh Place} {flood moved : Flood Place} {place : Place}
  {call : MeshCall Place}

theorem sent_after (tracks : Tracks keys origin message start run flood)
    (advances : Advances place flood moved)
    (faithful : Faithful message moved place (run.mesh.node place) call) :
    ∀ transmission ∈ (run.after place call).mesh.sent, ∃ copy,
      transmission.data = wireBytes copy ∧
      (copy.uuid = message.uuid → Carries message moved transmission.sender copy) := by
  intro transmission member
  rcases List.mem_append.mp member with before | new
  · obtain ⟨copy, bytes, carries⟩ := tracks.sent transmission before
    exact ⟨copy, bytes, fun same => (carries same).advance advances⟩
  · obtain ⟨sentBy, peer, rc, event⟩ := mem_transmissions new
    rcases faithful with ⟨silent, -⟩ | carries
    · exact absurd event (silent peer _ rc)
    · obtain ⟨copy, emits, bytes⟩ := run_sends (.inr (tracks.storage place)) event
      rw [sentBy]
      exact ⟨copy, bytes, carries copy emits⟩

theorem stored_after (tracks : Tracks keys origin message start run flood)
    (size : message.payload.length < 2 ^ 31) (advances : Advances place flood moved)
    (faithful : Faithful message moved place (run.mesh.node place) call) :
    ∀ other, ∀ row ∈ ((run.after place call).mesh.node other).store.rows,
      row.uuid = message.uuid → Carries message moved other (rowMessage row) := by
  intro other row member same
  have before : row ∈ (run.mesh.node other).store.rows → Carries message moved other (rowMessage row) :=
    fun old => (tracks.stored other row old same).advance advances
  by_cases here : other = place
  · subst here
    rw [show (run.after other call).mesh.node other = (call.run (run.mesh.node other)).1 from
      after_node_here run.mesh other call] at member
    rcases faithful with ⟨-, unchanged⟩ | carries
    · rw [unchanged] at member
      exact before member
    · rcases run_rows (.inr (tracks.storage other)) member with old | ⟨now, copy, emits, isRow⟩
      · exact before old
      · rw [isRow] at same ⊢
        exact (carries copy emits same).row now size
  · rw [show (run.after place call).mesh.node other = run.mesh.node other from
      after_node_elsewhere run.mesh place call here] at member
    exact before member

theorem heard_after (tracks : Tracks keys origin message start run flood)
    (advances : Advances place flood moved)
    (hears : ∀ sender env data parsed, call = .receive sender env data →
      bcMessageDeserialize env.alloc ⟨data, env.beyond⟩ = some parsed →
      parsed.uuid = message.uuid → moved.heard place sender) :
    ∀ listener speaker, Heard (run.after place call) listener speaker message.uuid →
      moved.heard listener speaker := by
  rintro listener speaker ⟨record, member, atListener, env, data, parsed, isCall, accepted, same⟩
  rcases List.mem_append.mp member with before | new
  · apply advances.heard listener speaker
    apply tracks.heard listener speaker
    exact ⟨record, before, atListener, env, data, parsed, isCall, accepted, same⟩
  · rw [List.mem_singleton.mp new] at atListener isCall
    rw [← atListener]
    exact hears speaker env data parsed isCall accepted same

theorem held_after (tracks : Tracks keys origin message start run flood)
    (advances : Advances place flood moved)
    (holds : (moved.passes place).isSome → (flood.passes place).isSome ∨
      ∃ msg rc, Event.store msg rc ∈ (call.run (run.mesh.node place)).2 ∧ msg.uuid = message.uuid) :
    ∀ other, (moved.passes other).isSome → Holds (run.after place call) other message.uuid := by
  intro other passing
  have kept : (flood.passes other).isSome → Holds (run.after place call) other message.uuid := by
    intro before
    obtain ⟨record, member, holding⟩ := tracks.held other before
    exact ⟨record, List.mem_append_left _ member, holding⟩
  by_cases here : other = place
  · rw [here] at passing kept ⊢
    rcases holds passing with before | stored
    · exact kept before
    · exact ⟨_, List.mem_append_right _ (List.mem_singleton_self _), rfl, stored⟩
  · rw [advances.others other here] at passing
    exact kept passing

theorem Delivered.after (place other : Place) (call : MeshCall Place) {mesh : MeshState Place}
    (delivered : Delivered message mesh other) :
    Delivered message (mesh.after place call) other := by
  obtain ⟨delivery, member, same⟩ := delivered
  exact ⟨delivery, List.mem_append_left _ member, same⟩

theorem delivered_event {msg : BcMessage} (same : SameContent msg message)
    (event : Event.deliver msg ∈ (call.run (run.mesh.node place)).2) :
    Delivered message (run.after place call).mesh place := by
  refine ⟨⟨place, msg, call.readings.headD (run.mesh.clock place)⟩, ?_, rfl, same⟩
  apply List.mem_append_right
  exact List.mem_filterMap.mpr ⟨.deliver msg, event, rfl⟩

omit [DecidableEq Place] in
theorem deliveries_length (storage : OnSqlite (run.mesh.node place).router) (time : UInt64) :
    (deliveries place time (call.run (run.mesh.node place)).2).length ≤ 1 := by
  by_cases silent : ∀ msg, Event.deliver msg ∉ (call.run (run.mesh.node place)).2
  · have none : deliveries place time (call.run (run.mesh.node place)).2 = [] := by
      apply List.eq_nil_iff_forall_not_mem.mpr
      intro delivery member
      exact silent delivery.msg (mem_deliveries member).2.2
    rw [none]
    exact Nat.zero_le 1
  · push Not at silent
    obtain ⟨msg, event⟩ := silent
    obtain ⟨-, _, _, _, _, -, -, -, events, -⟩ := run_delivers storage event
    rw [events]
    exact Nat.le_refl 1

theorem at_most_once_after (tracks : Tracks keys origin message start run flood)
    (advances : Advances place flood moved)
    (arrives : place ∉ flood.seen ∧ place ∈ moved.seen ∨
      ∀ msg, Event.deliver msg ∈ (call.run (run.mesh.node place)).2 → msg.uuid ≠ message.uuid) :
    ∀ other, (deliveriesOf (run.after place call).mesh other message.uuid).length ≤
      if other ∈ moved.seen then 1 else 0 := by
  intro other
  have before := tracks.atMostOnce other
  have grows : (if other ∈ flood.seen then 1 else 0) ≤ if other ∈ moved.seen then 1 else 0 := by
    split_ifs with was is
    · exact Nat.le_refl 1
    · exact absurd (advances.seen was) is
    · exact Nat.zero_le 1
    · exact Nat.le_refl 0
  let new := deliveries place (call.readings.headD (run.mesh.clock place))
    (call.run (run.mesh.node place)).2
  have split : deliveriesOf (run.after place call).mesh other message.uuid =
      deliveriesOf run.mesh other message.uuid ++
        new.filter fun delivery =>
          decide (delivery.place = other ∧ delivery.msg.uuid = message.uuid) :=
    List.filter_append _ _
  by_cases counted : ∃ delivery ∈ new, delivery.place = other ∧ delivery.msg.uuid = message.uuid
  · obtain ⟨delivery, member, there, same⟩ := counted
    obtain ⟨here, -, event⟩ := mem_deliveries member
    rcases arrives with ⟨unseen, taken⟩ | others
    · have one : (new.filter fun delivery =>
          decide (delivery.place = other ∧ delivery.msg.uuid = message.uuid)).length ≤ 1 :=
        (List.length_filter_le _ _).trans (deliveries_length (.inr (tracks.storage place)) _)
      have same : other = place := there.symm.trans here
      have wasNone : (deliveriesOf run.mesh other message.uuid).length ≤ 0 := by
        rwa [same, if_neg unseen, ← same] at before
      rw [split, List.length_append, if_pos (same ▸ taken)]
      omega
    · exact absurd same (others delivery.msg event)
  · have none : (new.filter fun delivery =>
        decide (delivery.place = other ∧ delivery.msg.uuid = message.uuid)) = [] := by
      apply List.filter_eq_nil_iff.mpr
      intro delivery member holds
      exact counted ⟨delivery, member, of_decide_eq_true holds⟩
    rw [split, none, List.append_nil]
    exact before.trans grows

theorem tracks_after (tracks : Tracks keys origin message start run flood)
    (size : message.payload.length < 2 ^ 31) (advances : Advances place flood moved)
    (recalls : Recalls (run.mesh.node place).router.dedupCap
      (call.run (run.mesh.node place)).1.router.dedupTable message.uuid start
      (call.readings.getLastD (run.mesh.clock place)) (place ∈ moved.seen))
    (faithful : Faithful message moved place (run.mesh.node place) call)
    (begun : moved.seen.Nonempty ↔
      ∃ entry ∈ (run.after place call).mesh.broadcasts, entry.2.uuid = message.uuid)
    (fresh : place ∉ flood.seen ∧ place ∈ moved.seen ∨
      ∀ msg, Event.deliver msg ∈ (call.run (run.mesh.node place)).2 → msg.uuid ≠ message.uuid)
    (holds : (moved.passes place).isSome → (flood.passes place).isSome ∨
      ∃ msg rc, Event.store msg rc ∈ (call.run (run.mesh.node place)).2 ∧ msg.uuid = message.uuid)
    (hears : ∀ sender env data parsed, call = .receive sender env data →
      bcMessageDeserialize env.alloc ⟨data, env.beyond⟩ = some parsed →
      parsed.uuid = message.uuid → moved.heard place sender)
    (arrives : place ∈ moved.seen → place ∉ flood.seen → place ≠ origin →
      Addressee keys message place → Delivered message (run.after place call).mesh place ∨
        message.ttl.toNat + 1 < moved.seen.card) :
    Tracks keys origin message start (run.after place call) moved := by
  have setup := after_setup run.mesh place call
  have here : (run.after place call).mesh.node place = (call.run (run.mesh.node place)).1 :=
    after_node_here run.mesh place call
  have elsewhere : ∀ other, other ≠ place →
      (run.after place call).mesh.node other = run.mesh.node other :=
    fun other => after_node_elsewhere run.mesh place call
  constructor
  · exact fun other => (setup other).storage.trans (tracks.storage other)
  · intro other
    by_cases atPlace : other = place
    · rw [atPlace, here, local_pubkey_after]
      exact tracks.keyed place
    · rw [elsewhere other atPlace]
      exact tracks.keyed other
  · intro other
    rw [show ((run.after place call).mesh.node other).router.dedupCap = _ from
      (setup other).dedupCap]
    by_cases atPlace : other = place
    · subst atPlace
      rw [here, show (run.after other call).mesh.clock other = _ from
        after_clock_here run.mesh other call]
      exact recalls
    · rw [elsewhere other atPlace, show (run.after place call).mesh.clock other = _ from
        after_clock_elsewhere run.mesh place call atPlace]
      have same : (other ∈ moved.seen) = (other ∈ flood.seen) :=
        propext ⟨advances.elsewhere other atPlace, fun before => advances.seen before⟩
      rw [same]
      exact tracks.recalls other
  · exact sent_after tracks advances faithful
  · exact stored_after tracks size advances faithful
  · exact begun
  · exact held_after tracks advances holds
  · exact heard_after tracks advances hears
  · intro other member notOrigin addressee
    by_cases before : other ∈ flood.seen
    · rcases tracks.delivered other before notOrigin addressee with delivered | dry
      · exact .inl (delivered.after place other call)
      · have larger := Finset.card_le_card advances.seen
        exact .inr (by omega)
    · have atPlace : other = place := by
        by_contra away
        exact before (advances.elsewhere other away member)
      subst atPlace
      exact arrives member before notOrigin addressee
  · exact at_most_once_after tracks advances fresh

theorem begun_after (tracks : Tracks keys origin message start run flood)
    (quiet : ∀ env msg, call = .broadcast env msg → msg.uuid ≠ message.uuid) :
    flood.seen.Nonempty ↔
      ∃ entry ∈ (run.after place call).mesh.broadcasts, entry.2.uuid = message.uuid := by
  rw [tracks.begun]
  constructor
  · rintro ⟨entry, member, same⟩
    exact ⟨entry, List.mem_append_left _ member, same⟩
  · rintro ⟨entry, member, same⟩
    rcases List.mem_append.mp member with before | new
    · exact ⟨entry, before, same⟩
    · cases call with
      | broadcast env msg =>
          rw [List.mem_singleton.mp new] at same
          exact absurd same (quiet env msg rfl)
      | receive sender env data => cases new
      | evict now => cases new
      | rebroadcast env => cases new
      | expire now => cases new
      | addPeer now peer => cases new
      | setOnMessage callback => cases new

structure PassesBy (uuid : Uuid) (call : MeshCall Place) : Prop where
  broadcast : ∀ env msg, call = .broadcast env msg → msg.uuid ≠ uuid
  receive : ∀ sender env data parsed, call = .receive sender env data →
    bcMessageDeserialize env.alloc ⟨data, env.beyond⟩ = some parsed → parsed.uuid ≠ uuid

theorem recalls_mark {after : Prop} (env : CallEnv) (other : Uuid)
    (tracks : Tracks keys origin message start run flood)
    (admissible : Admissible keys origin message start run (place, call))
    (readings : call.readings = [env.now, env.storeNow])
    (learns : after ↔ place ∈ flood.seen ∨ other = message.uuid) :
    Recalls (run.mesh.node place).router.dedupCap
      ((run.mesh.node place).router.mark env.now other).dedupTable message.uuid start
      (call.readings.getLastD (run.mesh.clock place)) after := by
  have order := admissible.inOrder
  simp only [ClockInOrder, readings] at order
  obtain ⟨lower, rest⟩ := List.isChain_cons_cons.mp order
  have inside := admissible.inWindow env.now (by rw [readings]; exact List.mem_cons_self)
  rw [readings]
  apply Recalls.later _ (List.isChain_cons_cons.mp rest).1
  exact (tracks.recalls place).insert other lower inside.1 inside.2 admissible.vacant learns

theorem recalls_other (tracks : Tracks keys origin message start run flood)
    (admissible : Admissible keys origin message start run (place, call))
    (passesBy : PassesBy message.uuid call) :
    Recalls (run.mesh.node place).router.dedupCap
      (call.run (run.mesh.node place)).1.router.dedupTable message.uuid start
      (call.readings.getLastD (run.mesh.clock place)) (place ∈ flood.seen) := by
  have before := tracks.recalls place
  rcases run_table (run.mesh.node place) call with
    same | ⟨now, isCall, table⟩ | ⟨env, msg, isCall, table⟩ |
      ⟨sender, env, data, msg, isCall, parsed, -, table⟩
  · rw [same]
    exact before.later (chain_le_last _ _ admissible.inOrder)
  · subst isCall
    have lower := (List.isChain_cons_cons.mp admissible.inOrder).1
    have inside := admissible.inWindow now (List.mem_singleton_self now)
    rw [table, before.evict lower inside.2]
    exact before.later lower
  · rw [table]
    exact recalls_mark env msg.uuid tracks admissible (by rw [isCall]; rfl)
      (by simp [passesBy.broadcast env msg isCall])
  · rw [table]
    exact recalls_mark env msg.uuid tracks admissible (by rw [isCall]; rfl)
      (by simp [passesBy.receive sender env data msg isCall parsed])

theorem tracks_other (tracks : Tracks keys origin message start run flood)
    (size : message.payload.length < 2 ^ 31)
    (admissible : Admissible keys origin message start run (place, call))
    (passesBy : PassesBy message.uuid call) :
    Tracks keys origin message start (run.after place call) flood := by
  have stays : Advances place flood flood :=
    ⟨fun _ member => member, fun _ _ member => member, fun _ _ same => same, fun _ _ => rfl,
      fun _ _ heard => heard⟩
  have faithful : Faithful message flood place (run.mesh.node place) call := by
    apply Or.inr
    intro copy emits same
    cases call with
    | broadcast env msg =>
        rw [show copy = msg from emits] at same
        exact absurd same (passesBy.broadcast env msg rfl)
    | receive sender env data =>
        obtain ⟨parsed, accepted, -, hopped⟩ := emits
        rw [hopped] at same
        exact absurd same (passesBy.receive sender env data parsed rfl accepted)
    | rebroadcast env =>
        obtain ⟨row, member, isRow⟩ := emits
        rw [isRow] at same ⊢
        exact tracks.stored place row member same
    | evict now => cases emits
    | expire now => cases emits
    | addPeer now peer => cases emits
    | setOnMessage callback => cases emits
  apply tracks_after tracks size stays (recalls_other tracks admissible passesBy) faithful
  · exact begun_after tracks passesBy.broadcast
  · apply Or.inr
    intro msg event
    obtain ⟨-, sender, env, data, parsed, isCall, accepted, -, -, sameUuid, -⟩ :=
      run_delivers (.inr (tracks.storage place)) event
    rw [sameUuid]
    exact passesBy.receive sender env data parsed isCall accepted
  · exact fun passing => .inl passing
  · intro sender env data parsed isCall accepted same
    exact absurd same (passesBy.receive sender env data parsed isCall accepted)
  · intro seen unseen
    exact absurd seen unseen

theorem advances_originate (inv : Budgeted origin message.ttl.toNat (Addressee keys message) flood)
    (unseen : flood.seen = ∅) :
    Advances origin flood (flood.originate origin message.ttl.toNat) where
  seen := by simp [unseen]
  elsewhere := fun other away member => absurd (Finset.mem_singleton.mp member) away
  keeps := by
    intro other budget passing
    have member := inv.carried other budget passing
    rw [unseen] at member
    exact absurd member (Finset.notMem_empty other)
  others := fun other away => Function.update_of_ne away _ _
  heard := fun _ _ heard => heard

theorem tracks_broadcast {env : CallEnv} (tracks : Tracks keys origin message start run flood)
    (inv : Budgeted origin message.ttl.toNat (Addressee keys message) flood)
    (size : message.payload.length < 2 ^ 31)
    (admissible : Admissible keys origin message start run (origin, .broadcast env message))
    (buffer : env.alloc 0 = true) (unseen : flood.seen = ∅) :
    Tracks keys origin message start (run.after origin (.broadcast env message))
      (flood.originate origin message.ttl.toNat) := by
  have advances := advances_originate inv unseen
  have passing : (flood.originate origin message.ttl.toNat).passes origin =
      some message.ttl.toNat := Function.update_self _ _ _
  have marked : ((MeshCall.broadcast env message : MeshCall Place).run
      (run.mesh.node origin)).1.router = (run.mesh.node origin).router.mark env.now message.uuid :=
    broadcast_router (run.mesh.node origin) env message
  apply tracks_after tracks size advances
  · rw [marked]
    exact recalls_mark env message.uuid tracks admissible rfl (by simp [Flood.originate])
  · apply Or.inr
    intro copy emits _
    rw [show copy = message from emits]
    exact ⟨SameContent.refl message, passing⟩
  · exact iff_of_true (Finset.singleton_nonempty origin)
      ⟨(origin, message), List.mem_append_right _ (List.mem_singleton_self _), rfl⟩
  · apply Or.inl
    rw [unseen]
    exact ⟨Finset.notMem_empty origin, Finset.mem_singleton_self origin⟩
  · intro _
    apply Or.inr
    refine ⟨message, .ok, ?_, rfl⟩
    rcases broadcast_cases (run.mesh.node origin) env message with ⟨failed, -⟩ | ⟨-, same⟩
    · rw [buffer] at failed
      cases failed
    · rw [MeshCall.run, same]
      apply List.mem_append_right
      have present : (run.mesh.node origin).router.storage = some sqliteStorage :=
        tracks.storage origin
      simp [storeIfPresent, present, sqliteStorage, sqliteStoreMessage]
  · intro sender env data parsed isCall
    cases isCall
  · intro _ _ away
    exact absurd rfl away

theorem advances_hear {sender : Place} {budget : Nat}
    (inv : Budgeted origin message.ttl.toNat (Addressee keys message) flood) :
    Advances place flood (flood.hear (Addressee keys message) place sender budget) where
  seen := Finset.subset_insert place flood.seen
  elsewhere := fun other away member => (Finset.mem_insert.mp member).resolve_left away
  keeps := by
    intro other left passing
    simp only [Flood.hear]
    split_ifs with ends
    · exact passing
    · have away : other ≠ place := by
        intro here
        exact ends (.inl (here ▸ inv.carried other left passing))
      rw [Function.update_of_ne away]
      exact passing
  others := by
    intro other away
    simp only [Flood.hear]
    split_ifs
    · rfl
    · exact Function.update_of_ne away _ _
  heard := fun _ _ heard => .inl heard

theorem received_copy {sender : Place} {env : CallEnv} {data : List UInt8} {parsed : BcMessage}
    (tracks : Tracks keys origin message start run flood)
    (size : message.payload.length < 2 ^ 31)
    (allowed : (MeshCall.receive sender env data).Allowed run.mesh)
    (accepted : bcMessageDeserialize env.alloc ⟨data, env.beyond⟩ = some parsed)
    (same : parsed.uuid = message.uuid) : Carries message flood sender parsed := by
  obtain ⟨transmission, member, sentBy, reads⟩ := allowed
  obtain ⟨copy, bytes, carries⟩ := tracks.sent transmission member
  obtain ⟨limit, room, read⟩ := received_prefix bytes reads
  rw [read] at accepted
  have carried := carries ((parsed_uuid room accepted).symm.trans same)
  have header : bcMessageHeaderSize = 93 := rfl
  have short : bcMessageHeaderSize + copy.payload.length < 2 ^ 32 := by
    rw [carried.1.payload]
    omega
  rw [(deserialize_cut room short accepted).1, ← sentBy]
  exact carried

theorem Tracks.contains_iff (tracks : Tracks keys origin message start run flood)
    (admissible : Admissible keys origin message start run (place, call)) :
    dedupContains (run.mesh.node place).router.dedupTable (run.mesh.node place).router.dedupCap
      message.uuid = true ↔ place ∈ flood.seen := by
  obtain ⟨slot, bound, -⟩ := admissible.vacant
  exact (tracks.recalls place).contains_iff (Nat.zero_lt_of_lt bound)

section Reception

variable {sender : Place} {env : CallEnv} {data : List UInt8} {parsed : BcMessage}

theorem tracks_repeated (tracks : Tracks keys origin message start run flood)
    (inv : Budgeted origin message.ttl.toNat (Addressee keys message) flood)
    (size : message.payload.length < 2 ^ 31)
    (admissible : Admissible keys origin message start run (place, .receive sender env data))
    (accepted : bcMessageDeserialize env.alloc ⟨data, env.beyond⟩ = some parsed)
    (same : parsed.uuid = message.uuid) (known : place ∈ flood.seen) :
    Tracks keys origin message start (run.after place (.receive sender env data))
      (flood.hear (Addressee keys message) place sender parsed.ttl.toNat) := by
  have contains := (tracks.contains_iff admissible).mpr known
  rw [← same] at contains
  have idle : (MeshCall.receive sender env data).run (run.mesh.node place) =
      (run.mesh.node place, []) := by
    rw [MeshCall.run, receive_seen _ env accepted contains]
  have unmoved : (flood.hear (Addressee keys message) place sender parsed.ttl.toNat).passes =
      flood.passes := by
    simp [Flood.hear, known]
  have sameSeen : (flood.hear (Addressee keys message) place sender parsed.ttl.toNat).seen =
      flood.seen := Finset.insert_eq_of_mem known
  apply tracks_after tracks size (advances_hear inv)
  · rw [idle, sameSeen]
    exact (tracks.recalls place).later (chain_le_last _ _ admissible.inOrder)
  · apply Or.inl
    rw [idle]
    exact ⟨fun _ _ _ => List.not_mem_nil, rfl⟩
  · rw [sameSeen]
    apply begun_after tracks
    intro _ _ isCall
    cases isCall
  · apply Or.inr
    rw [idle]
    exact fun _ event => absurd event List.not_mem_nil
  · rw [unmoved]
    exact fun passing => .inl passing
  · intro other _ _ _ isCall _ _
    cases isCall
    exact .inr ⟨rfl, rfl⟩
  · exact fun _ unseen => absurd known unseen

theorem passes_relayed {copy : BcMessage} (unseen : place ∉ flood.seen) (alive : copy.ttl ≠ 0)
    (relays : ¬ Addressee keys message place) :
    (flood.hear (Addressee keys message) place sender copy.ttl.toNat).passes place =
      some (copy.ttl - 1).toNat := by
  have hop := hop_ttl alive
  have goesOn : ¬ (place ∈ flood.seen ∨ copy.ttl.toNat = 0 ∨ Addressee keys message place) := by
    rintro (seen | dry | ending)
    · exact unseen seen
    · omega
    · exact relays ending
  simp only [Flood.hear, if_neg goesOn, Function.update_self]
  congr 1
  omega

theorem faithful_first (unseen : place ∉ flood.seen) (content : SameContent parsed message)
    (key : (run.mesh.node place).router.localPubkey = keys place)
    (accepted : bcMessageDeserialize env.alloc ⟨data, env.beyond⟩ = some parsed)
    (result : (MeshCall.receive sender env data).run (run.mesh.node place) =
      ((receiveNew (run.mesh.node place) env parsed).node,
        (receiveNew (run.mesh.node place) env parsed).events)) :
    Faithful message (flood.hear (Addressee keys message) place sender parsed.ttl.toNat) place
      (run.mesh.node place) (.receive sender env data) := by
  rcases receive_new_cases (run.mesh.node place) env parsed with
    ⟨-, same⟩ | ⟨-, -, same⟩ | ⟨alive, other, -⟩
  · apply Or.inl
    rw [result, same]
    exact ⟨fun _ _ _ => List.not_mem_nil, rfl⟩
  · apply Or.inl
    rw [result, same]
    refine ⟨?_, rfl⟩
    intro peer bytes rc sent
    simp only at sent
    split_ifs at sent <;> simp at sent
  · apply Or.inr
    rintro copy ⟨again, acceptedAgain, -, hopped⟩ -
    rw [accepted] at acceptedAgain
    cases acceptedAgain
    rw [key, content.receiver] at other
    rw [hopped]
    exact ⟨⟨content.uuid, content.sender, content.receiver, content.payload⟩,
      passes_relayed unseen alive fun addressee => other addressee.symm⟩

omit [DecidableEq Place] in
theorem stores_first (storage : (run.mesh.node place).router.storage = some sqliteStorage)
    (key : (run.mesh.node place).router.localPubkey = keys place)
    (content : SameContent parsed message) (alive : parsed.ttl ≠ 0)
    (relays : ¬ Addressee keys message place) :
    ∃ msg rc, Event.store msg rc ∈ (receiveNew (run.mesh.node place) env parsed).events ∧
      msg.uuid = message.uuid := by
  rcases receive_new_cases (run.mesh.node place) env parsed with
    ⟨dead, -⟩ | ⟨-, mine, -⟩ | ⟨-, -, sends, -, same⟩
  · exact absurd dead alive
  · rw [key, content.receiver] at mine
    exact absurd mine.symm relays
  · refine ⟨{ parsed with ttl := parsed.ttl - 1 }, .ok, ?_, content.uuid⟩
    rw [same]
    apply List.mem_append_left
    simp [storeIfPresent, storage, sqliteStorage, sqliteStoreMessage]

theorem tracks_first (tracks : Tracks keys origin message start run flood)
    (inv : Budgeted origin message.ttl.toNat (Addressee keys message) flood)
    (size : message.payload.length < 2 ^ 31)
    (admissible : Admissible keys origin message start run (place, .receive sender env data))
    (accepted : bcMessageDeserialize env.alloc ⟨data, env.beyond⟩ = some parsed)
    (carries : Carries message flood sender parsed) (unseen : place ∉ flood.seen) :
    Tracks keys origin message start (run.after place (.receive sender env data))
      (flood.hear (Addressee keys message) place sender parsed.ttl.toNat) := by
  obtain ⟨content, speaks⟩ := carries
  have key := tracks.keyed place
  have missing : dedupContains (run.mesh.node place).router.dedupTable
      (run.mesh.node place).router.dedupCap parsed.uuid = false := by
    rw [← Bool.not_eq_true, content.uuid, tracks.contains_iff admissible]
    exact unseen
  have result : (MeshCall.receive sender env data).run (run.mesh.node place) =
      ((receiveNew (run.mesh.node place) env parsed).node,
        (receiveNew (run.mesh.node place) env parsed).events) := by
    rw [MeshCall.run, receive_unseen _ env accepted missing]
  apply tracks_after tracks size (advances_hear inv)
  · rw [result, receive_new_router, content.uuid]
    exact recalls_mark env message.uuid tracks admissible rfl (by simp [Flood.hear])
  · exact faithful_first unseen content key accepted result
  · have started : flood.seen.Nonempty ↔ ∃ entry ∈
        (run.after place (.receive sender env data)).mesh.broadcasts,
          entry.2.uuid = message.uuid := by
      apply begun_after tracks
      intro _ _ isCall
      cases isCall
    exact iff_of_true (Finset.insert_nonempty place flood.seen)
      (started.mp ⟨sender, inv.carried sender _ speaks⟩)
  · exact .inl ⟨unseen, Finset.mem_insert_self place flood.seen⟩
  · intro passing
    obtain ⟨left, passes⟩ := Option.isSome_iff_exists.mp passing
    rcases passes_hear passes with before | ⟨-, -, hop, relays⟩
    · exact .inl (by rw [before]; rfl)
    · have alive : parsed.ttl ≠ 0 := by
        intro dead
        rw [dead] at hop
        exact Nat.succ_ne_zero left hop
      apply Or.inr
      rw [result]
      exact stores_first (tracks.storage place) key content alive relays
  · intro other _ _ _ isCall _ _
    cases isCall
    exact .inr ⟨rfl, rfl⟩
  · intro _ _ _ addressee
    by_cases dead : parsed.ttl = 0
    · -- The budget was spent on all the routers that have seen the message.
      have spent := inv.spent sender _ speaks
      have grown : (insert place flood.seen).card = flood.seen.card + 1 :=
        Finset.card_insert_of_notMem unseen
      rw [dead] at spent ⊢
      apply Or.inr
      show message.ttl.toNat + 1 < (insert place flood.seen).card
      rw [grown]
      simpa using spent
    · apply Or.inl
      have registered := admissible.listening sender env data rfl addressee
      have mine : parsed.receiverPubkey = (run.mesh.node place).router.localPubkey := by
        rw [key, content.receiver]
        exact addressee.symm
      have hopped : SameContent { parsed with ttl := parsed.ttl - 1 } message :=
        ⟨content.uuid, content.sender, content.receiver, content.payload⟩
      apply delivered_event hopped
      rw [MeshCall.run, receive_delivers _ env accepted missing dead mine registered]
      exact List.mem_singleton_self _

end Reception

theorem tracks_initially {configs : Place → Option BcRouterConfig}
    (created : (loggedSystem configs keys).initial run) :
    Tracks keys origin message start run ⟨∅, fun _ => none, fun _ _ => False⟩ := by
  obtain ⟨⟨nodes, sent, -, broadcasts, delivered⟩, keyed, log⟩ := created
  have made : ∀ place, (run.mesh.node place).store.rows = [] ∧
      (run.mesh.node place).router.storage = some sqliteStorage ∧
      (run.mesh.node place).router.dedupTable = emptyTable := by
    intro place
    obtain ⟨store, alloc, transport, localPubkey, router⟩ := nodes place
    rw [created_eq router, store]
    exact ⟨rfl, rfl, rfl⟩
  constructor
  · exact fun place => (made place).2.1
  · exact keyed
  · intro place
    rw [(made place).2.2]
    refine ⟨?_, fun known => absurd known (Finset.notMem_empty place), ?_⟩
    · simp [emptyTable]
    · simp [emptyTable]
  · simp [sent]
  · intro place row member
    rw [(made place).1] at member
    cases member
  · simp [broadcasts]
  · intro place passing
    cases passing
  · rintro listener speaker ⟨record, member, -⟩
    rw [log] at member
    cases member
  · intro place member
    exact absurd member (Finset.notMem_empty place)
  · simp [deliveriesOf, delivered]

theorem tracks_step {after : LoggedMesh Place} {label : Place × MeshCall Place}
    {configs : Place → Option BcRouterConfig}
    (size : message.payload.length < 2 ^ 31)
    (inv : Budgeted origin message.ttl.toNat (Addressee keys message) flood)
    (tracks : Tracks keys origin message start run flood)
    (step : (guarded (loggedSystem configs keys)
      (Admissible keys origin message start)).step run label after) :
    ∃ moved, Leads (floodSystem origin message.ttl.toNat (Addressee keys message)) flood moved ∧
      Tracks keys origin message start after moved := by
  obtain ⟨place, call⟩ := label
  obtain ⟨⟨allowed, result⟩, admissible⟩ := step
  simp only at result allowed
  rw [result]
  have otherwise : PassesBy message.uuid call → ∃ moved,
      Leads (floodSystem origin message.ttl.toNat (Addressee keys message)) flood moved ∧
        Tracks keys origin message start (run.after place call) moved :=
    fun passesBy => ⟨flood, .stay, tracks_other tracks size admissible passesBy⟩
  cases call with
  | broadcast env msg =>
      by_cases same : msg.uuid = message.uuid
      · obtain ⟨here, isMessage, buffer, unsent⟩ := admissible.once env msg rfl same
        simp only at here
        subst here isMessage
        have unseen : flood.seen = ∅ := by
          by_contra started
          obtain ⟨entry, member, uuid⟩ :=
            tracks.begun.mp (Finset.nonempty_iff_ne_empty.mpr started)
          exact unsent entry member uuid
        exact ⟨_, .single .originate ⟨unseen, rfl⟩,
          tracks_broadcast tracks inv size admissible buffer unseen⟩
      · apply otherwise
        constructor
        · intro _ _ isCall
          cases isCall
          exact same
        · intro _ _ _ _ isCall
          cases isCall
  | receive sender env data =>
      by_cases about : ∃ parsed, bcMessageDeserialize env.alloc ⟨data, env.beyond⟩ = some parsed ∧
          parsed.uuid = message.uuid
      · obtain ⟨parsed, accepted, same⟩ := about
        have carries := received_copy tracks size allowed accepted same
        refine ⟨_, .single (.hear place sender) ⟨_, carries.2, rfl⟩, ?_⟩
        by_cases known : place ∈ flood.seen
        · exact tracks_repeated tracks inv size admissible accepted same known
        · exact tracks_first tracks inv size admissible accepted carries known
      · apply otherwise
        constructor
        · intro _ _ isCall
          cases isCall
        · intro _ _ _ parsed isCall accepted same
          cases isCall
          exact about ⟨parsed, accepted, same⟩
  | evict now => exact otherwise ⟨nofun, nofun⟩
  | rebroadcast env => exact otherwise ⟨nofun, nofun⟩
  | expire now => exact otherwise ⟨nofun, nofun⟩
  | addPeer now peer => exact otherwise ⟨nofun, nofun⟩
  | setOnMessage callback => exact otherwise ⟨nofun, nofun⟩

/-- While nothing is forgotten, the network refines the flood. -/
theorem refines_flood {configs : Place → Option BcRouterConfig}
    (size : message.payload.length < 2 ^ 31)
    (reached : Reachable (guarded (loggedSystem configs keys)
      (Admissible keys origin message start)) run) :
    ∃ flood, Budgeted origin message.ttl.toNat (Addressee keys message) flood ∧
      Tracks keys origin message start run flood := by
  have simulated : ∃ flood,
      Reachable (floodSystem origin message.ttl.toNat (Addressee keys message)) flood ∧
        Tracks keys origin message start run flood := by
    apply Reachable.simulate (Tracks keys origin message start) _ _ reached
    · intro state created
      exact ⟨_, ⟨rfl, fun _ => rfl, fun _ _ => id⟩, tracks_initially created⟩
    · intro state label after image reachedImage related step
      exact tracks_step size (budgeted_of_reachable reachedImage) related step
  obtain ⟨flood, reachedFlood, tracks⟩ := simulated
  exact ⟨flood, budgeted_of_reachable reachedFlood, tracks⟩

end Refinement

end BitChat.FloodRefinement
