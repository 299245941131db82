import BitChat.MeshNetwork

/-!
# Where copies of a message come from

Every copy of a message, whether on the wire, in a node's storage or handed
to the callback, has the content of a broadcast, and its TTL bounds from
below what its way from the origin may have cost. Timestamps are left out:
the storage replaces them.
-/

namespace BitChat.Provenance

open BitChat.WireMessage BitChat.PendingStorage BitChat.MeshRouter BitChat.MeshNetwork
open TransitionSystem

set_option autoImplicit false

section Hops

variable {Place : Type}

inductive HopPath (hops : List (Place × Place)) : Nat → Place → Place → Prop
  | here (place : Place) : HopPath hops 0 place place
  | hop {n : Nat} {origin sender receiver : Place} (path : HopPath hops n origin sender)
      (last : (sender, receiver) ∈ hops) : HopPath hops (n + 1) origin receiver

def HopsAtMost (hops : List (Place × Place)) (limit : Nat) (origin place : Place) : Prop :=
  ∃ n, n ≤ limit ∧ HopPath hops n origin place

theorem HopPath.mono {hops more : List (Place × Place)} (grows : hops ⊆ more) {n : Nat}
    {origin place : Place} (path : HopPath hops n origin place) :
    HopPath more n origin place := by
  induction path with
  | here place => exact .here place
  | hop _ last ih => exact .hop ih (grows last)

theorem HopsAtMost.mono {hops more : List (Place × Place)} {limit higher : Nat}
    {origin place : Place} (grows : hops ⊆ more) (order : limit ≤ higher)
    (near : HopsAtMost hops limit origin place) : HopsAtMost more higher origin place := by
  obtain ⟨n, bound, path⟩ := near
  exact ⟨n, Nat.le_trans bound order, path.mono grows⟩

theorem HopsAtMost.hop {hops : List (Place × Place)} {limit : Nat} {origin sender receiver : Place}
    (near : HopsAtMost hops limit origin sender) (last : (sender, receiver) ∈ hops) :
    HopsAtMost hops (limit + 1) origin receiver := by
  obtain ⟨n, bound, path⟩ := near
  exact ⟨n + 1, Nat.succ_le_succ bound, .hop path last⟩

end Hops

structure SameContent (copy msg : BcMessage) : Prop where
  uuid : copy.uuid = msg.uuid
  sender : copy.senderPubkey = msg.senderPubkey
  receiver : copy.receiverPubkey = msg.receiverPubkey
  payload : copy.payload = msg.payload

theorem SameContent.refl (msg : BcMessage) : SameContent msg msg := ⟨rfl, rfl, rfl, rfl⟩

section Copies

variable {Place : Type}

/-- The copy at `place` descends from a broadcast of the same content with at
least its TTL, from which `place` is no further than the TTL that is gone. -/
def HasProvenance (state : MeshState Place) (place : Place) (copy : BcMessage) : Prop :=
  ∃ origin msg, (origin, msg) ∈ state.broadcasts ∧ SameContent copy msg ∧
    copy.ttl.toNat ≤ msg.ttl.toNat ∧
    HopsAtMost state.hops (msg.ttl.toNat - copy.ttl.toNat) origin place

structure Traced (state : MeshState Place) : Prop where
  inFlight : ∀ transmission ∈ state.sent, ∃ copy, transmission.data = wireBytes copy ∧
    HasProvenance state transmission.sender copy
  stored : ∀ place, ∀ row ∈ (state.node place).store.rows,
    HasProvenance state place (rowMessage row)
  delivered : ∀ delivery ∈ state.delivered, HasProvenance state delivery.place delivery.msg

/-- The condition on broadcasts under which no length field wraps. -/
def PayloadsBelow (_state : MeshState Place) : Place × MeshCall Place → Prop
  | (_, .broadcast _ msg) => msg.payload.length < 2 ^ 31
  | _ => True

structure TracedRun (state : MeshState Place) : Prop extends Traced state where
  storage : ∀ place, (state.node place).router.storage = some sqliteStorage
  payloads : ∀ entry ∈ state.broadcasts, entry.2.payload.length < 2 ^ 31

theorem HasProvenance.payload {state : MeshState Place} {place : Place} {copy : BcMessage}
    (payloads : ∀ entry ∈ state.broadcasts, entry.2.payload.length < 2 ^ 31)
    (provenance : HasProvenance state place copy) : copy.payload.length < 2 ^ 31 := by
  obtain ⟨origin, msg, member, same, -⟩ := provenance
  rw [same.payload]
  exact payloads _ member

theorem HasProvenance.row {state : MeshState Place} {place : Place} {copy : BcMessage}
    (now : UInt64) (size : copy.payload.length < 2 ^ 31)
    (provenance : HasProvenance state place copy) :
    HasProvenance state place (rowMessage (storedRow now copy)) := by
  rw [row_message_stored now copy size]
  obtain ⟨origin, msg, member, same, ttl, near⟩ := provenance
  exact ⟨origin, msg, member, ⟨same.uuid, same.sender, same.receiver, same.payload⟩, ttl, near⟩

variable [DecidableEq Place]

theorem HasProvenance.after {state : MeshState Place} {holder : Place} {copy : BcMessage}
    (place : Place) (call : MeshCall Place) (provenance : HasProvenance state holder copy) :
    HasProvenance (state.after place call) holder copy := by
  obtain ⟨origin, msg, member, same, ttl, near⟩ := provenance
  exact ⟨origin, msg, List.mem_append_left _ member, same, ttl,
    near.mono (List.subset_append_left _ _) (Nat.le_refl _)⟩

theorem HasProvenance.receive {state : MeshState Place} {sender place : Place} {copy : BcMessage}
    {env : CallEnv} {data : List UInt8} (alive : copy.ttl ≠ 0)
    (provenance : HasProvenance state sender copy) :
    HasProvenance (state.after place (.receive sender env data)) place
      { copy with ttl := copy.ttl - 1 } := by
  obtain ⟨origin, msg, member, same, ttl, near⟩ := provenance
  have hop := hop_ttl alive
  refine ⟨origin, msg, List.mem_append_left _ member,
    ⟨same.uuid, same.sender, same.receiver, same.payload⟩, ?_, ?_⟩
  · show (copy.ttl - 1).toNat ≤ msg.ttl.toNat
    omega
  · show HopsAtMost (state.hops ++ (MeshCall.receive sender env data).hop place)
      (msg.ttl.toNat - (copy.ttl - 1).toNat) origin place
    have grown := near.mono
      (List.subset_append_left state.hops ((MeshCall.receive sender env data).hop place))
      (Nat.le_refl _)
    by_cases self : sender = place
    · subst self
      exact grown.mono (List.Subset.refl _) (by omega)
    · have last : (sender, place) ∈
          state.hops ++ (MeshCall.receive sender env data).hop place := by
        simp [MeshCall.hop, self]
      exact (grown.hop last).mono (List.Subset.refl _) (by omega)

theorem emitted_has_provenance {state : MeshState Place} {place : Place} {call : MeshCall Place}
    {copy : BcMessage} (traced : TracedRun state) (allowed : call.Allowed state)
    (emitted : call.Emits (state.node place) copy) :
    HasProvenance (state.after place call) place copy := by
  cases call with
  | broadcast env msg =>
      cases emitted
      refine ⟨place, copy, ?_, SameContent.refl copy, Nat.le_refl _, 0, Nat.zero_le _, .here place⟩
      exact List.mem_append_right _ (List.mem_singleton_self _)
  | receive sender env data =>
      obtain ⟨parsed, accepted, alive, same⟩ := emitted
      obtain ⟨transmission, member, sentBy, reads⟩ := allowed
      obtain ⟨original, bytes, provenance⟩ := traced.inFlight transmission member
      have size := provenance.payload traced.payloads
      have header : bcMessageHeaderSize = 93 := rfl
      -- A datagram read whole is one that is cut at its own length.
      have cut : ∃ limit, bcMessageHeaderSize ≤ limit ∧ data = (wireBytes original).take limit := by
        rcases reads with whole | truncated
        · refine ⟨(wireBytes original).length, ?_, ?_⟩
          · rw [wire_bytes_length]
            omega
          · rw [whole, bytes, List.take_length]
        · exact ⟨4096, by decide, by rw [truncated, bytes]⟩
      obtain ⟨limit, room, read⟩ := cut
      rw [read] at accepted
      have whole := (deserialize_cut room (by omega) accepted).1
      rw [same, whole]
      rw [whole] at alive
      rw [sentBy] at provenance
      exact provenance.receive alive
  | rebroadcast env =>
      obtain ⟨row, member, same⟩ := emitted
      rw [same]
      exact (traced.stored place row member).after place (.rebroadcast env)
  | evict now => cases emitted
  | expire now => cases emitted
  | addPeer now peer => cases emitted
  | setOnMessage callback => cases emitted

theorem payloads_after {state : MeshState Place} {place : Place} {call : MeshCall Place}
    (traced : TracedRun state) (bounded : PayloadsBelow state (place, call)) :
    ∀ entry ∈ (state.after place call).broadcasts, entry.2.payload.length < 2 ^ 31 := by
  intro entry member
  rcases List.mem_append.mp member with before | new
  · exact traced.payloads entry before
  · cases call with
    | broadcast env msg =>
        rw [List.mem_singleton.mp new]
        exact bounded
    | receive sender env data => cases new
    | evict now => cases new
    | rebroadcast env => cases new
    | expire now => cases new
    | addPeer now peer => cases new
    | setOnMessage callback => cases new

theorem traced_after {state : MeshState Place} {place : Place} {call : MeshCall Place}
    (traced : TracedRun state) (allowed : call.Allowed state)
    (bounded : PayloadsBelow state (place, call)) : TracedRun (state.after place call) := by
  have payloads := payloads_after traced bounded
  have storage := traced.storage place
  refine ⟨⟨?_, ?_, ?_⟩, ?_, payloads⟩
  · intro transmission member
    rcases List.mem_append.mp member with before | new
    · obtain ⟨copy, bytes, provenance⟩ := traced.inFlight transmission before
      exact ⟨copy, bytes, provenance.after place call⟩
    · obtain ⟨sentBy, peer, rc, event⟩ := mem_transmissions new
      obtain ⟨copy, emitted, bytes⟩ := run_sends (.inr storage) event
      rw [sentBy]
      exact ⟨copy, bytes, emitted_has_provenance traced allowed emitted⟩
  · intro holder row member
    by_cases here : holder = place
    · subst here
      rw [after_node_here] at member
      rcases run_rows (.inr storage) member with before | ⟨now, copy, emitted, same⟩
      · exact (traced.stored holder row before).after holder call
      · have provenance := emitted_has_provenance traced allowed emitted
        rw [same]
        exact provenance.row now (provenance.payload payloads)
    · rw [after_node_elsewhere state place call here] at member
      exact (traced.stored holder row member).after place call
  · intro delivery member
    rcases List.mem_append.mp member with before | new
    · exact (traced.delivered delivery before).after place call
    · obtain ⟨there, -, event⟩ := mem_deliveries new
      rw [there]
      exact emitted_has_provenance traced allowed (run_delivers (.inr storage) event).1
  · intro holder
    rw [(after_setup state place call holder).storage]
    exact traced.storage holder

theorem traced_initially {configs : Place → Option BcRouterConfig} {state : MeshState Place}
    (created : (meshSystem configs).initial state) : TracedRun state := by
  obtain ⟨nodes, sent, -, broadcasts, delivered⟩ := created
  refine ⟨⟨?_, ?_, ?_⟩, ?_, ?_⟩
  · simp [sent]
  · intro place row member
    rw [(nodes place).1] at member
    cases member
  · simp [delivered]
  · intro place
    obtain ⟨-, alloc, transport, localPubkey, made⟩ := nodes place
    rw [created_eq made]
  · simp [broadcasts]

/-- In every network, along every run: each copy in flight, stored or
delivered has the content of a broadcast with a TTL not below its own and
lies no further from the origin than the difference. So nothing is delivered
further from its origin than its first TTL. -/
theorem copies_have_provenance (configs : Place → Option BcRouterConfig) {state : MeshState Place}
    (reached : Reachable (guarded (meshSystem configs) PayloadsBelow) state) :
    Traced state ∧
      ∀ delivery ∈ state.delivered, ∃ origin msg, (origin, msg) ∈ state.broadcasts ∧
        SameContent delivery.msg msg ∧
        HopsAtMost state.hops msg.ttl.toNat origin delivery.place := by
  have traced : TracedRun state := by
    apply Reachable.invariant TracedRun _ _ reached
    · exact fun _ created => traced_initially created
    · rintro before ⟨place, call⟩ after inv ⟨⟨allowed, result⟩, bounded⟩
      rw [result]
      exact traced_after inv allowed bounded
  refine ⟨traced.toTraced, ?_⟩
  intro delivery member
  obtain ⟨origin, msg, broadcast, same, -, near⟩ := traced.delivered delivery member
  exact ⟨origin, msg, broadcast, same, near.mono (List.Subset.refl _) (Nat.sub_le _ _)⟩

end Copies

theorem delivered_copy_has_provenance :
    Traced deliveredMesh ∧
      ∀ delivery ∈ deliveredMesh.delivered, ∃ origin msg,
        (origin, msg) ∈ deliveredMesh.broadcasts ∧ SameContent delivery.msg msg ∧
        HopsAtMost deliveredMesh.hops msg.ttl.toNat origin delivery.place := by
  apply copies_have_provenance fun _ => none
  apply delivered_mesh_reachable
  · trivial
  · trivial
  · show (probeMessage 0).payload.length < 2 ^ 31
    decide
  · trivial

end BitChat.Provenance
