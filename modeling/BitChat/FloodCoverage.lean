import BitChat.FloodRefinement
import Mathlib.Data.Fintype.Card

/-!
# How far a broadcast gets

While all of it happens within one `dedup_max_age`, the TTL of a copy is used
up by the routers that took the message up, and not by loops. So a broadcast
covers every network of at most TTL + 1 routers in which the routers that hold
the message are heard by their neighbours. In a larger network it may not,
even for routers close to the origin: a router keeps to the first copy that
reaches it, which may have come the long way.
-/

namespace BitChat.FloodCoverage

open BitChat.WireMessage BitChat.DedupTable BitChat.PendingStorage BitChat.MeshRouter
open BitChat.MeshNetwork BitChat.Provenance BitChat.FloodRefinement
open TransitionSystem Flooding

set_option autoImplicit false

section Coverage

variable {Place : Type} [DecidableEq Place] [Fintype Place] {keys : Place → Pubkey}
  {origin : Place} {message : BcMessage} {start : UInt64} {run : LoggedMesh Place}
  {configs : Place → Option BcRouterConfig}

theorem covered_of_tracks {flood : Flood Place}
    (inv : Budgeted origin message.ttl.toNat (Addressee keys message) flood)
    (tracks : Tracks keys origin message start run flood)
    (sent : ∃ entry ∈ run.mesh.broadcasts, entry.2.uuid = message.uuid)
    (small : Fintype.card Place ≤ message.ttl.toNat + 1) {range : Place → Place → Prop}
    (quiet : Quiet range run message.uuid) {place : Place}
    (connected : Connected origin (Addressee keys message) range place) :
    dedupContains (run.mesh.node place).router.dedupTable (run.mesh.node place).router.dedupCap
        message.uuid = true ∧
      (place ≠ origin → Addressee keys message place →
        ∃ delivery, deliveriesOf run.mesh place message.uuid = [delivery] ∧
          SameContent delivery.msg message) := by
  have begun : origin ∈ flood.seen := inv.started (tracks.begun.mpr sent)
  have covered : place ∈ flood.seen := by
    apply inv.covers small begun _ connected
    intro speaker listener passing near
    exact tracks.heard listener speaker (quiet speaker listener (tracks.held speaker passing) near)
  constructor
  · obtain ⟨time, remembers⟩ := (tracks.recalls place).found covered
    exact remembers.contains
  · intro away addressee
    have room : flood.seen.card ≤ Fintype.card Place := Finset.card_le_univ _
    obtain ⟨delivery, member, here, same⟩ : Delivered message run.mesh place := by
      rcases tracks.delivered place covered away addressee with delivered | dry
      · exact delivered
      · omega
    have counted : delivery ∈ deliveriesOf run.mesh place message.uuid := by
      apply List.mem_filter.mpr
      exact ⟨member, decide_eq_true ⟨here, same.uuid⟩⟩
    have atMost := tracks.atMostOnce place
    rw [if_pos covered] at atMost
    obtain ⟨only, list⟩ := List.length_eq_one_iff.mp
      (Nat.le_antisymm atMost (List.length_pos_of_mem counted))
    rw [list] at counted
    rw [List.mem_singleton.mp counted] at same
    exact ⟨only, list, same⟩

/-- The routers that found the uuid of the message worth remembering. -/
def takers (run : LoggedMesh Place) (uuid : Uuid) : Finset Place :=
  Finset.univ.filter fun place => dedupContains (run.mesh.node place).router.dedupTable
    (run.mesh.node place).router.dedupCap uuid = true

omit [Fintype Place] [DecidableEq Place] in
theorem wire_bytes_injective {copy other : BcMessage} (size : copy.payload.length < 2 ^ 31)
    (same : wireBytes copy = wireBytes other) : copy = other := by
  have lengths := congrArg List.length same
  rw [wire_bytes_length, wire_bytes_length] at lengths
  have parse : ∀ msg : BcMessage, msg.payload.length < 2 ^ 32 →
      bcMessageDeserialize allocates ⟨wireBytes msg ++ [], fun _ => 0⟩ = some msg :=
    fun msg short => deserialize_wire allocates msg [] (fun _ => 0) short rfl rfl
  have first := parse copy (by omega)
  have second := parse other (by omega)
  rw [same, second] at first
  exact (Option.some.inj first).symm

end Coverage

theorem reachable_logged {Place : Type} [DecidableEq Place]
    {configs : Place → Option BcRouterConfig} {keys : Place → Pubkey}
    {guard : LoggedMesh Place → Place × MeshCall Place → Prop} {run : LoggedMesh Place}
    (place : Place) (call : MeshCall Place)
    (reached : Reachable (guarded (loggedSystem configs keys) guard) run)
    (allowed : call.Allowed run.mesh) (admitted : guard run (place, call)) :
    Reachable (guarded (loggedSystem configs keys) guard) (run.after place call) :=
  .next (place, call) reached ⟨⟨allowed, rfl⟩, admitted⟩

section Witness

def pairKeys (place : Bool) : Pubkey := List.Vector.replicate 32 (if place then 2 else 1)

def pairRun : LoggedMesh Bool := ⟨pairMesh, []⟩

def coveredRun : LoggedMesh Bool :=
  (((pairRun.after true (.setOnMessage true)).after false (.addPeer 0 receiverPeer)).after false
    (.broadcast (quietEnv 0) (probeMessage 0))).after true
    (.receive false (quietEnv 0) (wireBytes (probeMessage 0)))

theorem in_window_at_start {run : LoggedMesh Bool} {label : Bool × MeshCall Bool}
    (atStart : ∀ reading ∈ label.2.readings, reading = 0) : InWindow 0 run label := by
  intro reading member
  rw [atStart reading member]
  exact ⟨UInt64.le_refl 0, Nat.le_add_right _ _⟩

theorem covered_run_reachable :
    Reachable (guarded (loggedSystem (fun _ => none) pairKeys)
      (Admissible pairKeys false (probeMessage 0) 0)) coveredRun := by
  have start : Reachable (guarded (loggedSystem (fun _ => none) pairKeys)
      (Admissible pairKeys false (probeMessage 0) 0)) pairRun :=
    .start ⟨pair_mesh_initial, fun _ => rfl, rfl⟩
  have listening := reachable_logged true (.setOnMessage true) start trivial
    ⟨by decide, nofun, ⟨0, by decide, rfl⟩, nofun, nofun⟩
  have met := reachable_logged false (.addPeer 0 receiverPeer) listening trivial
    ⟨by decide, in_window_at_start (by simp [MeshCall.readings]), ⟨0, by decide, rfl⟩, nofun, nofun⟩
  have sent := reachable_logged false (.broadcast (quietEnv 0) (probeMessage 0)) met trivial
    ⟨by decide, in_window_at_start (by simp [MeshCall.readings, quietEnv]), ⟨0, by decide, rfl⟩, by
      intro env msg isCall _
      cases isCall
      exact ⟨rfl, rfl, rfl, fun entry member => absurd member List.not_mem_nil⟩, nofun⟩
  apply reachable_logged true (.receive false (quietEnv 0) (wireBytes (probeMessage 0))) sent
  · exact ⟨⟨false, wireBytes (probeMessage 0)⟩, List.mem_singleton_self _, rfl, .inl rfl⟩
  · exact ⟨by decide, in_window_at_start (by simp [MeshCall.readings, quietEnv]),
      ⟨0, by decide, rfl⟩, nofun, fun _ _ _ _ _ => rfl⟩

def pairRange (speaker listener : Bool) : Prop := speaker = false ∧ listener = true

theorem covered_run_quiet : Quiet pairRange coveredRun (probeMessage 0).uuid := by
  rintro speaker listener - ⟨rfl, rfl⟩
  refine ⟨⟨true, .receive false (quietEnv 0) (wireBytes (probeMessage 0)), _⟩,
    List.mem_append_right _ (List.mem_singleton_self _), rfl, quietEnv 0, _, probeMessage 0, rfl,
    by decide, rfl⟩

theorem covered_run_sent :
    coveredRun.mesh.sent = [⟨false, wireBytes (probeMessage 0)⟩] := by
  decide

end Witness

end BitChat.FloodCoverage
