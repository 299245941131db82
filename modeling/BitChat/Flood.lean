import BitChat.MeshRouter
import Mathlib.Data.List.GetD
import Mathlib.Logic.Hydra

/-!
# Floods die out

Delivery steps over a set of nodes and a multiset of datagrams in flight.
The answer of the deduplication lookup is left open, so nothing here depends
on the table. Every datagram a receive emits carries a TTL byte one below
that of the datagram it consumes, and the multiset order over TTL bytes is
well founded whatever the number of copies.
-/

namespace BitChat.Flood

open BitChat.WireMessage BitChat.DedupTable BitChat.PendingStorage BitChat.MeshRouter

set_option autoImplicit false

section Delivery

variable {Store : Type}

/-- `bc_router_receive` with an arbitrary answer of `dedup_contains`. -/
def receiveAnswered (node : Node Store) (env : CallEnv) (data : List UInt8) (seen : Bool) :
    Outcome Store :=
  if data.length = 0 then { rc := .invalid, node := node, events := [] }
  else
    match bcMessageDeserialize env.alloc ⟨data, env.beyond⟩ with
    | none => { rc := .invalid, node := node, events := [] }
    | some msg => receiveParsed node env msg seen

theorem receive_answered (node : Node Store) (env : CallEnv) (data : List UInt8) :
    ∃ seen, bcRouterReceive node env data = receiveAnswered node env data seen := by
  unfold bcRouterReceive receiveAnswered
  split_ifs with empty
  · exact ⟨true, rfl⟩
  · cases parsed : bcMessageDeserialize env.alloc ⟨data, env.beyond⟩ with
    | none => exact ⟨true, rfl⟩
    | some msg => exact ⟨_, rfl⟩

structure FloodState (Place Store : Type) where
  node : Place → Node Store
  inFlight : Multiset (List UInt8)

/-- Take a datagram out of flight, receive it somewhere (whole, or cut to the
4096 bytes of the buffer in a tick), and put in flight any finite number of
copies of the bytes that the receive sent. The receive is the code's, or one
whose deduplication lookup answered anything at all. -/
inductive DeliveryStep {Place : Type} [DecidableEq Place] :
    FloodState Place Store → FloodState Place Store → Prop
  | deliver (node : Place → Node Store) (datagram : List UInt8) (rest : Multiset (List UInt8))
      (place : Place) (env : CallEnv) (received : List UInt8) (outcome : Outcome Store)
      (emitted : Multiset (List UInt8))
      (reads : received = datagram ∨ received = datagram.take 4096)
      (call : outcome = bcRouterReceive (node place) env received ∨
        ∃ seen, outcome = receiveAnswered (node place) env received seen)
      (sent : ∀ data ∈ emitted, ∃ peer rc, Event.send peer data rc ∈ outcome.events) :
      DeliveryStep ⟨node, datagram ::ₘ rest⟩
        ⟨Function.update node place outcome.node, rest + emitted⟩

/-- The TTL byte of a datagram, zero where it is too short to have one. -/
def ttlByte (data : List UInt8) : Nat := (data.getD 16 0).toNat

theorem ttl_byte_parsed {alloc : Nat → Bool} {data : List UInt8} {beyond : Nat → UInt8}
    {msg : BcMessage} (parsed : bcMessageDeserialize alloc ⟨data, beyond⟩ = some msg) :
    ttlByte data = msg.ttl.toNat := by
  obtain ⟨header, -, -, -, same⟩ := (deserialize_eq_some_iff _ _ _).mp parsed
  simp only [bcMessageHeaderSize] at header
  have inside : 16 < data.length := by omega
  rw [← same]
  simp [ttlByte, messageAt, Memory.byteAt, inside]

theorem ttl_byte_wire (msg : BcMessage) : ttlByte (wireBytes msg) = msg.ttl.toNat := by
  have place : (wireBytes msg).getD 16 0 = msg.ttl := by
    have split : wireBytes msg = msg.uuid.toList ++ (msg.ttl :: (msg.senderPubkey.toList ++
        msg.receiverPubkey.toList ++ writeU64Be msg.timestamp ++
        writeU32Be (UInt32.ofNat msg.payload.length) ++ msg.payload)) := by
      simp [wireBytes]
    rw [split, List.getD_append_right _ _ _ _ (by simp)]
    simp
  rw [ttlByte, place]

/-- Everything a receive sends has a smaller TTL byte than what it read. -/
theorem sent_ttl_smaller {node : Node Store} {env : CallEnv} {received data : List UInt8}
    {seen : Bool} {peer : Pubkey} {rc : Rc}
    (sent : Event.send peer data rc ∈ (receiveAnswered node env received seen).events) :
    ttlByte data < ttlByte received := by
  unfold receiveAnswered at sent
  split_ifs at sent with empty
  · cases sent
  · cases parsed : bcMessageDeserialize env.alloc ⟨received, env.beyond⟩ with
    | none =>
        rw [parsed] at sent
        cases sent
    | some msg =>
        rw [parsed] at sent
        simp only [receiveParsed] at sent
        split_ifs at sent with known
        · cases sent
        · obtain ⟨alive, bytes⟩ := receive_new_sends node env sent
          rw [bytes, ttl_byte_wire, ttl_byte_parsed parsed]
          have hop := hop_ttl alive
          exact Nat.lt_of_succ_le (Nat.le_of_eq hop)

theorem ttl_byte_cut (data : List UInt8) : ttlByte (data.take 4096) = ttlByte data := by
  unfold ttlByte
  rw [List.getD_eq_getElem?_getD, List.getD_eq_getElem?_getD, List.getElem?_take_of_lt (by decide)]

section Termination

variable {Place : Type} [DecidableEq Place]

theorem delivery_step_descends {before after : FloodState Place Store}
    (step : DeliveryStep before after) :
    Relation.CutExpand (· < ·) (after.inFlight.map ttlByte) (before.inFlight.map ttlByte) := by
  cases step with
  | deliver node datagram rest place env received outcome emitted reads call sent =>
      obtain ⟨seen, answered⟩ : ∃ seen, outcome = receiveAnswered (node place) env received seen := by
        rcases call with real | answered
        · rw [real]
          exact receive_answered (node place) env received
        · exact answered
      have sameTtl : ttlByte received = ttlByte datagram := by
        rcases reads with whole | cut
        · rw [whole]
        · rw [cut, ttl_byte_cut]
      refine ⟨emitted.map ttlByte, ttlByte datagram, ?_, ?_⟩
      · intro ttl member
        obtain ⟨data, inEmitted, rfl⟩ := Multiset.mem_map.mp member
        obtain ⟨peer, rc, event⟩ := sent data inEmitted
        rw [answered] at event
        rw [← sameTtl]
        exact sent_ttl_smaller event
      · rw [Multiset.map_add, Multiset.map_cons, ← Multiset.singleton_add]
        ac_rfl

theorem delivery_well_founded :
    WellFounded fun after before : FloodState Place Store => DeliveryStep before after :=
  Subrelation.wf delivery_step_descends
    (InvImage.wf (fun state : FloodState Place Store => state.inFlight.map ttlByte)
      (WellFounded.cutExpand wellFounded_lt))

/-- From any nodes and any datagrams, well formed or not, no sequence of
delivery steps goes on for ever, in whatever order and whatever the
deduplication lookups answer. -/
theorem flood_dies_out (run : Nat → FloodState Place Store) :
    ∃ n, ¬ DeliveryStep (run n) (run (n + 1)) := by
  by_contra endless
  push Not at endless
  obtain ⟨last, ⟨n, rfl⟩, minimal⟩ :=
    delivery_well_founded.has_min (Set.range run) ⟨run 0, 0, rfl⟩
  exact minimal (run (n + 1)) ⟨n + 1, rfl⟩ (endless n)

end Termination

end Delivery

end BitChat.Flood
