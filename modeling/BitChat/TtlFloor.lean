import BitChat.MeshNetwork
import BitChat.Flood

/-!
# Datagrams that are dead on arrival

The hop count is decremented when a message is received, after the check
that it is not zero. So the last hop turns a TTL of one into zero, and the
router still stores the message and forwards it. Every other message that is
sent, at once or from storage, has a TTL of at least one.
-/

namespace BitChat.TtlFloor

open BitChat.WireMessage BitChat.DedupTable BitChat.PendingStorage BitChat.MeshRouter
open BitChat.MeshNetwork BitChat.Flood TransitionSystem

set_option autoImplicit false

section Networks

variable {Place : Type}

/-- As `meshSystem`, with or without storage at each node. -/
def anyMeshSystem [DecidableEq Place] (configs : Place → Option BcRouterConfig) :
    System (MeshState Place) (Place × MeshCall Place) where
  initial state :=
    (∀ place, (state.node place).store = KeyedTable.empty ∧
      ∃ alloc transport storage localPubkey,
        (storage = none ∨ storage = some sqliteStorage) ∧
        bcRouterCreate alloc transport storage localPubkey (configs place) =
          some (state.node place).router) ∧
    state.sent = [] ∧ state.hops = [] ∧ state.broadcasts = [] ∧ state.delivered = []
  step := (meshSystem configs).step

def LiveBroadcasts (_state : MeshState Place) : Place × MeshCall Place → Prop
  | (_, .broadcast _ msg) => msg.ttl ≠ 0
  | _ => True

/-- No router has to relay a message on its last hop: what it receives with
TTL 1 it has seen before, or it is the receiver. -/
def NoLastHopRelay (state : MeshState Place) : Place × MeshCall Place → Prop
  | (place, .receive _ env data) => ∀ msg,
      bcMessageDeserialize env.alloc ⟨data, env.beyond⟩ = some msg → msg.ttl = 1 →
        dedupContains (state.node place).router.dedupTable (state.node place).router.dedupCap
            msg.uuid = true ∨
          msg.receiverPubkey = (state.node place).router.localPubkey
  | _ => True

def Relaying (state : MeshState Place) (label : Place × MeshCall Place) : Prop :=
  LiveBroadcasts state label ∧ NoLastHopRelay state label

def SentAlive (state : MeshState Place) : Prop :=
  ∀ transmission ∈ state.sent, 1 ≤ ttlByte transmission.data

structure AllAlive (state : MeshState Place) : Prop where
  storage : ∀ place, OnSqlite (state.node place).router
  stored : ∀ place, ∀ row ∈ (state.node place).store.rows, (rowMessage row).ttl ≠ 0
  sent : SentAlive state

theorem alive_byte {msg : BcMessage} (alive : msg.ttl ≠ 0) : 1 ≤ ttlByte (wireBytes msg) := by
  rw [ttl_byte_wire]
  have hop := hop_ttl alive
  omega

theorem hopped_alive {ttl : UInt8} (alive : ttl ≠ 0) (notLast : ttl ≠ 1) : ttl - 1 ≠ 0 := by
  intro dead
  apply notLast
  have hop := hop_ttl alive
  rw [dead] at hop
  exact UInt8.toNat_inj.mp hop.symm

section Calls

variable {state : MeshState Place} {place : Place} {call : MeshCall Place}

theorem receive_alive {sender : Place} {env : CallEnv} {data : List UInt8} {msg : BcMessage}
    (relaying : NoLastHopRelay state (place, .receive sender env data))
    (parsed : bcMessageDeserialize env.alloc ⟨data, env.beyond⟩ = some msg)
    (unseen : dedupContains (state.node place).router.dedupTable
      (state.node place).router.dedupCap msg.uuid = false)
    (alive : msg.ttl ≠ 0) (other : msg.receiverPubkey ≠ (state.node place).router.localPubkey) :
    msg.ttl - 1 ≠ 0 := by
  apply hopped_alive alive
  intro last
  rcases relaying msg parsed last with seen | mine
  · rw [unseen] at seen
    cases seen
  · exact other mine

theorem call_sends_alive {peer : Pubkey} {data : List UInt8} {rc : Rc}
    (inv : AllAlive state) (relaying : Relaying state (place, call))
    (sent : Event.send peer data rc ∈ (call.run (state.node place)).2) : 1 ≤ ttlByte data := by
  cases call with
  | broadcast env msg =>
      rcases broadcast_events _ env sent with ⟨_, _, forwarded⟩ | ⟨_, stored⟩
      · cases forwarded
        exact alive_byte relaying.1
      · cases stored
  | receive sender env received =>
      simp only [MeshCall.run] at sent
      rcases receive_relay_cases (state.node place) env received with
        ⟨silent, -⟩ | ⟨msg, parsed, unseen, alive, other, sends, -⟩
      · exact absurd sent (silent peer data rc)
      · rw [sends peer data rc sent]
        exact alive_byte (receive_alive relaying.2 parsed unseen alive other)
  | rebroadcast env =>
      obtain ⟨row, inRows, _, _, bytes⟩ := rebroadcast_from_rows (inv.storage place) sent
      cases bytes
      exact alive_byte (inv.stored place row inRows)
  | evict now => cases sent
  | expire now => cases sent
  | addPeer now added => cases sent
  | setOnMessage callback => cases sent

theorem call_rows_alive {row : PendingRow} (inv : AllAlive state)
    (relaying : Relaying state (place, call))
    (member : row ∈ (call.run (state.node place)).1.store.rows) : (rowMessage row).ttl ≠ 0 := by
  cases call with
  | receive sender env data =>
      simp only [MeshCall.run] at member
      rcases receive_relay_cases (state.node place) env data with
        ⟨-, same⟩ | ⟨msg, parsed, unseen, alive, other, -, same⟩
      · rw [same] at member
        exact inv.stored place row member
      · rw [same] at member
        have storage : OnSqlite ((state.node place).router.mark env.now msg.uuid) :=
          inv.storage place
        rcases store_if_present_rows member storage with before | new
        · exact inv.stored place row before
        · rw [new, row_message_ttl]
          exact receive_alive relaying.2 parsed unseen alive other
  | broadcast env msg =>
      rcases run_rows (inv.storage place) member with before | ⟨now, copy, emitted, new⟩
      · exact inv.stored place row before
      · cases emitted
        rw [new, row_message_ttl]
        exact relaying.1
  | rebroadcast env =>
      simp only [MeshCall.run, rebroadcast_store] at member
      exact inv.stored place row member
  | expire now =>
      rcases run_rows (inv.storage place) member with before | ⟨_, _, emitted, _⟩
      · exact inv.stored place row before
      · cases emitted
  | evict now => exact inv.stored place row member
  | addPeer now peer => exact inv.stored place row member
  | setOnMessage callback => exact inv.stored place row member

end Calls

variable [DecidableEq Place]

theorem all_alive_after {state : MeshState Place} {place : Place} {call : MeshCall Place}
    (inv : AllAlive state) (relaying : Relaying state (place, call)) :
    AllAlive (state.after place call) := by
  refine ⟨?_, ?_, ?_⟩
  · intro other
    rw [OnSqlite, (after_setup state place call other).storage]
    exact inv.storage other
  · intro other row member
    by_cases here : other = place
    · rw [here, after_node_here] at member
      exact call_rows_alive inv relaying member
    · rw [after_node_elsewhere state place call here] at member
      exact inv.stored other row member
  · intro transmission member
    rcases List.mem_append.mp member with before | new
    · exact inv.sent transmission before
    · obtain ⟨-, peer, rc, event⟩ := mem_transmissions new
      exact call_sends_alive inv relaying event

theorem all_alive_initially {configs : Place → Option BcRouterConfig} {state : MeshState Place}
    (created : (anyMeshSystem configs).initial state) : AllAlive state := by
  obtain ⟨nodes, sent, -⟩ := created
  refine ⟨?_, ?_, ?_⟩
  · intro place
    obtain ⟨-, alloc, transport, storage, localPubkey, which, made⟩ := nodes place
    rw [created_eq made]
    exact which
  · intro place row member
    rw [(nodes place).1] at member
    cases member
  · simp [SentAlive, sent]

/-- In every run of any network in which live messages are broadcast and no
router relays on the last hop, every datagram that is handed to a transport
has a TTL of at least one. -/
theorem sent_alive_without_last_hops (configs : Place → Option BcRouterConfig)
    {state : MeshState Place}
    (reached : Reachable (guarded (anyMeshSystem configs) Relaying) state) :
    SentAlive state := by
  have inv : AllAlive state := by
    apply Reachable.invariant AllAlive _ _ reached
    · exact fun _ created => all_alive_initially created
    · rintro before ⟨place, call⟩ after inv ⟨⟨-, result⟩, relaying⟩
      rw [result]
      exact all_alive_after inv relaying
  exact inv.sent

theorem reachable_any {configs : Place → Option BcRouterConfig}
    {guard : MeshState Place → Place × MeshCall Place → Prop} {state : MeshState Place}
    (reached : Reachable (guarded (meshSystem configs) guard) state) :
    Reachable (guarded (anyMeshSystem configs) guard) state := by
  apply reached.weaken
  · rintro start ⟨nodes, rest⟩
    refine ⟨?_, rest⟩
    intro place
    obtain ⟨empty, alloc, transport, localPubkey, made⟩ := nodes place
    exact ⟨empty, alloc, transport, some sqliteStorage, localPubkey, .inr rfl, made⟩
  · exact fun _ _ _ step => step

end Networks

def originPeer : BcPeer := { receiverPeer with pubkey := List.Vector.replicate 32 1 }

def acquaintedMesh : MeshState Bool :=
  (pairMesh.after false (.addPeer 0 receiverPeer)).after true (.addPeer 0 originPeer)

theorem acquainted_mesh_reachable
    {guard : MeshState Bool → Bool × MeshCall Bool → Prop}
    (meets : ∀ state place now peer, guard state (place, .addPeer now peer)) :
    Reachable (guarded (meshSystem fun _ => none) guard) acquaintedMesh := by
  have start : Reachable (guarded (meshSystem fun _ => none) guard) pairMesh :=
    .start pair_mesh_initial
  have met := reachable_after false (.addPeer 0 receiverPeer) start trivial (meets _ _ _ _)
  exact reachable_after true (.addPeer 0 originPeer) met trivial (meets _ _ _ _)

def strangerMessage (ttl : UInt8) : BcMessage :=
  { probeMessage 0 with ttl := ttl, receiverPubkey := List.Vector.replicate 32 3 }

def relayedMesh (ttl : UInt8) : MeshState Bool :=
  (acquaintedMesh.after false (.broadcast (quietEnv 0) (strangerMessage ttl))).after true
    (.receive false (quietEnv 0) (wireBytes (strangerMessage ttl)))

theorem relayed_mesh_reachable
    {guard : MeshState Bool → Bool × MeshCall Bool → Prop} (ttl : UInt8)
    (meets : ∀ state place now peer, guard state (place, .addPeer now peer))
    (broadcasts : guard acquaintedMesh (false, .broadcast (quietEnv 0) (strangerMessage ttl)))
    (receives : ∀ state,
      guard state (true, .receive false (quietEnv 0) (wireBytes (strangerMessage ttl)))) :
    Reachable (guarded (meshSystem fun _ => none) guard) (relayedMesh ttl) := by
  have known := acquainted_mesh_reachable meets
  have sent := reachable_after false (.broadcast (quietEnv 0) (strangerMessage ttl)) known trivial
    broadcasts
  apply reachable_after true _ sent _ (receives _)
  exact ⟨_, List.mem_singleton_self _, rfl, .inl rfl⟩

def repeatedMesh : MeshState Bool :=
  ((relayedMesh 10).after true (.rebroadcast (quietTick 100))).after false
    (.rebroadcast (quietTick 200))

/-- The broadcast, the relay and both rebroadcasts are alive. -/
theorem repeated_mesh_sent_alive :
    repeatedMesh.sent.map (fun transmission => ttlByte transmission.data) = [10, 9, 9, 10] ∧
      SentAlive repeatedMesh := by
  refine ⟨by decide +kernel, ?_⟩
  apply sent_alive_without_last_hops fun _ => none
  apply reachable_any
  have relayed : Reachable (guarded (meshSystem fun _ => none) Relaying) (relayedMesh 10) := by
    apply relayed_mesh_reachable
    · exact fun _ _ _ _ => ⟨trivial, trivial⟩
    · exact ⟨(by decide : (10 : UInt8) ≠ 0), trivial⟩
    · refine fun _ => ⟨trivial, ?_⟩
      intro msg parsed last
      have sameTtl := ttl_byte_parsed parsed
      rw [ttl_byte_wire, last] at sameTtl
      exact absurd sameTtl (by decide)
  have repeated := reachable_after true (.rebroadcast (quietTick 100)) relayed trivial
    ⟨trivial, trivial⟩
  exact reachable_after false (.rebroadcast (quietTick 200)) repeated trivial ⟨trivial, trivial⟩

/-- On its last hop the message is relayed with TTL 0. -/
theorem last_hop_sent_dead :
    Reachable (guarded (anyMeshSystem fun _ => none) LiveBroadcasts) (relayedMesh 1) ∧
      ¬ SentAlive (relayedMesh 1) := by
  constructor
  · apply reachable_any
    apply relayed_mesh_reachable
    · exact fun _ _ _ _ => trivial
    · exact (by decide : (1 : UInt8) ≠ 0)
    · exact fun _ => trivial
  · unfold SentAlive
    decide +kernel

end BitChat.TtlFloor
