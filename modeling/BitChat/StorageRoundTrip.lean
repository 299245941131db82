import BitChat.MeshNetwork
import BitChat.StoreAndForward

/-!
# Stored messages come back

The row of a message is a second encoding of it, beside the wire format. A
message leaves a router twice: at once, when it is broadcast or relayed, and
later from its row, when a tick rebroadcasts it. The row has no column for
the timestamp, so the two transmissions have the same bytes exactly if the
message was stored in the second it was made.
-/

namespace BitChat.StorageRoundTrip

open BitChat.WireMessage BitChat.PendingStorage BitChat.MeshRouter BitChat.PeerForwarding
open BitChat.MeshNetwork BitChat.StoreAndForward

set_option autoImplicit false

/-- Some call that stores `msg` hands `data` to the transport: a broadcast of
it, or a receive that relays it. -/
inductive ForwardedAtOnce (msg : BcMessage) (data : List UInt8) : Prop where
  | broadcast (node : Node PendingMessages) (env : CallEnv) (peer : Pubkey) (rc : Rc)
      (sent : .send peer data rc ∈ (bcRouterBroadcast node env msg).events)
  | receive (node : Node PendingMessages) (env : CallEnv) (received : List UInt8)
      (peer : Pubkey) (rc storeRc : Rc)
      (stored : .store msg storeRc ∈ (bcRouterReceive node env received).events)
      (sent : .send peer data rc ∈ (bcRouterReceive node env received).events)

/-- Some tick over `table` that reads its rows at `now` hands `data` to the
transport, a datagram with this uuid. -/
structure Rebroadcast (table : PendingMessages) (now : UInt64) (uuid : Uuid) (data : List UInt8) :
    Prop where
  sent : ∃ (node : Node PendingMessages) (env : TickEnv) (peer : Pubkey) (rc : Rc),
    node.store = table ∧ node.router.storage = some sqliteStorage ∧ env.pendingNow = now ∧
      .send peer data rc ∈ (tickRebroadcast node env).2
  uuid : data.take 16 = uuid.toList

/-- A message stored at `storedAt` into `table` comes back from the query at
`now`, after `calls`, exactly once and unchanged, and what a tick then
rebroadcasts for it are the very bytes that are forwarded when it is stored. -/
def RoundTrips (table : PendingMessages) (msg : BcMessage) (storedAt : UInt64)
    (calls : List StorageCall) (now : UInt64) : Prop :=
  let final := calls.foldl StorageCall.run (sqliteStoreMessage storedAt msg table).2
  ((sqliteGetPending now allocates none final).2.filter fun copy =>
      decide (copy.uuid = msg.uuid)) = [msg] ∧
    ∃ bytes, (∀ data, Rebroadcast final now msg.uuid data ↔ data = bytes) ∧
      ∀ data, ForwardedAtOnce msg data ↔ data = bytes

def connectedNode (table : PendingMessages) : Node PendingMessages where
  router := { loadedNode.router with peers := [neighbour 0] }
  store := table

theorem connected_forwards (table : PendingMessages) (now : UInt64) (uuid : Uuid)
    (data : List UInt8) :
    .send (neighbour 0).pubkey data .ok ∈
      (forwardToPeers ((connectedNode table).router.mark now uuid) (quietEnv now).sendRc
        data).2 := by
  have sends : Sends ((connectedNode table).router.mark now uuid) := rfl
  have accepting : ∀ i, (quietEnv now).sendRc i = .ok := fun _ => rfl
  rw [forward_to_peers_accepting data sends accepting]
  exact List.mem_singleton_self _

theorem forwarded_at_once_iff (msg : BcMessage) (data : List UInt8) :
    ForwardedAtOnce msg data ↔ data = wireBytes msg := by
  constructor
  · rintro (⟨node, env, peer, rc, sent⟩ | ⟨node, env, received, peer, rc, storeRc, stored, sent⟩)
    · rcases broadcast_events node env sent with ⟨_, _, forwarded⟩ | ⟨_, wrong⟩
      · cases forwarded
        rfl
      · cases wrong
    · obtain ⟨parsed, accepted, -, storedNew⟩ := receive_event node env stored
      obtain ⟨again, acceptedAgain, -, sentNew⟩ := receive_event node env sent
      have same : parsed = again := Option.some.inj (accepted.symm.trans acceptedAgain)
      obtain ⟨-, ⟨wrong, -⟩ | ⟨_, hopped⟩ | ⟨_, _, wrong⟩⟩ := receive_new_events node env storedNew
      · cases wrong
      · cases hopped
        rw [same]
        exact (receive_new_sends node env sentNew).2
      · cases wrong
  · intro bytes
    refine .broadcast (connectedNode KeyedTable.empty) (quietEnv 0) (neighbour 0).pubkey .ok ?_
    rcases broadcast_cases (connectedNode KeyedTable.empty) (quietEnv 0) msg with
      ⟨refused, -⟩ | ⟨-, result⟩
    · cases refused
    · rw [result, bytes]
      exact List.mem_append_left _ (connected_forwards _ _ _ _)

theorem rebroadcast_iff {table : PendingMessages} {now : UInt64} {row : PendingRow}
    (member : row ∈ table.rows) (unexpired : (now.toNat : Int) ≤ row.expiresAt)
    (data : List UInt8) :
    Rebroadcast table now row.uuid data ↔ data = wireBytes (rowMessage row) := by
  constructor
  · rintro ⟨⟨node, env, peer, rc, store, storage, -, sent⟩, uuid⟩
    obtain ⟨other, inRows, _, _, resent⟩ := rebroadcast_from_rows (.inr storage) sent
    cases resent
    rw [wire_bytes_take] at uuid
    rw [store] at inRows
    have sameKey : other.uuid = row.uuid := List.Vector.toList_injective uuid
    rw [List.inj_on_of_nodup_map table.keyed inRows member sameKey]
  · intro bytes
    let round : Round := ⟨connectedNode table, { quietTick now with sfNow := 3 }⟩
    have late : (3 : UInt64) - 0 ≥ bcSfRebroadcastSec := by decide
    have due : Due round.node.router round.env := ⟨rfl, Nat.zero_lt_one, late⟩
    have holds : round.Holds row := ⟨member, unexpired⟩
    have memory : round.Allocates row := ⟨fun _ _ => rfl, rfl⟩
    obtain ⟨rc, sent⟩ := (round_serves_iff rfl due rfl (fun _ _ => rfl) holds).mpr
      ⟨memory, List.mem_singleton_self (neighbour 0).pubkey⟩
    rw [bytes]
    exact ⟨⟨_, round.env, _, rc, rfl, rfl, rfl, sent⟩, wire_bytes_take _⟩

/-- The row format has no room for the creation time: the round trip is the
identity exactly on messages that are stored in the second they were made. -/
theorem round_trips_iff (table : PendingMessages) (msg : BcMessage) (storedAt : UInt64)
    (calls : List StorageCall) (now : UInt64)
    (size : msg.payload.length < 2 ^ 31)
    (newRow : ¬ KeyedTable.hasKey table msg.uuid)
    (between : ∀ call ∈ calls, call.Between storedAt now msg.uuid)
    (upper : now.toNat ≤ storedAt.toNat + 72 * 3600) :
    RoundTrips table msg storedAt calls now ↔ msg.timestamp = storedAt := by
  have unexpired : (now.toNat : Int) ≤ (storedRow storedAt msg).expiresAt := by
    simp only [storedRow, storageDefaultRetentionSec]
    omega
  have kept := storage_calls_keep (storedRow storedAt msg) calls between unexpired
    (sqliteStoreMessage storedAt msg table).2 (KeyedTable.insert_new newRow)
  have copies := pending_copies kept unexpired
  have resent := rebroadcast_iff kept unexpired
  have stored : (storedRow storedAt msg).uuid = msg.uuid := rfl
  rw [stored, row_message_stored storedAt msg size] at copies
  rw [stored, row_message_stored storedAt msg size] at resent
  simp only [RoundTrips, copies]
  constructor
  · rintro ⟨same, -⟩
    exact (congrArg BcMessage.timestamp (List.singleton_inj.mp same)).symm
  · intro same
    rw [← same] at resent ⊢
    exact ⟨rfl, wireBytes msg, resent, forwarded_at_once_iff msg⟩

theorem round_trips_fresh_store :
    RoundTrips KeyedTable.empty agedMessage 5
      [.store 6 { agedMessage with uuid := List.Vector.replicate 16 8 }, .evict 7 0] 100 := by
  refine (round_trips_iff _ _ _ _ _ ?_ ?_ ?_ ?_).mpr rfl
  · decide
  · simp [KeyedTable.hasKey, KeyedTable.empty]
  · intro call member
    rcases List.mem_cons.mp member with rfl | later
    · exact ⟨by decide, by decide⟩
    · rw [List.mem_singleton.mp later]
      exact ⟨by decide, by decide⟩
  · decide

theorem relayed_message_changes_timestamp :
    ¬ RoundTrips KeyedTable.empty agedMessage 100 [] 100 := by
  intro trips
  have changed := congrArg (List.map BcMessage.timestamp) trips.1
  revert changed
  decide

end BitChat.StorageRoundTrip
