import BitChat.PeerForwarding
import BitChat.RouterRuns

/-!
# Whom the rebroadcast of stored messages serves

A rebroadcast round is a tick that passes the rate limit. Every round walks
the peer table from its first entry and stops after `fanout` successful
sends, and entries never move or leave. On a transport that accepts every
send the same first `fanout` peers are therefore served in every round, and
the others in none, however many rounds there are.
-/

namespace BitChat.StoreAndForward

open BitChat.WireMessage BitChat.PendingStorage BitChat.MeshRouter BitChat.PeerForwarding
open BitChat.RouterRuns TransitionSystem

set_option autoImplicit false

def anyRouterSystem : System (Node PendingMessages) RouterCall where
  initial node := ∃ alloc transport storage localPubkey config,
    bcRouterCreate alloc transport storage localPubkey config = some node.router
  step node call after := after = call.run node

/-! ### The peer table -/

structure SameForwarding (before after : BcRouter PendingMessages) : Prop where
  transport : after.transport = before.transport
  storage : after.storage = before.storage
  config : after.config = before.config
  peers : after.peers = before.peers

theorem SameForwarding.of_fixture {before after : BcRouter PendingMessages}
    (fixture : SameFixture before after) : SameForwarding before after :=
  ⟨fixture.transport, fixture.storage, fixture.config, fixture.peers⟩

theorem SameForwarding.trans {first second third : BcRouter PendingMessages}
    (start : SameForwarding first second) (rest : SameForwarding second third) :
    SameForwarding first third where
  transport := rest.transport.trans start.transport
  storage := rest.storage.trans start.storage
  config := rest.config.trans start.config
  peers := rest.peers.trans start.peers

theorem run_forwarding (node : Node PendingMessages) (call : RouterCall) :
    SameForwarding node.router (call.run node).router ∨ ∃ now peer, call = .addPeer now peer := by
  cases call with
  | broadcast env msg => exact .inl (.of_fixture (broadcast_fixture node env msg))
  | receive env data => exact .inl (.of_fixture (receive_fixture node env data))
  | tick env => exact .inl (.of_fixture (tick_fixture node env))
  | addPeer now peer => exact .inr ⟨now, peer, rfl⟩
  | setOnMessage callback => exact .inl ⟨rfl, rfl, rfl, rfl⟩

theorem peers_distinct {node : Node PendingMessages} (reached : Reachable anyRouterSystem node) :
    (node.router.peers.map BcPeer.pubkey).Nodup := by
  apply Reachable.invariant (fun n => (n.router.peers.map BcPeer.pubkey).Nodup) _ _ reached
  · rintro created ⟨alloc, transport, storage, localPubkey, config, made⟩
    rw [created_peers made]
    exact List.nodup_nil
  · intro before call after distinct step
    rw [show after = call.run before from step]
    rcases run_forwarding before call with same | ⟨now, peer, added⟩
    · rw [same.peers]
      exact distinct
    · rw [added, RouterCall.run, add_peer_keys]
      exact BoundedRegistry.enroll_nodup peer.pubkey distinct

/-! ### Rounds -/

def Due (router : BcRouter PendingMessages) (env : TickEnv) : Prop :=
  (router.storage.bind BcStorage.getPending).isSome = true ∧ 0 < router.peers.length ∧
    env.sfNow - router.lastSfTick ≥ bcSfRebroadcastSec

instance (router : BcRouter PendingMessages) (env : TickEnv) : Decidable (Due router env) :=
  inferInstanceAs (Decidable (_ ∧ _ ∧ _))

/-- A rebroadcast round: the node when the tick comes to its third part. -/
structure Round where
  node : Node PendingMessages
  env : TickEnv

def Round.events (round : Round) : List Event := (tickRebroadcast round.node round.env).2

def polledNode (node : Node PendingMessages) (env : TickEnv) : Node PendingMessages :=
  (tickPoll (tickEvict node env.evictNow) env.arrivals).1

def roundOf (node : Node PendingMessages) : RouterCall → List Round
  | .tick env =>
      if Due (polledNode node env).router env then [⟨polledNode node env, env⟩] else []
  | _ => []

def roundsOf : Node PendingMessages → List RouterCall → List Round
  | _, [] => []
  | node, call :: rest => roundOf node call ++ roundsOf (call.run node) rest

theorem round_of_tick (node : Node PendingMessages) (env : TickEnv) :
    (bcRouterTick node env).2 = (tickPoll (tickEvict node env.evictNow) env.arrivals).2 ++
      (Round.mk (polledNode node env) env).events := rfl

theorem mem_round_of {node : Node PendingMessages} {call : RouterCall} {round : Round}
    (member : round ∈ roundOf node call) :
    ∃ env, call = .tick env ∧ round = ⟨polledNode node env, env⟩ ∧
      Due (polledNode node env).router env := by
  cases call with
  | tick env =>
      simp only [roundOf] at member
      split_ifs at member with due
      · exact ⟨env, rfl, List.mem_singleton.mp member, due⟩
      · cases member
  | _ => cases member

theorem rounds_forwarding {node : Node PendingMessages} (calls : List RouterCall)
    (noPeers : ∀ call ∈ calls, ∀ now peer, call ≠ .addPeer now peer) :
    ∀ round ∈ roundsOf node calls, SameForwarding node.router round.node.router ∧
      Due round.node.router round.env := by
  induction calls generalizing node with
  | nil => exact fun round member => nomatch member
  | cons call rest ih =>
      intro round member
      rcases List.mem_append.mp member with here | later
      · obtain ⟨env, -, same, due⟩ := mem_round_of here
        have evicted := evict_fixture node env.evictNow
        rw [same]
        exact ⟨.of_fixture (evicted.trans (poll_fixture _ env.arrivals)), due⟩
      · obtain ⟨same, due⟩ :=
          ih (fun other inRest => noPeers other (List.mem_cons_of_mem _ inRest)) round later
        rcases run_forwarding node call with first | ⟨now, peer, added⟩
        · exact ⟨first.trans same, due⟩
        · exact absurd added (noPeers call List.mem_cons_self now peer)

/-! ### What a round sends -/

theorem mem_rebroadcast_loop {router : BcRouter PendingMessages} {bufAlloc : Nat → Bool}
    {sendRc : Nat → Nat → Rc} {event : Event} (msgs : List BcMessage) (j : Nat) :
    event ∈ rebroadcastLoop router bufAlloc sendRc msgs j ↔
      ∃ k msg, msgs[k]? = some msg ∧ bufAlloc (j + k) = true ∧
        event ∈ (forwardToPeers router (sendRc (j + k)) (wireBytes msg)).2 := by
  induction msgs generalizing j with
  | nil => simp [rebroadcastLoop]
  | cons msg rest ih =>
      rw [rebroadcastLoop, serialize_fits]
      simp only [and_true, List.mem_append, ih]
      constructor
      · rintro (here | ⟨k, other, found, buffer, sent⟩)
        · split_ifs at here with buffer
          · exact ⟨0, msg, rfl, buffer, here⟩
          · cases here
        · have index : j + 1 + k = j + (k + 1) := by omega
          rw [index] at buffer sent
          exact ⟨k + 1, other, found, buffer, sent⟩
      · rintro ⟨k, other, found, buffer, sent⟩
        cases k with
        | zero =>
            cases found
            have here : bufAlloc j = true := buffer
            rw [if_pos here]
            exact .inl sent
        | succ k =>
            have index : j + (k + 1) = j + 1 + k := by omega
            rw [index] at buffer sent
            exact .inr ⟨k, other, found, buffer, sent⟩

def Round.rows (round : Round) : List PendingRow :=
  pendingRows round.env.pendingNow none round.node.store

def Round.Reads (round : Round) : Prop :=
  AllocatesFrom round.env.pendingAlloc 0 (pendingAllocations round.rows 0 0)

instance (round : Round) : Decidable round.Reads :=
  inferInstanceAs (Decidable (AllocatesFrom _ _ _))

theorem round_events_eq {round : Round}
    (storage : round.node.router.storage = some sqliteStorage)
    (due : Due round.node.router round.env) :
    round.events =
      if round.Reads then
        rebroadcastLoop { round.node.router with lastSfTick := round.env.sfNow }
          round.env.bufAlloc round.env.sendRc (round.rows.map rowMessage) 0
      else [] := by
  have query : round.node.router.storage.bind BcStorage.getPending = some sqliteGetPending := by
    rw [storage]
    rfl
  have gate : 0 < round.node.router.peers.length ∧
      round.env.sfNow - round.node.router.lastSfTick ≥ bcSfRebroadcastSec := due.2
  have memory : round.Reads ↔ AllocatesFrom round.env.pendingAlloc 0
      (pendingAllocations (pendingRows round.env.pendingNow none round.node.store) 0 0) := Iff.rfl
  simp only [Round.events, tickRebroadcast, query, if_pos gate, get_pending_eq]
  by_cases reads : round.Reads
  · rw [if_pos reads, if_pos (memory.mp reads)]
    rfl
  · rw [if_neg reads, if_neg (reads ∘ memory.mpr)]
    rfl

theorem mem_round_events {round : Round} {event : Event}
    (storage : round.node.router.storage = some sqliteStorage)
    (due : Due round.node.router round.env) :
    event ∈ round.events ↔ round.Reads ∧ ∃ k row, round.rows[k]? = some row ∧
      round.env.bufAlloc k = true ∧
      event ∈ (forwardToPeers round.node.router (round.env.sendRc k)
        (wireBytes (rowMessage row))).2 := by
  rw [round_events_eq storage due]
  split_ifs with reads
  · rw [mem_rebroadcast_loop]
    simp only [Nat.zero_add, List.getElem?_map, Option.map_eq_some_iff]
    constructor
    · rintro ⟨k, msg, ⟨row, found, rfl⟩, buffer, sent⟩
      exact ⟨reads, k, row, found, buffer, sent⟩
    · rintro ⟨-, k, row, found, buffer, sent⟩
      exact ⟨k, rowMessage row, ⟨row, found, rfl⟩, buffer, sent⟩
  · simp [reads]

def Round.Holds (round : Round) (row : PendingRow) : Prop :=
  row ∈ round.node.store.rows ∧ (round.env.pendingNow.toNat : Int) ≤ row.expiresAt

/-- The round gets the memory to read the rows and to serialise this one. -/
def Round.Allocates (round : Round) (row : PendingRow) : Prop :=
  round.Reads ∧ round.env.bufAlloc (round.rows.idxOf row) = true

theorem Round.Holds.mem {round : Round} {row : PendingRow} (holds : round.Holds row) :
    row ∈ round.rows := by
  simp only [Round.rows, pendingRows, List.mem_filter]
  exact ⟨holds.1, by simpa using holds.2⟩

theorem row_index {round : Round} {row other : PendingRow} {k : Nat} (member : row ∈ round.rows)
    (found : round.rows[k]? = some other)
    (bytes : wireBytes (rowMessage other) = wireBytes (rowMessage row)) :
    k = round.rows.idxOf row := by
  have keyed : (round.rows.map PendingRow.uuid).Nodup :=
    List.Nodup.sublist (List.filter_sublist.map _) round.node.store.keyed
  have uuid : other.uuid = row.uuid := wire_bytes_uuid bytes
  have same : other = row :=
    List.inj_on_of_nodup_map keyed (List.mem_of_getElem? found) member uuid
  obtain ⟨bound, at_k⟩ := List.getElem?_eq_some_iff.mp found
  rw [← same, ← at_k, (List.Nodup.of_map _ keyed).idxOf_getElem k bound]

/-- One round serves the first `fanout` peers, if memory allows, and nobody
else. -/
theorem round_serves_iff {round : Round} {row : PendingRow} {key : Pubkey}
    (storage : round.node.router.storage = some sqliteStorage)
    (due : Due round.node.router round.env)
    (sending : (round.node.router.transport.map BcTransport.send).getD false = true)
    (accepting : ∀ k i, round.env.sendRc k i = .ok) (holds : round.Holds row) :
    (∃ rc, .send key (wireBytes (rowMessage row)) rc ∈ round.events) ↔
      round.Allocates row ∧
        key ∈ (round.node.router.peers.take round.node.router.config.fanout.toNat).map
          BcPeer.pubkey := by
  have served : ∀ k other, (forwardToPeers round.node.router (round.env.sendRc k)
      (wireBytes (rowMessage other))).2 =
      (round.node.router.peers.take round.node.router.config.fanout.toNat).map fun peer =>
        .send peer.pubkey (wireBytes (rowMessage other)) .ok :=
    fun k other => forward_to_peers_accepting _ sending (accepting k)
  simp only [mem_round_events storage due, served, List.mem_map]
  constructor
  · rintro ⟨rc, reads, k, other, found, buffer, peer, inTable, sent⟩
    simp only [Event.send.injEq] at sent
    obtain ⟨same, bytes, -⟩ := sent
    rw [row_index holds.mem found bytes] at buffer
    exact ⟨⟨reads, buffer⟩, peer, inTable, same⟩
  · rintro ⟨⟨reads, buffer⟩, peer, inTable, sent⟩
    have found : round.rows[round.rows.idxOf row]? = some row :=
      List.getElem?_idxOf holds.mem
    exact ⟨.ok, reads, _, row, found, buffer, peer, inTable, by rw [sent]⟩

/-! ### Many rounds -/

/-- As many rounds as there are peers, no peer added in between, every send
of a round accepted, and `row` stored and unexpired throughout. -/
structure Rebroadcasting (node : Node PendingMessages) (calls : List RouterCall)
    (row : PendingRow) : Prop where
  reached : Reachable anyRouterSystem node
  storage : node.router.storage = some sqliteStorage
  sending : (node.router.transport.map BcTransport.send).getD false = true
  peers : 1 ≤ node.router.peers.length
  fanout : 1 ≤ node.router.config.fanout.toNat
  noPeers : ∀ call ∈ calls, ∀ now peer, call ≠ .addPeer now peer
  rounds : (roundsOf node calls).length = node.router.peers.length
  accepting : ∀ round ∈ roundsOf node calls, ∀ k i, round.env.sendRc k i = .ok
  holds : ∀ round ∈ roundsOf node calls, round.Holds row

def NoneStarved (node : Node PendingMessages) (calls : List RouterCall) (row : PendingRow) : Prop :=
  ∀ peer ∈ node.router.peers, ∃ round ∈ roundsOf node calls, ∃ rc,
    .send peer.pubkey (wireBytes (rowMessage row)) rc ∈ round.events

theorem none_starved_reduces {node : Node PendingMessages} {calls : List RouterCall}
    {row : PendingRow} (run : Rebroadcasting node calls row) :
    NoneStarved node calls row ↔
      ∀ peer ∈ node.router.peers,
        peer.pubkey ∈ (node.router.peers.take node.router.config.fanout.toNat).map BcPeer.pubkey ∧
          ∃ round ∈ roundsOf node calls, round.Allocates row := by
  have serves : ∀ round ∈ roundsOf node calls, ∀ key : Pubkey,
      (∃ rc, .send key (wireBytes (rowMessage row)) rc ∈ round.events) ↔ round.Allocates row ∧
        key ∈ (node.router.peers.take node.router.config.fanout.toNat).map BcPeer.pubkey := by
    intro round member key
    obtain ⟨same, due⟩ := rounds_forwarding calls run.noPeers round member
    rw [← same.peers, ← same.config]
    apply round_serves_iff _ due _ (run.accepting round member) (run.holds round member)
    · rw [same.storage]
      exact run.storage
    · rw [same.transport]
      exact run.sending
  constructor
  · intro served peer inTable
    obtain ⟨round, member, sent⟩ := served peer inTable
    obtain ⟨allocates, first⟩ := (serves round member _).mp sent
    exact ⟨first, round, member, allocates⟩
  · intro served peer inTable
    obtain ⟨first, round, member, allocates⟩ := served peer inTable
    exact ⟨round, member, (serves round member _).mpr ⟨allocates, first⟩⟩

/-- Nobody is starved exactly when the peers do not outnumber the fanout and
one of the rounds gets the memory to handle the message. -/
theorem none_starved_iff (node : Node PendingMessages) (calls : List RouterCall) (row : PendingRow)
    (run : Rebroadcasting node calls row) :
    NoneStarved node calls row ↔
      node.router.peers.length ≤ node.router.config.fanout.toNat ∧
        ∃ round ∈ roundsOf node calls, round.Allocates row := by
  rw [none_starved_reduces run]
  constructor
  · intro served
    have distinct := peers_distinct run.reached
    have inside : node.router.peers.map BcPeer.pubkey ⊆
        (node.router.peers.take node.router.config.fanout.toNat).map BcPeer.pubkey := by
      intro key member
      obtain ⟨peer, inTable, same⟩ := List.mem_map.mp member
      rw [← same]
      exact (served peer inTable).1
    have count := (List.subperm_of_subset distinct inside).length_le
    rw [List.length_map, List.length_map, List.length_take] at count
    obtain ⟨first, inTable⟩ := List.exists_mem_of_length_pos run.peers
    exact ⟨by omega, (served first inTable).2⟩
  · rintro ⟨enough, allocates⟩ peer inTable
    rw [List.take_of_length_le enough]
    exact ⟨List.mem_map_of_mem inTable, allocates⟩

def neighbour (i : Nat) : BcPeer where
  pubkey := List.Vector.replicate 32 (UInt8.ofNat i)
  lastSeen := 0
  transport := .wifiDirect
  rssi := 0

def loadedNode : Node PendingMessages where
  router :=
    { transport := some ⟨true, false, false⟩
      storage := some sqliteStorage
      config := { fanout := 3, dedupCap := 2, dedupMaxAge := 600 }
      localPubkey := List.Vector.replicate 32 255
      dedupTable := DedupTable.emptyTable
      dedupCap := 2
      peers := []
      onMessage := false
      lastSfTick := 0 }
  store := (sqliteStoreMessage 5 agedMessage KeyedTable.empty).2

def crowdedNode : Nat → Node PendingMessages
  | 0 => loadedNode
  | count + 1 => (RouterCall.addPeer 0 (neighbour count)).run (crowdedNode count)

def timedTicks (count : Nat) : List RouterCall :=
  (List.range count).map fun i => .tick (quietTick (UInt64.ofNat (10 * (i + 1))))

theorem crowded_node_reachable (count : Nat) : Reachable anyRouterSystem (crowdedNode count) := by
  induction count with
  | zero => exact .start ⟨allocates, _, _, _, some ⟨3, 2, 600⟩, rfl⟩
  | succ count ih => exact .next (.addPeer 0 (neighbour count)) ih rfl

theorem round_env_of_call {round : Round} (calls : List RouterCall) {node : Node PendingMessages}
    (member : round ∈ roundsOf node calls) : RouterCall.tick round.env ∈ calls := by
  induction calls generalizing node with
  | nil => cases member
  | cons call rest ih =>
      rcases List.mem_append.mp member with here | later
      · obtain ⟨env, isTick, same, -⟩ := mem_round_of here
        rw [same, isTick]
        exact List.mem_cons_self
      · exact List.mem_cons_of_mem _ (ih later)

theorem crowded_node_router (count : Nat) :
    ∃ peers, (crowdedNode count).router = { loadedNode.router with peers := peers } := by
  induction count with
  | zero => exact ⟨[], rfl⟩
  | succ count ih =>
      obtain ⟨peers, same⟩ := ih
      refine ⟨addPeerEntry 0 (neighbour count) peers peers.length, ?_⟩
      show bcRouterAddPeer (crowdedNode count).router 0 (neighbour count) = _
      rw [same]
      rfl

theorem timed_rebroadcasting {count : Nat} (peers : 1 ≤ (crowdedNode count).router.peers.length)
    (rounds : (roundsOf (crowdedNode count) (timedTicks count)).length =
      (crowdedNode count).router.peers.length)
    (holds : ∀ round ∈ roundsOf (crowdedNode count) (timedTicks count),
      storedRow 5 agedMessage ∈ round.node.store.rows ∧
        (round.env.pendingNow.toNat : Int) ≤ (storedRow 5 agedMessage).expiresAt) :
    Rebroadcasting (crowdedNode count) (timedTicks count) (storedRow 5 agedMessage) := by
  obtain ⟨table, router⟩ := crowded_node_router count
  refine ⟨crowded_node_reachable count, ?_, ?_, peers, ?_, ?_, rounds, ?_, holds⟩
  · rw [router]
    rfl
  · rw [router]
    rfl
  · rw [router]
    show 1 ≤ (3 : UInt8).toNat
    decide
  · intro call member now peer added
    obtain ⟨i, -, tick⟩ := List.mem_map.mp member
    rw [added] at tick
    cases tick
  · intro round member k i
    obtain ⟨i, -, tick⟩ := List.mem_map.mp (round_env_of_call _ member)
    rw [← RouterCall.tick.inj tick]
    rfl

theorem two_peers_served :
    NoneStarved (crowdedNode 2) (timedTicks 2) (storedRow 5 agedMessage) ↔
      (crowdedNode 2).router.peers.length ≤ (crowdedNode 2).router.config.fanout.toNat ∧
        ∃ round ∈ roundsOf (crowdedNode 2) (timedTicks 2),
          round.Allocates (storedRow 5 agedMessage) :=
  none_starved_iff _ _ _
    (timed_rebroadcasting (by decide +kernel) (by decide +kernel) (by decide +kernel))

/-- The fourth of four peers is not given the message in any of four rounds. -/
theorem fourth_peer_starved :
    Rebroadcasting (crowdedNode 4) (timedTicks 4) (storedRow 5 agedMessage) ∧
      ¬ NoneStarved (crowdedNode 4) (timedTicks 4) (storedRow 5 agedMessage) := by
  have run : Rebroadcasting (crowdedNode 4) (timedTicks 4) (storedRow 5 agedMessage) :=
    timed_rebroadcasting (by decide +kernel) (by decide +kernel) (by decide +kernel)
  refine ⟨run, ?_⟩
  intro served
  have first := ((none_starved_reduces run).mp served (neighbour 3) (by decide +kernel)).1
  revert first
  decide +kernel

end BitChat.StoreAndForward
