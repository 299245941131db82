import BitChat.MeshRouter
import BitChat.Library.BoundedRegistry

/-!
# The peer table and the sends it leads to

The keys of the peer table are a bounded registry of the keys that
`bc_router_add_peer` was called with. `forward_to_peers` walks the table from
its first entry, goes past failed sends and stops right after the send that
completes the fanout, so the number of successful sends is known before the
walk: it is the smaller of the fanout and the number of entries whose send
succeeds.
-/

namespace BitChat.PeerForwarding

open BitChat.WireMessage BitChat.PendingStorage BitChat.MeshRouter

set_option autoImplicit false

/-! ### The table -/

structure AddPeer where
  now : UInt64
  peer : BcPeer

def latest (calls : List AddPeer) (key : Pubkey) : Option AddPeer :=
  calls.reverse.find? fun call => decide (call.peer.pubkey = key)

theorem latest_append (calls : List AddPeer) (call : AddPeer) (key : Pubkey) :
    latest (calls ++ [call]) key =
      if call.peer.pubkey = key then some call else latest calls key := by
  unfold latest
  rw [List.reverse_append, List.reverse_singleton, List.singleton_append, List.find?_cons]
  split_ifs with same
  · simp [same]
  · simp [same]

theorem add_peer_entry_keys (now : UInt64) (peer : BcPeer) (peers : List BcPeer) (held : Nat) :
    (addPeerEntry now peer peers held).map BcPeer.pubkey =
      if peer.pubkey ∈ peers.map BcPeer.pubkey then peers.map BcPeer.pubkey
      else if held < bcMaxPeers then peers.map BcPeer.pubkey ++ [peer.pubkey]
      else peers.map BcPeer.pubkey := by
  induction peers with
  | nil =>
      rw [addPeerEntry]
      by_cases room : held < bcMaxPeers <;> simp [room]
  | cons entry rest ih =>
      rw [addPeerEntry]
      by_cases same : entry.pubkey = peer.pubkey
      · simp [same]
      · have other : peer.pubkey ≠ entry.pubkey := fun equal => same equal.symm
        simp only [if_neg same, List.map_cons, ih, List.mem_cons, other, false_or]
        split_ifs <;> rfl

theorem mem_add_peer_entry {now : UInt64} {peer entry : BcPeer} {held : Nat} (peers : List BcPeer)
    (distinct : (peers.map BcPeer.pubkey).Nodup)
    (member : entry ∈ addPeerEntry now peer peers held) :
    (entry.pubkey = peer.pubkey ∧ entry.transport = peer.transport ∧ entry.rssi = peer.rssi) ∨
      (entry.pubkey ≠ peer.pubkey ∧ entry ∈ peers) := by
  induction peers with
  | nil =>
      rw [addPeerEntry] at member
      split_ifs at member
      · rw [List.mem_singleton.mp member]
        exact .inl ⟨rfl, rfl, rfl⟩
      · cases member
  | cons first rest ih =>
      rw [List.map_cons, List.nodup_cons] at distinct
      rw [addPeerEntry] at member
      split_ifs at member with same
      · rcases List.mem_cons.mp member with here | later
        · rw [here]
          exact .inl ⟨rfl, rfl, rfl⟩
        · refine .inr ⟨?_, List.mem_cons_of_mem _ later⟩
          intro again
          rw [same, ← again] at distinct
          exact distinct.1 (List.mem_map_of_mem later)
      · rcases List.mem_cons.mp member with here | later
        · rw [here]
          exact .inr ⟨same, List.mem_cons_self⟩
        · rcases ih distinct.2 later with data | ⟨other, inRest⟩
          · exact .inl data
          · exact .inr ⟨other, List.mem_cons_of_mem _ inRest⟩

theorem add_peer_entry_new {now : UInt64} {peer : BcPeer} {held : Nat} (peers : List BcPeer)
    (new : peer.pubkey ∉ peers.map BcPeer.pubkey) :
    addPeerEntry now peer peers held =
      if held < bcMaxPeers then peers ++ [peer] else peers := by
  induction peers with
  | nil => rfl
  | cons entry rest ih =>
      rw [List.map_cons, List.mem_cons, not_or] at new
      have other : ¬ entry.pubkey = peer.pubkey := fun same => new.1 same.symm
      rw [addPeerEntry, if_neg other, ih new.2]
      split_ifs <;> rfl

section Table

variable {Store : Type}

def addPeers (router : BcRouter Store) (calls : List AddPeer) : BcRouter Store :=
  calls.foldl (fun current call => bcRouterAddPeer current call.now call.peer) router

theorem add_peer_keys (router : BcRouter Store) (now : UInt64) (peer : BcPeer) :
    (bcRouterAddPeer router now peer).peers.map BcPeer.pubkey =
      BoundedRegistry.enroll bcMaxPeers (router.peers.map BcPeer.pubkey) peer.pubkey := by
  rw [BoundedRegistry.enroll, List.length_map]
  exact add_peer_entry_keys now peer router.peers router.peers.length

theorem add_peers_append (router : BcRouter Store) (calls : List AddPeer) (call : AddPeer) :
    addPeers router (calls ++ [call]) =
      bcRouterAddPeer (addPeers router calls) call.now call.peer := by
  rw [addPeers, List.foldl_append]
  rfl

theorem add_peers_keys (router : BcRouter Store) (calls : List AddPeer) :
    (addPeers router calls).peers.map BcPeer.pubkey =
      BoundedRegistry.enrollAll bcMaxPeers (router.peers.map BcPeer.pubkey)
        (calls.map fun call => call.peer.pubkey) := by
  induction calls generalizing router with
  | nil => rfl
  | cons call rest ih =>
      rw [List.map_cons]
      change _ = BoundedRegistry.enrollAll bcMaxPeers
        (BoundedRegistry.enroll bcMaxPeers (router.peers.map BcPeer.pubkey) call.peer.pubkey) _
      rw [← add_peer_keys router call.now]
      exact ih (bcRouterAddPeer router call.now call.peer)

/-- The table after `calls`: the first 64 keys in the order in which they
came, each with the data of its latest call; only a full table refuses. -/
structure PeerTable (router : BcRouter Store) (calls : List AddPeer) : Prop where
  bounded : router.peers.length ≤ 64
  distinct : (router.peers.map BcPeer.pubkey).Nodup
  order : router.peers.map BcPeer.pubkey =
    ((calls.map fun call => call.peer.pubkey).eraseDups).take 64
  latest : ∀ entry ∈ router.peers, ∃ call, latest calls entry.pubkey = some call ∧
    entry.transport = call.peer.transport ∧ entry.rssi = call.peer.rssi
  refused : ∀ now peer, peer.pubkey ∉ router.peers.map BcPeer.pubkey →
    (router.peers.length < 64 ∧ (bcRouterAddPeer router now peer).peers = router.peers ++ [peer]) ∨
      (router.peers.length = 64 ∧ bcRouterAddPeer router now peer = router)

theorem add_peer_new {router : BcRouter Store} (now : UInt64) {peer : BcPeer}
    (bounded : router.peers.length ≤ 64)
    (new : peer.pubkey ∉ router.peers.map BcPeer.pubkey) :
    (router.peers.length < 64 ∧ (bcRouterAddPeer router now peer).peers = router.peers ++ [peer]) ∨
      (router.peers.length = 64 ∧ bcRouterAddPeer router now peer = router) := by
  unfold bcRouterAddPeer
  rw [add_peer_entry_new router.peers new]
  by_cases room : router.peers.length < bcMaxPeers
  · exact .inl ⟨room, by rw [if_pos room]⟩
  · have full : router.peers.length = 64 := Nat.le_antisymm bounded (Nat.le_of_not_lt room)
    exact .inr ⟨full, by rw [if_neg room]⟩

theorem add_peers_latest {router : BcRouter Store} (empty : router.peers = [])
    (calls : List AddPeer) :
    ∀ entry ∈ (addPeers router calls).peers, ∃ call,
      PeerForwarding.latest calls entry.pubkey = some call ∧
        entry.transport = call.peer.transport ∧ entry.rssi = call.peer.rssi := by
  induction calls using List.reverseRecOn with
  | nil =>
      intro entry member
      rw [show addPeers router [] = router from rfl, empty] at member
      cases member
  | append_singleton calls call ih =>
      intro entry member
      have distinct : ((addPeers router calls).peers.map BcPeer.pubkey).Nodup := by
        rw [add_peers_keys, empty]
        exact BoundedRegistry.enroll_all_nodup _ List.nodup_nil
      rw [add_peers_append] at member
      rw [latest_append]
      rcases mem_add_peer_entry _ distinct member with ⟨same, data⟩ | ⟨other, before⟩
      · rw [if_pos same.symm]
        exact ⟨call, rfl, data⟩
      · rw [if_neg fun same => other same.symm]
        exact ih entry before

theorem peer_table_of_calls {router : BcRouter Store} (empty : router.peers = [])
    (calls : List AddPeer) : PeerTable (addPeers router calls) calls := by
  have keys := add_peers_keys router calls
  rw [empty, List.map_nil] at keys
  have bounded : (addPeers router calls).peers.length ≤ 64 := by
    rw [← List.length_map BcPeer.pubkey, keys]
    exact BoundedRegistry.enroll_all_length _ (Nat.zero_le _)
  refine ⟨bounded, ?_, ?_, add_peers_latest empty calls, fun now _ => add_peer_new now bounded⟩
  · rw [keys]
    exact BoundedRegistry.enroll_all_nodup _ List.nodup_nil
  · rw [keys, BoundedRegistry.enroll_all_eq]
    rfl

end Table

/-! ### The walk -/

def attempts (sendRc : Nat → Rc) (data : List UInt8) : List BcPeer → Nat → List Event
  | [], _ => []
  | peer :: rest, i => .send peer.pubkey data (sendRc i) :: attempts sendRc data rest (i + 1)

def successes (sendRc : Nat → Rc) (i count : Nat) : Nat :=
  (List.range count).countP fun j => decide (sendRc (i + j) = .ok)

def Event.succeeded : Event → Bool
  | .send _ _ rc => decide (rc = .ok)
  | _ => false

def Event.target : Event → Option Pubkey
  | .send peer _ _ => some peer
  | _ => none

theorem successes_zero (sendRc : Nat → Rc) (i : Nat) : successes sendRc i 0 = 0 := rfl

theorem successes_succ (sendRc : Nat → Rc) (i count : Nat) :
    successes sendRc i (count + 1) =
      (if sendRc i = .ok then 1 else 0) + successes sendRc (i + 1) count := by
  have shift : ((fun j => decide (sendRc (i + j) = .ok)) ∘ Nat.succ) =
      fun j => decide (sendRc (i + 1 + j) = .ok) := by
    funext j
    rw [Function.comp_apply, Nat.succ_eq_add_one, Nat.add_assoc i 1 j, Nat.add_comm 1 j]
  rw [successes, List.range_succ_eq_map, List.countP_cons, List.countP_map, shift, Nat.add_comm]
  simp only [Nat.add_zero, decide_eq_true_eq]
  rfl

theorem successes_mono (sendRc : Nat → Rc) (i : Nat) {few many : Nat} (order : few ≤ many) :
    successes sendRc i few ≤ successes sendRc i many :=
  List.Sublist.countP_le (List.range_sublist.mpr order)

theorem successes_step (sendRc : Nat → Rc) (i count : Nat) :
    successes sendRc i (count + 1) ≤ successes sendRc i count + 1 := by
  rw [successes, List.range_succ, List.countP_append]
  exact Nat.add_le_add_left List.countP_le_length _

theorem successes_all {sendRc : Nat → Rc} (accepting : ∀ i, sendRc i = .ok) (i count : Nat) :
    successes sendRc i count = count := by
  simp [successes, accepting]

theorem attempts_all {sendRc : Nat → Rc} (accepting : ∀ i, sendRc i = .ok) (data : List UInt8)
    (peers : List BcPeer) (i : Nat) :
    attempts sendRc data peers i = peers.map fun peer => .send peer.pubkey data .ok := by
  induction peers generalizing i with
  | nil => rfl
  | cons peer rest ih => rw [attempts, accepting, ih, List.map_cons]

theorem attempts_length (sendRc : Nat → Rc) (data : List UInt8) (peers : List BcPeer) (i : Nat) :
    (attempts sendRc data peers i).length = peers.length := by
  induction peers generalizing i with
  | nil => rfl
  | cons peer rest ih => rw [attempts, List.length_cons, ih, List.length_cons]

theorem attempts_targets (sendRc : Nat → Rc) (data : List UInt8) (peers : List BcPeer) (i : Nat) :
    (attempts sendRc data peers i).filterMap Event.target = peers.map BcPeer.pubkey := by
  induction peers generalizing i with
  | nil => rfl
  | cons peer rest ih => simp [attempts, Event.target, ih]

theorem attempts_succeeded (sendRc : Nat → Rc) (data : List UInt8) (peers : List BcPeer)
    (i : Nat) :
    (attempts sendRc data peers i).countP Event.succeeded = successes sendRc i peers.length := by
  induction peers generalizing i with
  | nil => rfl
  | cons peer rest ih =>
      rw [attempts, List.countP_cons, ih, List.length_cons, successes_succ, Nat.add_comm]
      simp [Event.succeeded]

/-- Where the loop stops: it attempts the first `k` entries, had room before
each of them, and has none left if it did not come to the end. -/
theorem forward_loop_spec (fanout : Nat) (sendRc : Nat → Rc) (data : List UInt8)
    (peers : List BcPeer) :
    ∀ i sent, sent ≤ fanout → ∃ k ≤ peers.length,
      forwardLoop fanout sendRc data peers i sent =
        (attempts sendRc data (peers.take k) i, sent + successes sendRc i k) ∧
      (∀ j < k, sent + successes sendRc i j < fanout) ∧
      (k = peers.length ∨ sent + successes sendRc i k = fanout) := by
  induction peers with
  | nil =>
      intro i sent _
      exact ⟨0, Nat.le_refl _, rfl, fun j none => absurd none (Nat.not_lt_zero j), .inl rfl⟩
  | cons peer rest ih =>
      intro i sent bounded
      by_cases room : sent < fanout
      · have counted : (if sendRc i = .ok then sent + 1 else sent) =
            sent + (if sendRc i = .ok then 1 else 0) := by
          split_ifs <;> rfl
        have stillBounded : (if sendRc i = .ok then sent + 1 else sent) ≤ fanout := by
          split_ifs <;> omega
        obtain ⟨k, inside, loop, before, stops⟩ := ih (i + 1) _ stillBounded
        simp only [counted] at loop before stops
        refine ⟨k + 1, Nat.succ_le_succ inside, ?_, ?_, ?_⟩
        · rw [forwardLoop, if_pos room]
          simp only [counted, loop, List.take_succ_cons, attempts, successes_succ, Nat.add_assoc]
        · intro j earlier
          cases j with
          | zero => exact room
          | succ j =>
              have next := before j (Nat.lt_of_succ_lt_succ earlier)
              rw [successes_succ]
              omega
        · rw [successes_succ, List.length_cons]
          omega
      · refine ⟨0, Nat.zero_le _, ?_, fun j none => absurd none (Nat.not_lt_zero j), .inr ?_⟩
        · rw [forwardLoop, if_neg room]
          rfl
        · rw [successes_zero]
          omega

section Walk

variable {Store : Type}

def Sends (router : BcRouter Store) : Prop :=
  (router.transport.map BcTransport.send).getD false = true

instance (router : BcRouter Store) : Decidable (Sends router) :=
  inferInstanceAs (Decidable (_ = true))

def accepting (router : BcRouter Store) (sendRc : Nat → Rc) : Nat :=
  if Sends router then successes sendRc 0 router.peers.length else 0

structure Forwards (router : BcRouter Store) (sendRc : Nat → Rc) (data : List UInt8) : Prop where
  walk : ∃ k ≤ router.peers.length,
    (forwardToPeers router sendRc data).2 = attempts sendRc data (router.peers.take k) 0 ∧
    (forwardToPeers router sendRc data).2.filterMap Event.target =
      (router.peers.map BcPeer.pubkey).take k ∧
    (∀ j < k, successes sendRc 0 j < router.config.fanout.toNat) ∧
    (Sends router →
      k = router.peers.length ∨ successes sendRc 0 k = router.config.fanout.toNat)
  count : (forwardToPeers router sendRc data).2.countP Event.succeeded =
    min router.config.fanout.toNat (accepting router sendRc)
  rc : (forwardToPeers router sendRc data).1 = .ok ↔
    0 < (forwardToPeers router sendRc data).2.countP Event.succeeded

theorem forward_to_peers_walk {router : BcRouter Store} (sends : Sends router) (sendRc : Nat → Rc)
    (data : List UInt8) :
    ∃ k ≤ router.peers.length,
      forwardToPeers router sendRc data =
        (if 0 < successes sendRc 0 k then .ok else .transport,
          attempts sendRc data (router.peers.take k) 0) ∧
      (∀ j < k, successes sendRc 0 j < router.config.fanout.toNat) ∧
      (k = router.peers.length ∨ successes sendRc 0 k = router.config.fanout.toNat) := by
  obtain ⟨k, inside, loop, before, stops⟩ :=
    forward_loop_spec router.config.fanout.toNat sendRc data router.peers 0 0 (Nat.zero_le _)
  simp only [Nat.zero_add] at loop before stops
  have present : ¬ (router.transport.map BcTransport.send).getD false = false := by
    rw [show _ = true from sends]
    decide
  refine ⟨k, inside, ?_, before, stops⟩
  rw [forwardToPeers, if_neg present]
  simp only [loop]

theorem walk_successes {sendRc : Nat → Rc} {fanout count k : Nat} (inside : k ≤ count)
    (before : ∀ j < k, successes sendRc 0 j < fanout)
    (stops : k = count ∨ successes sendRc 0 k = fanout) :
    successes sendRc 0 k = min fanout (successes sendRc 0 count) := by
  have more := successes_mono sendRc 0 inside
  have within : successes sendRc 0 k ≤ fanout := by
    cases k with
    | zero => exact Nat.zero_le _
    | succ k =>
        have room := before k (Nat.lt_succ_self k)
        have step := successes_step sendRc 0 k
        omega
  rcases stops with all | full
  · rw [← all]
    omega
  · omega

theorem forward_to_peers_absent {router : BcRouter Store} (absent : ¬ Sends router)
    (sendRc : Nat → Rc) (data : List UInt8) :
    forwardToPeers router sendRc data = (.transport, []) := by
  have noSend : (router.transport.map BcTransport.send).getD false = false := by
    simpa [Sends] using absent
  rw [forwardToPeers, if_pos noSend]

theorem forwards (router : BcRouter Store) (sendRc : Nat → Rc) (data : List UInt8) :
    Forwards router sendRc data := by
  by_cases sends : Sends router
  · obtain ⟨k, inside, result, before, stops⟩ := forward_to_peers_walk sends sendRc data
    have walked : (router.peers.take k).length = k := List.length_take_of_le inside
    have counted : (forwardToPeers router sendRc data).2.countP Event.succeeded =
        successes sendRc 0 k := by
      rw [result, attempts_succeeded, walked]
    refine ⟨⟨k, inside, by rw [result], ?_, before, fun _ => stops⟩, ?_, ?_⟩
    · rw [result, attempts_targets, List.map_take]
    · rw [counted, accepting, if_pos sends, walk_successes inside before stops]
    · rw [counted, result]
      by_cases some : 0 < successes sendRc 0 k
      · simp [some]
      · simp [some]
  · have result := forward_to_peers_absent sends sendRc data
    refine ⟨⟨0, Nat.zero_le _, by rw [result]; rfl, by rw [result]; rfl,
      fun j none => absurd none (Nat.not_lt_zero j), fun wrong => absurd wrong sends⟩, ?_, ?_⟩
    · rw [result, accepting, if_neg sends, Nat.min_zero]
      rfl
    · rw [result]
      simp

theorem forward_to_peers_accepting {router : BcRouter Store} {sendRc : Nat → Rc}
    (data : List UInt8) (sends : Sends router) (accepting : ∀ i, sendRc i = .ok) :
    (forwardToPeers router sendRc data).2 =
      (router.peers.take router.config.fanout.toNat).map fun peer =>
        .send peer.pubkey data .ok := by
  obtain ⟨k, inside, result, before, stops⟩ := forward_to_peers_walk sends sendRc data
  have count := walk_successes inside before stops
  rw [successes_all accepting, successes_all accepting] at count
  have taken : router.peers.take k = router.peers.take router.config.fanout.toNat := by
    rw [count]
    exact List.take_eq_take_min.symm
  rw [result, attempts_all accepting, taken]

theorem created_peers {alloc : Nat → Bool} {transport : Option BcTransport}
    {storage : Option (BcStorage Store)} {localPubkey : Pubkey} {config : Option BcRouterConfig}
    {created : BcRouter Store}
    (made : bcRouterCreate alloc transport storage localPubkey config = some created) :
    created.peers = [] := by
  rw [created_eq made]

/-- The table that any calls leave, and what forwarding makes of it. -/
theorem peer_table_and_forwarding {alloc : Nat → Bool} {transport : Option BcTransport}
    {storage : Option (BcStorage Store)} {localPubkey : Pubkey} {config : Option BcRouterConfig}
    {created : BcRouter Store}
    (made : bcRouterCreate alloc transport storage localPubkey config = some created)
    (calls : List AddPeer) :
    PeerTable (addPeers created calls) calls ∧
      ∀ sendRc data, Forwards (addPeers created calls) sendRc data ∧
        ((forwardToPeers (addPeers created calls) sendRc data).2.filterMap Event.target).Nodup := by
  have table := peer_table_of_calls (created_peers made) calls
  refine ⟨table, ?_⟩
  intro sendRc data
  have walked := forwards (addPeers created calls) sendRc data
  obtain ⟨k, -, -, targets, -⟩ := walked.walk
  refine ⟨walked, ?_⟩
  rw [targets]
  exact table.distinct.sublist (List.take_sublist _ _)

end Walk

def pairRouter : BcRouter PendingMessages where
  transport := some ⟨true, true, true⟩
  storage := none
  config := ⟨2, 100, 60⟩
  localPubkey := List.Vector.replicate 32 0
  dedupTable := BitChat.DedupTable.emptyTable
  dedupCap := 100
  peers := []
  onMessage := false
  lastSfTick := 0

def pairCalls : List AddPeer :=
  [⟨1, ⟨List.Vector.replicate 32 1, 0, .ble, -40⟩⟩, ⟨2, ⟨List.Vector.replicate 32 2, 0, .ble, -50⟩⟩,
    ⟨3, ⟨List.Vector.replicate 32 1, 0, .wifiDirect, -60⟩⟩]

theorem pair_router_table :
    PeerTable (addPeers pairRouter pairCalls) pairCalls ∧
      ∀ sendRc data, Forwards (addPeers pairRouter pairCalls) sendRc data ∧
        ((forwardToPeers (addPeers pairRouter pairCalls) sendRc data).2.filterMap
          Event.target).Nodup := by
  have made : bcRouterCreate allocates (some ⟨true, true, true⟩) none
      (List.Vector.replicate 32 0) (some ⟨2, 100, 60⟩) = some pairRouter := rfl
  exact peer_table_and_forwarding made pairCalls

end BitChat.PeerForwarding
