import BitChat.MeshRouter
import BitChat.Library.BoundedRegistry
import BitChat.Library.TransitionSystem

/-!
# The peer discovery manager

Transcription of `usecase/node_discovery.c`. What a scan learns from the
transport and the clock is an argument; it returns the peers it announced to
the callback, in order. The keys of the table are a bounded registry of the
keys that the scans find, and the announcements go along with its growth.
-/

namespace BitChat.NodeDiscovery

open BitChat.WireMessage BitChat.MeshRouter TransitionSystem

set_option autoImplicit false

structure BcDiscovery where
  transport : Option BcTransport
  peers : List BcPeer
  onFound : Bool

def bcDiscoveryCreate (alloc : Bool) (transport : Option BcTransport) : Option BcDiscovery :=
  if alloc = false then none
  else some { transport := transport, peers := [], onFound := false }

def bcDiscoveryOnPeerFound (disc : BcDiscovery) (callback : Bool) : BcDiscovery :=
  { disc with onFound := callback }

/-- One return of `discover_peers`, which fills at most `BC_MAX_PEERS`
entries, with the reading for the touch of each of them. -/
structure ScanEnv where
  rc : Rc
  found : List BcPeer
  now : Nat → UInt64

/-- The inner loop: refresh the first entry with the key of `found`, if any. -/
def refreshPeer (now : UInt64) (found : BcPeer) : List BcPeer → Option (List BcPeer)
  | [] => none
  | entry :: rest =>
      if entry.pubkey = found.pubkey then
        some ({ entry with lastSeen := now, rssi := found.rssi } :: rest)
      else (refreshPeer now found rest).map (entry :: ·)

/-- The outer loop from entry `i` on: the table and the announced peers. -/
def scanLoop (onFound : Bool) (now : Nat → UInt64) :
    List BcPeer → Nat → List BcPeer → List BcPeer × List BcPeer
  | [], _, peers => (peers, [])
  | found :: rest, i, peers =>
      match refreshPeer (now i) found peers with
      | some refreshed => scanLoop onFound now rest (i + 1) refreshed
      | none =>
          if peers.length < bcMaxPeers then
            let later := scanLoop onFound now rest (i + 1) (peers ++ [found])
            (later.1, if onFound then found :: later.2 else later.2)
          else scanLoop onFound now rest (i + 1) peers

def bcDiscoveryScan (disc : BcDiscovery) (env : ScanEnv) : Rc × BcDiscovery × List BcPeer :=
  if (disc.transport.map BcTransport.discoverPeers).getD false = false then (.invalid, disc, [])
  else if env.rc ≠ .ok then (env.rc, disc, [])
  else
    let result := scanLoop disc.onFound env.now (env.found.take bcMaxPeers) 0 disc.peers
    (.ok, { disc with peers := result.1 }, result.2)

theorem refresh_none_iff (now : UInt64) (found : BcPeer) (peers : List BcPeer) :
    refreshPeer now found peers = none ↔ found.pubkey ∉ peers.map BcPeer.pubkey := by
  induction peers with
  | nil => simp [refreshPeer]
  | cons entry rest ih =>
      rw [refreshPeer]
      split_ifs with same
      · simp [same]
      · have other : found.pubkey ≠ entry.pubkey := fun equal => same equal.symm
        simp [ih, other]

theorem refresh_keys {now : UInt64} {found : BcPeer} (peers : List BcPeer) :
    ∀ {refreshed : List BcPeer}, refreshPeer now found peers = some refreshed →
      refreshed.map BcPeer.pubkey = peers.map BcPeer.pubkey := by
  induction peers with
  | nil =>
      intro refreshed wrong
      cases wrong
  | cons entry rest ih =>
      intro refreshed made
      rw [refreshPeer] at made
      split_ifs at made with same
      · rw [← Option.some.inj made]
        rfl
      · obtain ⟨later, refreshes, extended⟩ := Option.map_eq_some_iff.mp made
        rw [← extended, List.map_cons, List.map_cons, ih refreshes]

theorem scan_loop_keys (onFound : Bool) (now : Nat → UInt64) (found : List BcPeer) :
    ∀ (i : Nat) (peers : List BcPeer),
      (scanLoop onFound now found i peers).1.map BcPeer.pubkey =
        BoundedRegistry.enrollAll bcMaxPeers (peers.map BcPeer.pubkey)
          (found.map BcPeer.pubkey) := by
  induction found with
  | nil => exact fun _ _ => rfl
  | cons peer rest ih =>
      intro i peers
      rw [scanLoop, List.map_cons]
      change _ = BoundedRegistry.enrollAll bcMaxPeers
        (BoundedRegistry.enroll bcMaxPeers (peers.map BcPeer.pubkey) peer.pubkey) _
      cases refresh : refreshPeer (now i) peer peers with
      | some refreshed =>
          have known : peer.pubkey ∈ peers.map BcPeer.pubkey := by
            by_contra new
            rw [(refresh_none_iff _ _ _).mpr new] at refresh
            cases refresh
          simp only [ih, refresh_keys peers refresh, BoundedRegistry.enroll, if_pos known]
      | none =>
          have new := (refresh_none_iff _ _ _).mp refresh
          simp only [BoundedRegistry.enroll, if_neg new, List.length_map]
          by_cases room : peers.length < bcMaxPeers
          · simp only [if_pos room, ih, List.map_append, List.map_singleton]
          · simp only [if_neg room, ih]

theorem scan_loop_announces (now : Nat → UInt64) (found : List BcPeer) :
    ∀ (i : Nat) (peers : List BcPeer),
      peers.map BcPeer.pubkey ++ (scanLoop true now found i peers).2.map BcPeer.pubkey =
        (scanLoop true now found i peers).1.map BcPeer.pubkey := by
  induction found with
  | nil => exact fun _ peers => List.append_nil _
  | cons peer rest ih =>
      intro i peers
      rw [scanLoop]
      cases refresh : refreshPeer (now i) peer peers with
      | some refreshed =>
          rw [← refresh_keys peers refresh]
          exact ih (i + 1) refreshed
      | none =>
          simp only [if_true]
          split_ifs with room
          · rw [← ih (i + 1) (peers ++ [peer])]
            simp
          · exact ih (i + 1) peers

/-! ### Runs of scans -/

structure DiscoveryRun where
  disc : BcDiscovery
  announced : List BcPeer

def DiscoveryRun.keys (run : DiscoveryRun) : List Pubkey := run.disc.peers.map BcPeer.pubkey

def BcDiscovery.Scans (disc : BcDiscovery) : Prop :=
  (disc.transport.map BcTransport.discoverPeers).getD false = true

/-- Scans of a new manager with a callback; `discover_peers` is handed room for
`BC_MAX_PEERS` entries and fills no more. -/
def discoverySystem : System DiscoveryRun ScanEnv where
  initial run := ∃ alloc transport created, bcDiscoveryCreate alloc transport = some created ∧
    run = ⟨bcDiscoveryOnPeerFound created true, []⟩
  step before env after := env.found.length ≤ bcMaxPeers ∧
    after = ⟨(bcDiscoveryScan before.disc env).2.1,
      before.announced ++ (bcDiscoveryScan before.disc env).2.2⟩

theorem scan_cases (disc : BcDiscovery) (env : ScanEnv) :
    (¬ disc.Scans ∧ bcDiscoveryScan disc env = (.invalid, disc, [])) ∨
    (disc.Scans ∧ env.rc ≠ .ok ∧ bcDiscoveryScan disc env = (env.rc, disc, [])) ∨
    (disc.Scans ∧ env.rc = .ok ∧ bcDiscoveryScan disc env =
      let result := scanLoop disc.onFound env.now (env.found.take bcMaxPeers) 0 disc.peers
      (.ok, { disc with peers := result.1 }, result.2)) := by
  unfold bcDiscoveryScan BcDiscovery.Scans
  split_ifs with unable failed
  · exact .inl ⟨by rw [unable]; decide, rfl⟩
  · exact .inr (.inl ⟨by simpa using unable, failed, rfl⟩)
  · exact .inr (.inr ⟨by simpa using unable, not_not.mp failed, rfl⟩)

theorem scan_keys (disc : BcDiscovery) (env : ScanEnv) :
    ∃ found, (bcDiscoveryScan disc env).2.1.peers.map BcPeer.pubkey =
      BoundedRegistry.enrollAll bcMaxPeers (disc.peers.map BcPeer.pubkey) found := by
  rcases scan_cases disc env with ⟨-, same⟩ | ⟨-, -, same⟩ | ⟨-, -, same⟩
  · exact ⟨[], by rw [same]; rfl⟩
  · exact ⟨[], by rw [same]; rfl⟩
  · rw [same]
    exact ⟨_, scan_loop_keys _ _ _ _ _⟩

structure InStep (run : DiscoveryRun) : Prop where
  registered : run.disc.onFound = true
  bounded : run.keys.length ≤ bcMaxPeers
  distinct : run.keys.Nodup
  announced : run.announced.map BcPeer.pubkey = run.keys

theorem in_step_scan {run : DiscoveryRun} (env : ScanEnv) (inStep : InStep run) :
    InStep ⟨(bcDiscoveryScan run.disc env).2.1,
      run.announced ++ (bcDiscoveryScan run.disc env).2.2⟩ := by
  have idle : ∀ rc, bcDiscoveryScan run.disc env = (rc, run.disc, []) →
      InStep ⟨(bcDiscoveryScan run.disc env).2.1,
        run.announced ++ (bcDiscoveryScan run.disc env).2.2⟩ := by
    intro rc same
    rw [same, List.append_nil]
    exact inStep
  rcases scan_cases run.disc env with ⟨-, same⟩ | ⟨-, -, same⟩ | ⟨-, -, same⟩
  · exact idle _ same
  · exact idle _ same
  · rw [same, inStep.registered]
    have keys := scan_loop_keys true env.now (env.found.take bcMaxPeers) 0 run.disc.peers
    have announces := scan_loop_announces env.now (env.found.take bcMaxPeers) 0 run.disc.peers
    refine ⟨rfl, ?_, ?_, ?_⟩
    · rw [DiscoveryRun.keys, keys]
      exact BoundedRegistry.enroll_all_length _ inStep.bounded
    · rw [DiscoveryRun.keys, keys]
      exact BoundedRegistry.enroll_all_nodup _ inStep.distinct
    · rw [DiscoveryRun.keys, ← announces, List.map_append, inStep.announced]
      rfl

theorem in_step_of_reachable {run : DiscoveryRun} (reached : Reachable discoverySystem run) :
    InStep run := by
  apply Reachable.invariant InStep _ _ reached
  · rintro _ ⟨alloc, transport, created, made, rfl⟩
    unfold bcDiscoveryCreate at made
    split_ifs at made
    rw [← Option.some.inj made]
    exact ⟨rfl, Nat.zero_le _, List.nodup_nil, rfl⟩
  · rintro before env _ inStep ⟨-, rfl⟩
    exact in_step_scan env inStep

/-- Each peer is announced exactly once, in the order of the table, which
never loses or moves an entry and refuses a key only when it is full. -/
structure AnnouncedOnce (run : DiscoveryRun) : Prop where
  bounded : run.disc.peers.length ≤ 64
  distinct : (run.disc.peers.map BcPeer.pubkey).Nodup
  announced : run.announced.map BcPeer.pubkey = run.disc.peers.map BcPeer.pubkey
  kept : ∀ later, Leads discoverySystem run later →
    run.disc.peers.map BcPeer.pubkey <+: later.disc.peers.map BcPeer.pubkey
  failed : ∀ env, run.disc.Scans → env.rc ≠ .ok →
    bcDiscoveryScan run.disc env = (env.rc, run.disc, [])
  absent : ∀ env, run.disc.Scans → env.rc = .ok → env.found.length ≤ 64 →
    ∀ peer ∈ env.found,
      peer.pubkey ∉ (bcDiscoveryScan run.disc env).2.1.peers.map BcPeer.pubkey →
      (bcDiscoveryScan run.disc env).2.1.peers.length = 64

theorem announced_once_of_reachable {run : DiscoveryRun}
    (reached : Reachable discoverySystem run) : AnnouncedOnce run := by
  have inStep := in_step_of_reachable reached
  have bounded : run.disc.peers.length ≤ 64 := by
    have held := inStep.bounded
    rw [DiscoveryRun.keys, List.length_map] at held
    exact held
  refine ⟨bounded, inStep.distinct, inStep.announced, ?_, ?_, ?_⟩
  · intro later leads
    apply Leads.relation (fun first second => first.keys <+: second.keys) _ _ _ leads
    · exact fun _ => List.prefix_rfl
    · exact fun _ _ _ start rest => start.trans rest
    · rintro before env _ ⟨-, rfl⟩
      obtain ⟨found, admitted⟩ := scan_keys before.disc env
      rw [DiscoveryRun.keys, DiscoveryRun.keys, admitted]
      exact BoundedRegistry.enroll_all_extends _ _ _
  · intro env scans error
    rcases scan_cases run.disc env with ⟨unable, -⟩ | ⟨-, -, same⟩ | ⟨-, ok, -⟩
    · exact absurd scans unable
    · exact same
    · exact absurd ok error
  · intro env scans ok size peer found missing
    rcases scan_cases run.disc env with ⟨unable, -⟩ | ⟨-, error, -⟩ | ⟨-, -, same⟩
    · exact absurd scans unable
    · exact absurd ok error
    · have all : env.found.take bcMaxPeers = env.found := List.take_of_length_le size
      have keys := scan_loop_keys run.disc.onFound env.now env.found 0 run.disc.peers
      rw [same, all] at missing ⊢
      simp only [keys] at missing
      rcases BoundedRegistry.mem_enroll_all_or_full _ (List.mem_map_of_mem found) inStep.bounded
        with held | full
      · exact absurd held missing
      · rw [DiscoveryRun.keys, ← keys, List.length_map] at full
        exact full

def repeatingScan : ScanEnv where
  rc := .ok
  found := [⟨List.Vector.replicate 32 1, 0, .ble, -40⟩, ⟨List.Vector.replicate 32 1, 0, .ble, -50⟩,
    ⟨List.Vector.replicate 32 2, 0, .ble, -60⟩]
  now := fun _ => 0

def newManager : BcDiscovery where
  transport := some ⟨true, true, true⟩
  peers := []
  onFound := true

theorem repeating_scans_announced_once :
    AnnouncedOnce ⟨(bcDiscoveryScan (bcDiscoveryScan newManager repeatingScan).2.1
        repeatingScan).2.1,
      ([] ++ (bcDiscoveryScan newManager repeatingScan).2.2) ++
        (bcDiscoveryScan (bcDiscoveryScan newManager repeatingScan).2.1 repeatingScan).2.2⟩ := by
  apply announced_once_of_reachable
  have started : Reachable discoverySystem ⟨newManager, []⟩ :=
    .start ⟨true, some ⟨true, true, true⟩, _, rfl, rfl⟩
  have scanned : Reachable discoverySystem ⟨(bcDiscoveryScan newManager repeatingScan).2.1,
      [] ++ (bcDiscoveryScan newManager repeatingScan).2.2⟩ :=
    .next repeatingScan started ⟨by decide, rfl⟩
  exact .next repeatingScan scanned ⟨by decide, rfl⟩

end BitChat.NodeDiscovery
