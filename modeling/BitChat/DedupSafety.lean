import BitChat.RouterRuns

/-!
# Moduli and slot indices of the deduplication table

Every operation on the table leaves a trace of the moduli it divides by and
of the slots it reads or writes, in the order of the source. A trace is safe
when no modulus is zero and every slot lies in the array that
`bc_router_create` has allocated. The constructor takes the capacity as it
comes, and `calloc` may return a table of no entries: every router with at
least one slot is safe whatever is called on it, and one without divides by
zero at its first broadcast.
-/

namespace BitChat.DedupSafety

open BitChat.WireMessage BitChat.DedupTable BitChat.PendingStorage BitChat.MeshRouter
open BitChat.RouterRuns

set_option autoImplicit false

inductive Access where
  | modulus (divisor : Nat)
  | slot (index : Nat)
deriving DecidableEq

def Access.Safe (allocated : Nat) : Access → Prop
  | .modulus divisor => divisor ≠ 0
  | .slot index => index < allocated

def AllSafe (allocated : Nat) (accesses : List Access) : Prop :=
  ∀ access ∈ accesses, access.Safe allocated

def dedupContainsRound (table : Table) (cap : Nat) (uuid : Uuid) (i : Nat) : Option Bool :=
  let e := table ((dedupHash uuid cap + i) % cap)
  if ¬ e.occupied = true then some false
  else if e.uuid = uuid then some true
  else none

theorem dedup_contains_eq (table : Table) (cap : Nat) (uuid : Uuid) :
    dedupContains table cap uuid =
      (LinearProbing.scan (dedupContainsRound table cap uuid) cap 0).getD false := rfl

def probeAccesses (cap : Nat) (uuid : Uuid) (rounds : List Nat) : List Access :=
  rounds.flatMap fun i => [.modulus cap, .slot ((dedupHash uuid cap + i) % cap)]

def hashAccesses (cap : Nat) : List Access := [.modulus cap]

def containsAccesses (table : Table) (cap : Nat) (uuid : Uuid) : List Access :=
  hashAccesses cap ++
    probeAccesses cap uuid (LinearProbing.visited (dedupContainsRound table cap uuid) cap 0)

def insertAccesses (table : Table) (cap : Nat) (maxAge now : UInt64) (uuid : Uuid) : List Access :=
  hashAccesses cap ++
    probeAccesses cap uuid
      (LinearProbing.visited (dedupInsertRound table cap maxAge now uuid) cap 0) ++
    match LinearProbing.scan (dedupInsertRound table cap maxAge now uuid) cap 0 with
    | some _ => []
    | none => [.modulus cap, .slot (dedupHash uuid cap % cap)]

def evictAccesses (cap : Nat) : List Access := (List.range cap).map .slot

section Router

variable {Store : Type}

def markAccesses (router : BcRouter Store) (now : UInt64) (uuid : Uuid) : List Access :=
  insertAccesses router.dedupTable router.dedupCap router.config.dedupMaxAge now uuid

def receiveAccesses (node : Node Store) (env : CallEnv) (data : List UInt8) : List Access :=
  if data.length = 0 then []
  else
    match bcMessageDeserialize env.alloc ⟨data, env.beyond⟩ with
    | none => []
    | some msg =>
        containsAccesses node.router.dedupTable node.router.dedupCap msg.uuid ++
          if dedupContains node.router.dedupTable node.router.dedupCap msg.uuid then []
          else markAccesses node.router env.now msg.uuid

def loopAccesses : Node Store → List Arrival → List Access
  | _, [] => []
  | node, arrival :: rest =>
      if arrival.rc = .ok ∧ 0 < arrival.received.length then
        receiveAccesses node arrival.env arrival.received ++
          loopAccesses (bcRouterReceive node arrival.env arrival.received).node rest
      else []

def tickAccesses (node : Node Store) (env : TickEnv) : List Access :=
  let evicted := tickEvict node env.evictNow
  evictAccesses node.router.dedupCap ++
    if (evicted.router.transport.map BcTransport.recv).getD false = true then
      loopAccesses evicted env.arrivals
    else []

def callAccesses (node : Node Store) : RouterCall → List Access
  | .broadcast env msg => markAccesses node.router env.now msg.uuid
  | .receive env data => receiveAccesses node env data
  | .tick env => tickAccesses node env
  | .addPeer _ _ => []
  | .setOnMessage _ => []

def runAccesses : Node Store → List RouterCall → List Access
  | _, [] => []
  | node, call :: rest => callAccesses node call ++ runAccesses (call.run node) rest

end Router

section Traces

variable {allocated : Nat}

theorem AllSafe.append {first second : List Access} (before : AllSafe allocated first)
    (after : AllSafe allocated second) : AllSafe allocated (first ++ second) := by
  intro access member
  rcases List.mem_append.mp member with left | right
  · exact before access left
  · exact after access right

theorem all_safe_nil : AllSafe allocated [] := by
  intro access member
  cases member

theorem all_safe_reduced (index : Nat) {cap : Nat} (positive : 0 < cap) :
    AllSafe cap [.modulus cap, .slot (index % cap)] := by
  intro access member
  rcases List.mem_cons.mp member with modulus | rest
  · rw [modulus]
    exact Nat.ne_of_gt positive
  · rw [List.mem_singleton.mp rest]
    exact Nat.mod_lt _ positive

theorem all_safe_probe {cap : Nat} (uuid : Uuid) (rounds : List Nat) (positive : 0 < cap) :
    AllSafe cap (probeAccesses cap uuid rounds) := by
  intro access member
  obtain ⟨i, -, here⟩ := List.mem_flatMap.mp member
  exact all_safe_reduced _ positive access here

theorem all_safe_hash {cap : Nat} (positive : 0 < cap) : AllSafe cap (hashAccesses cap) := by
  intro access member
  rw [List.mem_singleton.mp member]
  exact Nat.ne_of_gt positive

theorem all_safe_contains (table : Table) {cap : Nat} (uuid : Uuid) (positive : 0 < cap) :
    AllSafe cap (containsAccesses table cap uuid) :=
  (all_safe_hash positive).append (all_safe_probe uuid _ positive)

theorem all_safe_insert (table : Table) {cap : Nat} (maxAge now : UInt64) (uuid : Uuid)
    (positive : 0 < cap) : AllSafe cap (insertAccesses table cap maxAge now uuid) := by
  apply ((all_safe_hash positive).append (all_safe_probe uuid _ positive)).append
  split
  · exact all_safe_nil
  · -- The fallback after a loop that has met fresh entries only.
    exact all_safe_reduced _ positive

theorem all_safe_evict (cap : Nat) : AllSafe cap (evictAccesses cap) := by
  intro access member
  obtain ⟨index, bound, here⟩ := List.mem_map.mp member
  rw [← here]
  exact List.mem_range.mp bound

end Traces

section Runs

variable {Store : Type}

theorem all_safe_receive (node : Node Store) (env : CallEnv) (data : List UInt8)
    (positive : 0 < node.router.dedupCap) :
    AllSafe node.router.dedupCap (receiveAccesses node env data) := by
  unfold receiveAccesses
  split_ifs with empty
  · exact all_safe_nil
  · split
    · exact all_safe_nil
    · next msg _ =>
        apply (all_safe_contains _ msg.uuid positive).append
        split_ifs
        · exact all_safe_nil
        · exact all_safe_insert _ _ _ _ positive

theorem all_safe_loop (arrivals : List Arrival) :
    ∀ node : Node Store, 0 < node.router.dedupCap →
      AllSafe node.router.dedupCap (loopAccesses node arrivals) := by
  induction arrivals with
  | nil => exact fun _ _ => all_safe_nil
  | cons arrival rest ih =>
      intro node positive
      have kept := (receive_fixture node arrival.env arrival.received).dedupCap
      have later := ih (bcRouterReceive node arrival.env arrival.received).node
      rw [kept] at later
      rw [loopAccesses]
      split_ifs
      · exact (all_safe_receive node arrival.env arrival.received positive).append (later positive)
      · exact all_safe_nil

theorem all_safe_tick (node : Node Store) (env : TickEnv) (positive : 0 < node.router.dedupCap) :
    AllSafe node.router.dedupCap (tickAccesses node env) := by
  unfold tickAccesses
  apply (all_safe_evict _).append
  split_ifs
  · exact all_safe_loop env.arrivals (tickEvict node env.evictNow) positive
  · exact all_safe_nil

theorem all_safe_call (node : Node Store) (call : RouterCall)
    (positive : 0 < node.router.dedupCap) :
    AllSafe node.router.dedupCap (callAccesses node call) := by
  cases call with
  | broadcast env msg => exact all_safe_insert _ _ _ _ positive
  | receive env data => exact all_safe_receive node env data positive
  | tick env => exact all_safe_tick node env positive
  | addPeer now peer => exact all_safe_nil
  | setOnMessage callback => exact all_safe_nil

theorem all_safe_run (calls : List RouterCall) :
    ∀ node : Node Store, 0 < node.router.dedupCap →
      AllSafe node.router.dedupCap (runAccesses node calls) := by
  induction calls with
  | nil => exact fun _ _ => all_safe_nil
  | cons call rest ih =>
      intro node positive
      have later := ih (call.run node)
      rw [(run_keeps_setup node call).2.2] at later
      exact (all_safe_call node call positive).append (later positive)

def allocatedEntries (config : Option BcRouterConfig) : Nat := (config.getD bcDefaultConfig).dedupCap

theorem create_dedup_cap {alloc : Nat → Bool} {transport : Option BcTransport}
    {storage : Option (BcStorage Store)} {localPubkey : Pubkey} {config : Option BcRouterConfig}
    {router : BcRouter Store}
    (created : bcRouterCreate alloc transport storage localPubkey config = some router) :
    router.dedupCap = allocatedEntries config := by
  rw [created_eq created]
  rfl

/-- A created router is safe under every sequence of calls exactly when it
was given a table of at least one entry. -/
theorem safe_iff_nonempty_table (alloc : Nat → Bool) (transport : Option BcTransport)
    (storage : Option (BcStorage Store)) (localPubkey : Pubkey) (config : Option BcRouterConfig)
    (router : BcRouter Store) (store : Store)
    (created : bcRouterCreate alloc transport storage localPubkey config = some router) :
    (∀ calls, AllSafe (allocatedEntries config) (runAccesses ⟨router, store⟩ calls)) ↔
      1 ≤ allocatedEntries config := by
  have cap := create_dedup_cap created
  rw [← cap]
  constructor
  · intro safe
    have hashed : Access.modulus router.dedupCap ∈
        runAccesses ⟨router, store⟩ [.broadcast (quietEnv 0) (probeMessage 0)] := by
      simp [runAccesses, callAccesses, markAccesses, insertAccesses, hashAccesses]
    have nonzero : router.dedupCap ≠ 0 := safe _ _ hashed
    omega
  · intro positive calls
    exact all_safe_run calls ⟨router, store⟩ positive

end Runs

def sizedConfig (entries : Nat) : BcRouterConfig := { bcDefaultConfig with dedupCap := entries }

def sizedRouter (entries : Nat) : BcRouter Unit where
  transport := none
  storage := none
  config := sizedConfig entries
  localPubkey := List.Vector.replicate 32 0
  dedupTable := emptyTable
  dedupCap := entries
  peers := []
  onMessage := false
  lastSfTick := 0

theorem sized_router_created (entries : Nat) :
    bcRouterCreate allocates none none (List.Vector.replicate 32 0) (some (sizedConfig entries)) =
      some (sizedRouter entries) := rfl

theorem one_entry_safe :
    bcRouterCreate allocates none none (List.Vector.replicate 32 0) (some (sizedConfig 1)) =
        some (sizedRouter 1) ∧
      ∀ calls, AllSafe 1 (runAccesses ⟨sizedRouter 1, ()⟩ calls) := by
  have created := sized_router_created 1
  exact ⟨created, (safe_iff_nonempty_table _ _ _ _ _ _ () created).mpr (by decide)⟩

/-- A table of no entries is accepted, and the first broadcast reduces its
hash by zero. -/
theorem empty_table_divides_by_zero :
    bcRouterCreate allocates none none (List.Vector.replicate 32 0) (some (sizedConfig 0)) =
        some (sizedRouter 0) ∧
      Access.modulus 0 ∈ runAccesses ⟨sizedRouter 0, ()⟩
        [.broadcast (quietEnv 0) (probeMessage 0)] ∧
      ¬ AllSafe 0 (runAccesses ⟨sizedRouter 0, ()⟩
        [.broadcast (quietEnv 0) (probeMessage 0)]) := by
  have hashed : Access.modulus 0 ∈ runAccesses ⟨sizedRouter 0, ()⟩
      [.broadcast (quietEnv 0) (probeMessage 0)] := by decide +kernel
  refine ⟨sized_router_created 0, hashed, ?_⟩
  intro safe
  exact safe _ hashed rfl

end BitChat.DedupSafety
