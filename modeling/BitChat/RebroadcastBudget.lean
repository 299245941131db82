import BitChat.StoreAndForward
import BitChat.Library.Spacing

/-!
# The budget of the rebroadcast step

Every tick has a rebroadcast step, made at the reading that its rate limit
looks at. Steps that send are at least `BC_SF_REBROADCAST_SEC` seconds apart,
the store holds one row of a uuid and forwarding a row succeeds at most
`fanout` times: so a window of time bounds the successful sends of any one
uuid, however often the router is ticked and whatever else it sends.
-/

namespace BitChat.RebroadcastBudget

open BitChat.WireMessage BitChat.PendingStorage BitChat.MeshRouter BitChat.PeerForwarding
open BitChat.RouterRuns BitChat.StoreAndForward
open TransitionSystem Spacing

set_option autoImplicit false

def deliversUuid (uuid : Uuid) : Event → Bool
  | .send _ data rc => decide (rc = .ok ∧ data.take 16 = uuid.toList)
  | _ => false

def rebroadcastSteps (node : Node PendingMessages) : RouterCall → List (Batch Event)
  | .tick env => [⟨env.sfNow.toNat, (tickRebroadcast (polledNode node env) env).2⟩]
  | _ => []

structure PacedRun where
  node : Node PendingMessages
  clock : UInt64
  steps : List (Batch Event)

/-- Any calls on a router with storage from its creation on, over any
database, at readings that never step back. -/
def pacedSystem : System PacedRun RouterCall where
  initial run := run.steps = [] ∧ ∃ alloc transport localPubkey config,
    bcRouterCreate alloc transport (some sqliteStorage) localPubkey config = some run.node.router
  step before call after :=
    after.node = call.run before.node ∧ call.Within before.clock after.clock ∧
      after.steps = before.steps ++ rebroadcastSteps before.node call

/-! ### One step -/

theorem forward_delivers_le (router : BcRouter PendingMessages) (sendRc : Nat → Rc)
    (msg : BcMessage) (uuid : Uuid) :
    (forwardToPeers router sendRc (wireBytes msg)).2.countP (deliversUuid uuid) ≤
      if msg.uuid = uuid then router.config.fanout.toNat else 0 := by
  split_ifs with same
  · have counted := (forwards router sendRc (wireBytes msg)).count
    have fewer : (forwardToPeers router sendRc (wireBytes msg)).2.countP (deliversUuid uuid) ≤
        (forwardToPeers router sendRc (wireBytes msg)).2.countP Event.succeeded := by
      apply List.countP_mono_left
      intro event member delivers
      cases event with
      | send peer data rc =>
          simp only [deliversUuid, decide_eq_true_eq] at delivers
          simpa [Event.succeeded] using delivers.1
      | deliver msg => cases delivers
      | store msg rc => cases delivers
    omega
  · rw [Nat.le_zero, List.countP_eq_zero]
    intro event member delivers
    obtain ⟨peer, rc, sent⟩ := forward_to_peers_events router sendRc (wireBytes msg) event member
    rw [sent, deliversUuid, decide_eq_true_eq, wire_bytes_take] at delivers
    exact same (List.Vector.toList_injective delivers.2)

theorem rebroadcast_loop_delivers_le (router : BcRouter PendingMessages) (bufAlloc : Nat → Bool)
    (sendRc : Nat → Nat → Rc) (uuid : Uuid) (msgs : List BcMessage) (j : Nat) :
    (rebroadcastLoop router bufAlloc sendRc msgs j).countP (deliversUuid uuid) ≤
      (msgs.map BcMessage.uuid).count uuid * router.config.fanout.toNat := by
  induction msgs generalizing j with
  | nil => exact Nat.zero_le _
  | cons msg rest ih =>
      have later := ih (j + 1)
      have here : (if bufAlloc j = true then
            (forwardToPeers router (sendRc j) (wireBytes msg)).2 else []).countP
              (deliversUuid uuid) ≤ if msg.uuid = uuid then router.config.fanout.toNat else 0 := by
        by_cases buffer : bufAlloc j = true
        · rw [if_pos buffer]
          exact forward_delivers_le router (sendRc j) msg uuid
        · rw [if_neg buffer]
          exact Nat.zero_le _
      rw [rebroadcastLoop, serialize_fits, List.countP_append, List.map_cons, List.count_cons,
        Nat.add_mul]
      simp only [and_true, beq_iff_eq]
      by_cases same : msg.uuid = uuid
      · rw [if_pos same] at here ⊢
        omega
      · rw [if_neg same] at here ⊢
        omega

theorem idle_step {node : Node PendingMessages} {env : TickEnv} (notDue : ¬ Due node.router env) :
    tickRebroadcast node env = (node, []) := by
  unfold tickRebroadcast
  split
  · rfl
  · next getPending query => rw [if_neg fun gate => notDue ⟨by rw [query]; rfl, gate⟩]

/-- The store holds one row of a uuid, so a step has one message of it. -/
theorem step_delivers_le (node : Node PendingMessages) (env : TickEnv) (uuid : Uuid)
    (storage : node.router.storage = some sqliteStorage) :
    (tickRebroadcast node env).2.countP (deliversUuid uuid) ≤ node.router.config.fanout.toNat := by
  by_cases due : Due node.router env
  · have events : (tickRebroadcast node env).2 = _ := @round_events_eq ⟨node, env⟩ storage due
    rw [events]
    split_ifs with reads
    · have keyed : ((Round.rows ⟨node, env⟩).map PendingRow.uuid).Nodup :=
        List.Nodup.sublist (List.filter_sublist.map _) node.store.keyed
      have keys : ((Round.rows ⟨node, env⟩).map rowMessage).map BcMessage.uuid =
          (Round.rows ⟨node, env⟩).map PendingRow.uuid := by
        rw [List.map_map]
        rfl
      have once := List.nodup_iff_count_le_one.mp keyed uuid
      have total := rebroadcast_loop_delivers_le
        { node.router with lastSfTick := env.sfNow } env.bufAlloc env.sendRc uuid
        ((Round.rows ⟨node, env⟩).map rowMessage) 0
      rw [keys] at total
      calc
        _ ≤ _ := total
        _ ≤ 1 * node.router.config.fanout.toNat := Nat.mul_le_mul_right _ once
        _ = node.router.config.fanout.toNat := Nat.one_mul _
    · exact Nat.zero_le _
  · rw [idle_step due]
    exact Nat.zero_le _

/-! ### The time of the last step -/

theorem receive_loop_last_sf_tick (arrivals : List Arrival) :
    ∀ node : Node PendingMessages,
      (receiveLoop node arrivals).1.router.lastSfTick = node.router.lastSfTick := by
  induction arrivals with
  | nil => exact fun _ => rfl
  | cons arrival rest ih =>
      intro node
      rw [receiveLoop]
      split_ifs
      · exact (ih _).trans (receive_last_sf_tick node arrival.env arrival.received)
      · rfl

theorem polled_last_sf_tick (node : Node PendingMessages) (env : TickEnv) :
    (polledNode node env).router.lastSfTick = node.router.lastSfTick := by
  unfold polledNode tickPoll
  split_ifs
  · exact receive_loop_last_sf_tick env.arrivals (tickEvict node env.evictNow)
  · rfl

theorem rebroadcast_last_sf_tick (node : Node PendingMessages) (env : TickEnv) :
    (tickRebroadcast node env).1.router.lastSfTick =
      if Due node.router env then env.sfNow else node.router.lastSfTick := by
  by_cases due : Due node.router env
  · obtain ⟨present, gate⟩ := due
    rw [if_pos ⟨present, gate⟩, tickRebroadcast]
    split
    · next absent =>
        rw [absent] at present
        cases present
    · rw [if_pos gate]
  · rw [if_neg due, idle_step due]

theorem tick_last_sf_tick (node : Node PendingMessages) (env : TickEnv) :
    (bcRouterTick node env).1.router.lastSfTick =
      if Due (polledNode node env).router env then env.sfNow else node.router.lastSfTick := by
  have expired : (bcRouterTick node env).1.router =
      (tickRebroadcast (polledNode node env) env).1.router := expire_router _ env.expireNow
  rw [expired, rebroadcast_last_sf_tick, polled_last_sf_tick]

theorem due_later {router : BcRouter PendingMessages} {env : TickEnv} (due : Due router env)
    (past : router.lastSfTick ≤ env.sfNow) : router.lastSfTick.toNat + 3 ≤ env.sfNow.toNat := by
  have order : router.lastSfTick.toNat ≤ env.sfNow.toNat := UInt64.le_iff_toNat_le.mp past
  have gate := UInt64.le_iff_toNat_le.mp due.2.2
  rw [UInt64.toNat_sub_of_le _ _ past] at gate
  have three : bcSfRebroadcastSec.toNat = 3 := rfl
  omega

/-! ### Runs -/

/-- The invariant: the steps that send are apart, the last one is on record in
the router, and every step keeps to the fanout. -/
structure Paced (run : PacedRun) : Prop where
  storage : run.node.router.storage = some sqliteStorage
  past : run.node.router.lastSfTick ≤ run.clock
  spaced : Spaced 3 (activeTimes run.steps)
  last : ∀ time ∈ activeTimes run.steps, time ≤ run.node.router.lastSfTick.toNat
  each : ∀ uuid, ∀ step ∈ run.steps,
    step.items.countP (deliversUuid uuid) ≤ run.node.router.config.fanout.toNat

theorem paced_initially {run : PacedRun} (initial : pacedSystem.initial run) : Paced run := by
  obtain ⟨none, alloc, transport, localPubkey, config, created⟩ := initial
  have router := created_eq created
  refine ⟨by rw [router], ?_, ?_, ?_, ?_⟩
  · rw [router]
    exact UInt64.le_iff_toNat_le.mpr (Nat.zero_le _)
  · rw [none]
    exact List.Pairwise.nil
  · rw [none]
    exact fun time member => nomatch member
  · rw [none]
    exact fun uuid step member => nomatch member

theorem Paced.quiet {before after : PacedRun} {call : RouterCall} (paced : Paced before)
    (step : pacedSystem.step before call after) (none : rebroadcastSteps before.node call = [])
    (tick : (call.run before.node).router.lastSfTick = before.node.router.lastSfTick) :
    Paced after := by
  obtain ⟨node, within, steps⟩ := step
  obtain ⟨storage, config, -⟩ := run_keeps_setup before.node call
  rw [none, List.append_nil] at steps
  rw [← node] at storage config tick
  refine ⟨storage.trans paced.storage, ?_, ?_, ?_, ?_⟩
  · rw [tick]
    exact UInt64.le_trans paced.past (within_le within)
  · rw [steps]
    exact paced.spaced
  · rw [steps, tick]
    exact paced.last
  · rw [steps, config]
    exact paced.each

theorem tick_active_times {run : PacedRun} {env : TickEnv} (paced : Paced run)
    (later : run.clock ≤ env.sfNow) :
    let times := activeTimes (run.steps ++ rebroadcastSteps run.node (.tick env))
    Spaced 3 times ∧ (bcRouterTick run.node env).1.router.lastSfTick ≤ env.sfNow ∧
      ∀ time ∈ times, time ≤ (bcRouterTick run.node env).1.router.lastSfTick.toNat := by
  have past : run.node.router.lastSfTick ≤ env.sfNow := UInt64.le_trans paced.past later
  rw [rebroadcastSteps, active_times_append, tick_last_sf_tick]
  by_cases due : Due (polledNode run.node env).router env
  · have gap : run.node.router.lastSfTick.toNat + 3 ≤ env.sfNow.toNat := by
      have polled := polled_last_sf_tick run.node env
      rw [← polled] at past ⊢
      exact due_later due past
    have before : ∀ time ∈ activeTimes run.steps, time + 3 ≤ env.sfNow.toNat := by
      intro time member
      have recorded := paced.last time member
      omega
    rw [if_pos due]
    refine ⟨?_, UInt64.le_refl _, ?_⟩
    · split_ifs
      · exact paced.spaced.append before
      · exact paced.spaced
    · intro time member
      split_ifs at member
      · rcases List.mem_append.mp member with old | new
        · exact Nat.le_of_add_right_le (before time old)
        · exact Nat.le_of_eq (List.mem_singleton.mp new)
      · exact Nat.le_of_add_right_le (before time member)
  · -- Nothing is sent and the time of the last step stays.
    rw [if_neg due, if_neg (by simp [Batch.active, idle_step due])]
    exact ⟨paced.spaced, past, paced.last⟩

theorem Paced.tick {before after : PacedRun} {env : TickEnv} (paced : Paced before)
    (step : pacedSystem.step before (.tick env) after) : Paced after := by
  obtain ⟨node, within, steps⟩ := step
  obtain ⟨begins, ends⟩ := tick_within_sf within
  obtain ⟨spaced, past, last⟩ := tick_active_times paced begins
  obtain ⟨storage, config, -⟩ := run_keeps_setup before.node (.tick env)
  have polled := (evict_fixture before.node env.evictNow).trans (poll_fixture _ env.arrivals)
  have router : (bcRouterTick before.node env).1.router = after.node.router := by
    rw [node]
    rfl
  rw [← node] at storage config
  rw [← steps] at spaced last
  rw [router] at past last
  refine ⟨storage.trans paced.storage, UInt64.le_trans past ends, spaced, last, ?_⟩
  intro uuid batch member
  rw [config]
  rw [steps] at member
  rcases List.mem_append.mp member with old | new
  · exact paced.each uuid batch old
  · rw [List.mem_singleton.mp new, ← polled.config]
    apply step_delivers_le
    rw [← paced.storage]
    exact polled.storage

theorem Paced.step {before after : PacedRun} {call : RouterCall} (paced : Paced before)
    (step : pacedSystem.step before call after) : Paced after := by
  cases call with
  | broadcast env msg =>
      apply paced.quiet step rfl
      rw [RouterCall.run, broadcast_router]
      rfl
  | receive env data => exact paced.quiet step rfl (receive_last_sf_tick before.node env data)
  | tick env => exact paced.tick step
  | addPeer now peer => exact paced.quiet step rfl rfl
  | setOnMessage callback => exact paced.quiet step rfl rfl

theorem paced_of_reachable {run : PacedRun} (reached : Reachable pacedSystem run) : Paced run :=
  reached.invariant Paced (fun _ initial => paced_initially initial)
    fun _ _ _ paced step => paced.step step

/-- In every window of `width` seconds the rebroadcast steps of a run deliver
a uuid at most `width / 3 + 1` times the fanout. -/
theorem rebroadcast_within_budget (run : PacedRun) (reached : Reachable pacedSystem run)
    (uuid : Uuid) (start width : Nat) :
    (itemsIn start width run.steps).countP (deliversUuid uuid) ≤
      (width / 3 + 1) * run.node.router.config.fanout.toNat := by
  have paced := paced_of_reachable reached
  exact count_items_in_le (deliversUuid uuid) run.steps (by decide) paced.spaced (paced.each uuid)
    start width

def tickedRun (run : PacedRun) (now : UInt64) : PacedRun where
  node := (RouterCall.tick (quietTick now)).run run.node
  clock := now
  steps := run.steps ++ rebroadcastSteps run.node (.tick (quietTick now))

theorem ticked_run_reachable {run : PacedRun} (reached : Reachable pacedSystem run) {now : UInt64}
    (later : run.clock ≤ now) : Reachable pacedSystem (tickedRun run now) :=
  .next (.tick (quietTick now)) reached
    ⟨rfl, ⟨later, UInt64.le_refl _, UInt64.le_refl _, UInt64.le_refl _, UInt64.le_refl _⟩, rfl⟩

theorem crowded_run_reachable (count : Nat) :
    Reachable pacedSystem ⟨crowdedNode count, 0, []⟩ := by
  induction count with
  | zero => exact .start ⟨rfl, allocates, _, _, some ⟨3, 2, 600⟩, rfl⟩
  | succ count ih =>
      exact .next (.addPeer 0 (neighbour count)) ih
        ⟨rfl, ⟨UInt64.le_refl _, UInt64.le_refl _⟩, rfl⟩

/-- Four peers and ticks at seconds 10, 11 and 13. -/
def denseRun : PacedRun :=
  tickedRun (tickedRun (tickedRun ⟨crowdedNode 4, 0, []⟩ 10) 11) 13

/-- The bound is met: two of the three ticks rebroadcast, to three peers each. -/
theorem dense_run_within_budget :
    (itemsIn 10 3 denseRun.steps).countP (deliversUuid agedMessage.uuid) = 6 ∧
      (itemsIn 10 3 denseRun.steps).countP (deliversUuid agedMessage.uuid) ≤
        (3 / 3 + 1) * denseRun.node.router.config.fanout.toNat := by
  have reached : Reachable pacedSystem denseRun := by
    apply ticked_run_reachable _ (by decide)
    apply ticked_run_reachable _ (by decide)
    exact ticked_run_reachable (crowded_run_reachable 4) (by decide)
  exact ⟨by decide +kernel, rebroadcast_within_budget denseRun reached agedMessage.uuid 10 3⟩

end BitChat.RebroadcastBudget
