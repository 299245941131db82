import BitChat.RouterRuns
import BitChat.Library.Chronicle

/-!
# No false duplicates

A run of a router keeps a record of the broadcasts and receives so far, those
inside its ticks included. Every occupied slot of the deduplication table
goes back to a processing in that record, with the uuid and the reading that
the slot holds: never written, reused, overwritten and emptied slots do not
answer for a uuid that the router has not processed. After the eviction at
the start of a tick no slot is left that is older than `dedup_max_age`.
-/

namespace BitChat.FalseDuplicates

open BitChat.WireMessage BitChat.DedupTable BitChat.MeshRouter BitChat.RouterRuns
open TransitionSystem Chronicle

set_option autoImplicit false

/-- One broadcast or receive: the uuid, unless the datagram does not parse,
the status, the reading, and that of the eviction before it where it happens
inside a tick. -/
structure Handling where
  uuid : Option Uuid
  rc : Rc
  time : UInt64
  evicted : Option UInt64

def Handling.Processed (handling : Handling) (uuid : Uuid) : Prop :=
  handling.uuid = some uuid ∧ handling.rc ≠ .duplicate

/-- A duplicate has been processed before, and inside a tick at the reading of
its eviction not more than `maxAge` seconds ago. -/
def NoFalseDuplicate (maxAge : UInt64) (before : List Handling) (handling : Handling) : Prop :=
  handling.rc = .duplicate →
    ∃ uuid, handling.uuid = some uuid ∧
      ∃ earlier ∈ before, earlier.Processed uuid ∧ earlier.time ≤ handling.time ∧
        (handling.evicted = some handling.time → handling.time - earlier.time ≤ maxAge)

section Record

variable {Store : Type}

def broadcastHandling (node : Node Store) (env : CallEnv) (msg : BcMessage) : Handling where
  uuid := some msg.uuid
  rc := (bcRouterBroadcast node env msg).rc
  time := env.now
  evicted := none

def receiveHandling (node : Node Store) (env : CallEnv) (data : List UInt8)
    (evicted : Option UInt64) : Handling where
  uuid := (bcMessageDeserialize env.alloc ⟨data, env.beyond⟩).map BcMessage.uuid
  rc := (bcRouterReceive node env data).rc
  time := env.now
  evicted := evicted

def loopHandlings (evictNow : UInt64) : Node Store → List Arrival → List Handling
  | _, [] => []
  | node, arrival :: rest =>
      if arrival.rc = .ok ∧ 0 < arrival.received.length then
        receiveHandling node arrival.env arrival.received (some evictNow) ::
          loopHandlings evictNow (bcRouterReceive node arrival.env arrival.received).node rest
      else []

def tickHandlings (node : Node Store) (env : TickEnv) : List Handling :=
  let evicted := tickEvict node env.evictNow
  if (evicted.router.transport.map BcTransport.recv).getD false = true then
    loopHandlings env.evictNow evicted env.arrivals
  else []

def callHandlings (node : Node Store) : RouterCall → List Handling
  | .broadcast env msg => [broadcastHandling node env msg]
  | .receive env data => [receiveHandling node env data none]
  | .tick env => tickHandlings node env
  | .addPeer _ _ => []
  | .setOnMessage _ => []

structure RecordedRun (Store : Type) where
  node : Node Store
  clock : UInt64
  history : List Handling

def recordedSystem (Store : Type) : System (RecordedRun Store) RouterCall where
  initial run := (routerSystem Store).initial ⟨run.node, run.clock⟩ ∧ run.history = []
  step before call after :=
    (routerSystem Store).step ⟨before.node, before.clock⟩ call ⟨after.node, after.clock⟩ ∧
      after.history = before.history ++ callHandlings before.node call

structure Recorded (node : Node Store) (clock : UInt64) (history : List Handling) : Prop where
  positive : 0 < node.router.dedupCap
  slots : ∀ slot, slot < node.router.dedupCap →
    (node.router.dedupTable slot).occupied = true →
    (node.router.dedupTable slot).seenAt ≤ clock ∧
      ∃ earlier ∈ history, earlier.Processed (node.router.dedupTable slot).uuid ∧
        earlier.time = (node.router.dedupTable slot).seenAt
  always : Always (NoFalseDuplicate node.router.config.dedupMaxAge) history

def Unexpired (node : Node Store) (evictNow : UInt64) : Prop :=
  ∀ slot, slot < node.router.dedupCap → (node.router.dedupTable slot).occupied = true →
    evictNow.toNat ≤
      (node.router.dedupTable slot).seenAt.toNat + node.router.config.dedupMaxAge.toNat

theorem no_false_duplicate_longer {maxAge : UInt64} (before more : List Handling)
    (handling : Handling) (origin : NoFalseDuplicate maxAge before handling) :
    NoFalseDuplicate maxAge (before ++ more) handling := by
  intro duplicate
  obtain ⟨uuid, carried, earlier, member, rest⟩ := origin duplicate
  exact ⟨uuid, carried, earlier, List.mem_append_left _ member, rest⟩

theorem always_record {maxAge : UInt64} {history : List Handling} {handling : Handling}
    (always : Always (NoFalseDuplicate maxAge) history)
    (origin : NoFalseDuplicate maxAge history handling) :
    Always (NoFalseDuplicate maxAge) (history ++ [handling]) := by
  refine always_append no_false_duplicate_longer always fun happening member => ?_
  rw [List.mem_singleton.mp member]
  exact origin

variable {node changed : Node Store} {clock : UInt64} {history : List Handling}

theorem Recorded.later {after : UInt64} (recorded : Recorded node clock history)
    (order : clock ≤ after) : Recorded node after history where
  positive := recorded.positive
  slots slot bound taken := by
    obtain ⟨past, origin⟩ := recorded.slots slot bound taken
    exact ⟨UInt64.le_trans past order, origin⟩
  always := recorded.always

theorem Recorded.of_router (recorded : Recorded node clock history)
    (cap : changed.router.dedupCap = node.router.dedupCap)
    (config : changed.router.config = node.router.config)
    (table : changed.router.dedupTable = node.router.dedupTable) :
    Recorded changed clock history := by
  refine ⟨by rw [cap]; exact recorded.positive, ?_, by rw [config]; exact recorded.always⟩
  rw [cap, table]
  exact recorded.slots

theorem Recorded.append {handling : Handling} (recorded : Recorded node clock history)
    (origin : NoFalseDuplicate node.router.config.dedupMaxAge history handling) :
    Recorded node clock (history ++ [handling]) where
  positive := recorded.positive
  slots slot bound taken := by
    obtain ⟨past, earlier, member, processed⟩ := recorded.slots slot bound taken
    exact ⟨past, earlier, List.mem_append_left _ member, processed⟩
  always := always_record recorded.always origin

theorem Recorded.mark {now : UInt64} {uuid : Uuid} {handling : Handling}
    (recorded : Recorded node clock history) (order : clock ≤ now)
    (router : changed.router = node.router.mark now uuid) (processed : handling.Processed uuid)
    (time : handling.time = now) : Recorded changed now (history ++ [handling]) := by
  constructor
  · rw [router]
    exact recorded.positive
  · rw [router]
    intro slot bound taken
    rcases dedup_insert_entry node.router.dedupTable node.router.config.dedupMaxAge now uuid slot
      recorded.positive with new | old
    · rw [show (node.router.mark now uuid).dedupTable slot = ⟨uuid, now, true⟩ from new]
      exact ⟨UInt64.le_refl now, handling, by simp, processed, time⟩
    · rw [show (node.router.mark now uuid).dedupTable slot = node.router.dedupTable slot from old]
        at taken ⊢
      obtain ⟨past, earlier, member, origin⟩ := recorded.slots slot bound taken
      exact ⟨UInt64.le_trans past order, earlier, List.mem_append_left _ member, origin⟩
  · rw [router]
    refine always_record recorded.always fun duplicate => ?_
    exact absurd duplicate processed.2

theorem Unexpired.mark {evictNow now : UInt64} {uuid : Uuid} (unexpired : Unexpired node evictNow)
    (positive : 0 < node.router.dedupCap) (order : evictNow ≤ now)
    (router : changed.router = node.router.mark now uuid) : Unexpired changed evictNow := by
  unfold Unexpired
  rw [router]
  intro slot bound taken
  rcases dedup_insert_entry node.router.dedupTable node.router.config.dedupMaxAge now uuid slot
    positive with new | old
  · rw [show (node.router.mark now uuid).dedupTable slot = ⟨uuid, now, true⟩ from new]
    have reading : evictNow.toNat ≤ now.toNat := UInt64.le_iff_toNat_le.mp order
    exact Nat.le_add_right_of_le reading
  · rw [show (node.router.mark now uuid).dedupTable slot = node.router.dedupTable slot from old]
      at taken ⊢
    exact unexpired slot bound taken

theorem contains_slot {table : Table} {cap : Nat} {uuid : Uuid} (positive : 0 < cap)
    (found : dedupContains table cap uuid = true) :
    ∃ slot, slot < cap ∧ (table slot).occupied = true ∧ (table slot).uuid = uuid := by
  obtain ⟨k, -, same, walk⟩ := (dedup_contains_iff table cap uuid).mp found
  exact ⟨_, Nat.mod_lt _ positive, walk k (Nat.lt_succ_self k), same⟩

theorem Recorded.duplicate (handling : Handling) {uuid : Uuid}
    (recorded : Recorded node clock history) (order : clock ≤ handling.time)
    (unexpired : ∀ evictNow, handling.evicted = some evictNow → Unexpired node evictNow)
    (carried : handling.uuid = some uuid)
    (found : dedupContains node.router.dedupTable node.router.dedupCap uuid = true) :
    NoFalseDuplicate node.router.config.dedupMaxAge history handling := by
  intro _
  obtain ⟨slot, bound, taken, same⟩ := contains_slot recorded.positive found
  obtain ⟨past, earlier, member, processed, time⟩ := recorded.slots slot bound taken
  rw [same] at processed
  have before : earlier.time ≤ handling.time := by
    rw [time]
    exact UInt64.le_trans past order
  refine ⟨uuid, carried, earlier, member, processed, before, fun inTick => ?_⟩
  have age := unexpired _ inTick slot bound taken
  rw [← time] at age
  rw [UInt64.le_iff_toNat_le, UInt64.toNat_sub_of_le _ _ before]
  omega

theorem Recorded.receive {env : CallEnv} (data : List UInt8) (evicted : Option UInt64)
    (recorded : Recorded node clock history) (order : clock ≤ env.now)
    (unexpired : ∀ evictNow, evicted = some evictNow → Unexpired node evictNow) :
    Recorded (bcRouterReceive node env data).node env.now
      (history ++ [receiveHandling node env data evicted]) := by
  rcases receive_cases node env data with
    ⟨result, -⟩ | ⟨msg, parsed, ⟨found, result⟩ | ⟨-, result⟩⟩
  · rw [result]
    refine (recorded.later order).append fun duplicate => ?_
    rw [receiveHandling, result] at duplicate
    cases duplicate
  · have carried : (receiveHandling node env data evicted).uuid = some msg.uuid := by
      simp [receiveHandling, parsed]
    rw [result]
    exact (recorded.later order).append
      (recorded.duplicate (receiveHandling node env data evicted) order unexpired carried found)
  · have marked := receive_new_router node env msg
    rw [← result] at marked
    refine recorded.mark order marked ⟨by simp [receiveHandling, parsed], ?_⟩ rfl
    rw [receiveHandling, result]
    exact receive_new_rc node env msg

theorem Unexpired.receive {env : CallEnv} {evictNow : UInt64} (data : List UInt8)
    (unexpired : Unexpired node evictNow) (positive : 0 < node.router.dedupCap)
    (order : evictNow ≤ env.now) :
    Unexpired (bcRouterReceive node env data).node evictNow := by
  rcases receive_router node env data with same | ⟨msg, -, -, marked⟩
  · unfold Unexpired
    rw [same]
    exact unexpired
  · exact unexpired.mark positive order marked

/-- The loop of a tick, by induction on the arrivals: each receive starts from
a table that the eviction has gone through. -/
theorem Recorded.receive_loop {evictNow finish : UInt64} (arrivals : List Arrival) :
    ∀ {node : Node Store} {clock : UInt64} {history : List Handling},
      Recorded node clock history → Unexpired node evictNow → evictNow ≤ clock →
      ArrivalsWithin clock finish arrivals →
      Recorded (receiveLoop node arrivals).1 finish
        (history ++ loopHandlings evictNow node arrivals) := by
  induction arrivals with
  | nil =>
      intro node clock history recorded _ _ order
      rw [loopHandlings, List.append_nil]
      exact recorded.later order
  | cons arrival rest ih =>
      intro node clock history recorded unexpired evicted order
      obtain ⟨first, second, later⟩ := order
      rw [receiveLoop, loopHandlings]
      split_ifs with received
      · have here := recorded.receive arrival.received (some evictNow) first
          fun reading same => Option.some.inj same ▸ unexpired
        have next := ih (here.later second)
          (unexpired.receive arrival.received recorded.positive (UInt64.le_trans evicted first))
          (UInt64.le_trans evicted (UInt64.le_trans first second)) later
        rw [List.append_assoc] at next
        exact next
      · rw [List.append_nil]
        exact recorded.later (arrivals_within_le (arrival :: rest) ⟨first, second, later⟩)

theorem evict_slot (node : Node Store) {now : UInt64} {slot : Nat}
    (bound : slot < node.router.dedupCap)
    (taken : ((tickEvict node now).router.dedupTable slot).occupied = true) :
    (tickEvict node now).router.dedupTable slot = node.router.dedupTable slot ∧
      (node.router.dedupTable slot).occupied = true ∧
      ¬ expired node.router.config.dedupMaxAge now (node.router.dedupTable slot) := by
  obtain ⟨was, fresh⟩ := evict_survivor bound taken
  exact ⟨evict_fresh fresh, was, fresh⟩

theorem Recorded.evict {now : UInt64} (recorded : Recorded node clock history)
    (order : clock ≤ now) :
    Recorded (tickEvict node now) now history ∧ Unexpired (tickEvict node now) now := by
  have kept := recorded.later order
  refine ⟨⟨kept.positive, ?_, kept.always⟩, ?_⟩
  · intro slot bound taken
    obtain ⟨same, was, -⟩ := evict_slot node bound taken
    rw [same]
    exact kept.slots slot bound was
  · intro slot bound taken
    obtain ⟨same, was, fresh⟩ := evict_slot node bound taken
    rw [expired_iff (kept.slots slot bound was).1] at fresh
    rw [same]
    exact Nat.le_of_not_lt fresh

theorem Recorded.tick {env : TickEnv} {finish : UInt64} (recorded : Recorded node clock history)
    (within : TickEnv.Within env clock finish) :
    Recorded (bcRouterTick node env).1 finish (history ++ tickHandlings node env) := by
  obtain ⟨start, arrivals, pending, expire, last⟩ := within
  obtain ⟨evicted, unexpired⟩ := recorded.evict start
  have polled : Recorded (tickPoll (tickEvict node env.evictNow) env.arrivals).1 env.sfNow
      (history ++ tickHandlings node env) := by
    simp only [tickPoll, tickHandlings]
    split_ifs
    · exact evicted.receive_loop env.arrivals unexpired (UInt64.le_refl _) arrivals
    · rw [List.append_nil]
      exact evicted.later (arrivals_within_le env.arrivals arrivals)
  have fixture := rebroadcast_fixture (tickPoll (tickEvict node env.evictNow) env.arrivals).1 env
  have rebroadcast := polled.of_router fixture.dedupCap fixture.config (rebroadcast_table _ env)
  have same := expire_router
    (tickRebroadcast (tickPoll (tickEvict node env.evictNow) env.arrivals).1 env).1 env.expireNow
  have ticked : Recorded (bcRouterTick node env).1 env.sfNow (history ++ tickHandlings node env) :=
    rebroadcast.of_router (congrArg _ same) (congrArg _ same) (congrArg _ same)
  exact ticked.later (UInt64.le_trans pending (UInt64.le_trans expire last))

theorem recorded_call {before after : RecordedRun Store} {call : RouterCall}
    (recorded : Recorded before.node before.clock before.history)
    (step : (recordedSystem Store).step before call after) :
    Recorded after.node after.clock after.history := by
  obtain ⟨⟨result, within⟩, history⟩ := step
  simp only at result within
  rw [result, history]
  cases call with
  | broadcast env msg =>
      have processed : (broadcastHandling before.node env msg).Processed msg.uuid :=
        ⟨rfl, broadcast_rc before.node env msg⟩
      have marked := recorded.mark within.1 (broadcast_router before.node env msg) processed rfl
      exact marked.later (UInt64.le_trans within.2.1 within.2.2)
  | receive env data =>
      have received := recorded.receive data none within.1 fun _ inTick => nomatch inTick
      exact received.later (UInt64.le_trans within.2.1 within.2.2)
  | tick env => exact recorded.tick within
  | addPeer now peer =>
      rw [callHandlings, List.append_nil]
      exact (recorded.later (within_le within)).of_router rfl rfl rfl
  | setOnMessage callback =>
      rw [callHandlings, List.append_nil]
      exact (recorded.later (within_le within)).of_router rfl rfl rfl

theorem recorded_of_reachable {run : RecordedRun Store}
    (reached : Reachable (recordedSystem Store) run) :
    Recorded run.node run.clock run.history := by
  apply Reachable.invariant (fun run => Recorded run.node run.clock run.history) _ _ reached
  · rintro start ⟨created, untouched⟩
    obtain ⟨cap, empty⟩ := created_table created
    refine ⟨cap, ?_, by rw [untouched]; exact always_nil⟩
    intro slot bound taken
    rw [empty] at taken
    cases taken
  · exact fun before call after recorded step => recorded_call recorded step

/-- In every run of a router, a datagram is dropped as a duplicate only where
an earlier call has processed its uuid, and inside a tick, at the reading of
its eviction, only where that call was at most `dedup_max_age` seconds ago. -/
theorem no_false_duplicates {run : RecordedRun Store}
    (reached : Reachable (recordedSystem Store) run) :
    Always (NoFalseDuplicate run.node.router.config.dedupMaxAge) run.history :=
  (recorded_of_reachable reached).always

end Record

def hearingNode : Node Unit :=
  { twoSlotNode with router := { twoSlotNode.router with transport := some ⟨false, true, false⟩ } }

def announceCall : RouterCall := .broadcast (quietEnv 0) (probeMessage 0)

def echoCall : RouterCall :=
  .tick { quietTick 600 with arrivals := [⟨.ok, wireBytes (probeMessage 0), quietEnv 600⟩] }

def echoedRun : RecordedRun Unit where
  node := echoCall.run (announceCall.run hearingNode)
  clock := 600
  history := callHandlings hearingNode announceCall ++
    callHandlings (announceCall.run hearingNode) echoCall

theorem echoed_run_reachable : Reachable (recordedSystem Unit) echoedRun := by
  have created : Reachable (recordedSystem Unit) ⟨hearingNode, 0, []⟩ :=
    .start ⟨⟨allocates, some ⟨false, true, false⟩, none, _, some ⟨3, 2, 600⟩, rfl, by decide⟩, rfl⟩
  have announced : Reachable (recordedSystem Unit)
      ⟨announceCall.run hearingNode, 0, callHandlings hearingNode announceCall⟩ :=
    .next announceCall created ⟨⟨rfl, by decide, by decide, by decide⟩, rfl⟩
  refine .next echoCall announced ⟨⟨rfl, ?_⟩, rfl⟩
  exact ⟨by decide, ⟨by decide, by decide, UInt64.le_refl _⟩, by decide, by decide, by decide⟩

/-- The echo is dropped as a duplicate at the age of exactly `dedup_max_age`. -/
theorem echo_not_false_duplicate :
    (echoedRun.history.map fun handling => (handling.rc, handling.time, handling.evicted)) =
        [(.ok, 0, none), (.duplicate, 600, some 600)] ∧
      Always (NoFalseDuplicate 600) echoedRun.history :=
  ⟨by decide +kernel, no_false_duplicates echoed_run_reachable⟩

end BitChat.FalseDuplicates
