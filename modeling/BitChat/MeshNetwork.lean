import BitChat.MeshRouter
import BitChat.Library.TransitionSystem

/-!
# Networks of routers

Any set of routers with SQLite storage, in any interleaving of their calls.
A tick is taken apart into its phases, so that other nodes may act between
them; `tick_is_its_phases` puts it back together. The network keeps every
datagram that was ever sent and may hand any of them to any node any number
of times: this covers delay, reordering, loss and duplication.
-/

namespace BitChat.MeshNetwork

open BitChat.WireMessage BitChat.DedupTable BitChat.PendingStorage BitChat.MeshRouter
open TransitionSystem

set_option autoImplicit false

section Network

variable {Place : Type}

inductive MeshCall (Place : Type) where
  | broadcast (env : CallEnv) (msg : BcMessage)
  | receive (sender : Place) (env : CallEnv) (data : List UInt8)
  | evict (now : UInt64)
  | rebroadcast (env : TickEnv)
  | expire (now : UInt64)
  | addPeer (now : UInt64) (peer : BcPeer)
  | setOnMessage (callback : Bool)

def MeshCall.run (node : Node PendingMessages) : MeshCall Place →
    Node PendingMessages × List Event
  | .broadcast env msg =>
      ((bcRouterBroadcast node env msg).node, (bcRouterBroadcast node env msg).events)
  | .receive _ env data =>
      ((bcRouterReceive node env data).node, (bcRouterReceive node env data).events)
  | .evict now => (tickEvict node now, [])
  | .rebroadcast env => tickRebroadcast node env
  | .expire now => (tickExpire node now, [])
  | .addPeer now peer => ({ node with router := bcRouterAddPeer node.router now peer }, [])
  | .setOnMessage callback =>
      ({ node with router := bcRouterSetOnMessage node.router callback }, [])

def MeshCall.readings : MeshCall Place → List UInt64
  | .broadcast env _ => [env.now, env.storeNow]
  | .receive _ env _ => [env.now, env.storeNow]
  | .evict now => [now]
  | .rebroadcast env => [env.sfNow, env.pendingNow]
  | .expire now => [now]
  | .addPeer now _ => [now]
  | .setOnMessage _ => []

structure Transmission (Place : Type) where
  sender : Place
  data : List UInt8
deriving DecidableEq

/-- One invocation of `on_message`, with the reading of the receive that led
to it. -/
structure Delivery (Place : Type) where
  place : Place
  msg : BcMessage
  time : UInt64

/-- The nodes with the last clock reading of each, and what has happened so
far: all transmissions, the hops that datagrams took, all broadcasts with
their origin, all deliveries. -/
structure MeshState (Place : Type) where
  node : Place → Node PendingMessages
  clock : Place → UInt64
  sent : List (Transmission Place)
  hops : List (Place × Place)
  broadcasts : List (Place × BcMessage)
  delivered : List (Delivery Place)

def transmissions (place : Place) (events : List Event) : List (Transmission Place) :=
  events.filterMap fun event => match event with
    | .send _ data _ => some ⟨place, data⟩
    | _ => none

def deliveries (place : Place) (time : UInt64) (events : List Event) : List (Delivery Place) :=
  events.filterMap fun event => match event with
    | .deliver msg => some ⟨place, msg, time⟩
    | _ => none

def MeshCall.hop [DecidableEq Place] (place : Place) : MeshCall Place → List (Place × Place)
  | .receive sender _ _ => if sender = place then [] else [(sender, place)]
  | _ => []

def MeshCall.origin (place : Place) : MeshCall Place → List (Place × BcMessage)
  | .broadcast _ msg => [(place, msg)]
  | _ => []

def MeshState.after [DecidableEq Place] (state : MeshState Place) (place : Place)
    (call : MeshCall Place) : MeshState Place :=
  let result := call.run (state.node place)
  { node := Function.update state.node place result.1
    clock := Function.update state.clock place (call.readings.getLastD (state.clock place))
    sent := state.sent ++ transmissions place result.2
    hops := state.hops ++ call.hop place
    broadcasts := state.broadcasts ++ call.origin place
    delivered := state.delivered ++
      deliveries place (call.readings.headD (state.clock place)) result.2 }

/-- Only datagrams that some router sent are received, whole or cut to the
4096 bytes of the buffer in a tick. -/
def MeshCall.Allowed (state : MeshState Place) : MeshCall Place → Prop
  | .receive sender _ data => ∃ transmission ∈ state.sent, transmission.sender = sender ∧
      (data = transmission.data ∨ data = transmission.data.take 4096)
  | _ => True

/-- Routers as `bc_router_create` leaves them, over empty stores. -/
def meshSystem [DecidableEq Place] (configs : Place → Option BcRouterConfig) :
    System (MeshState Place) (Place × MeshCall Place) where
  initial state :=
    (∀ place, (state.node place).store = KeyedTable.empty ∧
      ∃ alloc transport localPubkey,
        bcRouterCreate alloc transport (some sqliteStorage) localPubkey (configs place) =
          some (state.node place).router) ∧
    state.sent = [] ∧ state.hops = [] ∧ state.broadcasts = [] ∧ state.delivered = []
  step state label after :=
    label.2.Allowed state ∧ after = state.after label.1 label.2

/-- The copies of messages a call can put in flight, in storage or into the
callback. -/
def MeshCall.Emits (node : Node PendingMessages) : MeshCall Place → BcMessage → Prop
  | .broadcast _ msg, copy => copy = msg
  | .receive _ env data, copy => ∃ parsed,
      bcMessageDeserialize env.alloc ⟨data, env.beyond⟩ = some parsed ∧ parsed.ttl ≠ 0 ∧
        copy = { parsed with ttl := parsed.ttl - 1 }
  | .rebroadcast _, copy => ∃ row ∈ node.store.rows, copy = rowMessage row
  | _, _ => False

def OnSqlite (router : BcRouter PendingMessages) : Prop :=
  router.storage = none ∨ router.storage = some sqliteStorage

section CallSpecifications

variable {node : Node PendingMessages}

theorem store_if_present_rows {now : UInt64} {msg : BcMessage} {row : PendingRow}
    (member : row ∈ (storeIfPresent node now msg).1.store.rows) (storage : OnSqlite node.router) :
    row ∈ node.store.rows ∨ row = storedRow now msg := by
  rcases storage with absent | present
  · simp only [storeIfPresent, absent, Option.bind_none] at member
    exact .inl member
  · simp only [storeIfPresent, present, Option.bind_some, sqliteStorage,
      sqliteStoreMessage] at member
    exact KeyedTable.mem_insert_or_ignore member

theorem rebroadcast_from_rows {env : TickEnv} {event : Event} (storage : OnSqlite node.router)
    (member : event ∈ (tickRebroadcast node env).2) :
    ∃ row ∈ node.store.rows, ∃ peer rc, event = .send peer (wireBytes (rowMessage row)) rc := by
  rcases storage with absent | present
  · simp only [tickRebroadcast, absent, Option.bind_none] at member
    cases member
  · simp only [tickRebroadcast, present, Option.bind_some, sqliteStorage] at member
    split_ifs at member with due ok
    · obtain ⟨msg, pending, peer, rc, sent⟩ := rebroadcast_loop_events _ _ _ _ _ _ member
      obtain ⟨row, inRows, same⟩ := get_pending_from_rows pending
      rw [same] at sent
      exact ⟨row, inRows, peer, rc, sent⟩
    · cases member
    · cases member

theorem rebroadcast_store (node : Node PendingMessages) (env : TickEnv) :
    (tickRebroadcast node env).1.store = node.store := by
  unfold tickRebroadcast
  split
  · rfl
  · split_ifs <;> rfl

structure SameSetup (before after : BcRouter PendingMessages) : Prop where
  storage : after.storage = before.storage
  config : after.config = before.config
  dedupCap : after.dedupCap = before.dedupCap

theorem SameSetup.of_fixture {before after : BcRouter PendingMessages}
    (fixture : SameFixture before after) : SameSetup before after :=
  ⟨fixture.storage, fixture.config, fixture.dedupCap⟩

theorem run_setup (node : Node PendingMessages) (call : MeshCall Place) :
    SameSetup node.router (call.run node).1.router := by
  cases call with
  | broadcast env msg => exact .of_fixture (broadcast_fixture node env msg)
  | receive sender env data => exact .of_fixture (receive_fixture node env data)
  | evict now => exact .of_fixture (evict_fixture node now)
  | rebroadcast env => exact .of_fixture (rebroadcast_fixture node env)
  | expire now => exact .of_fixture (expire_fixture node now)
  | addPeer now peer => exact ⟨rfl, rfl, rfl⟩
  | setOnMessage callback => exact ⟨rfl, rfl, rfl⟩

section After

variable [DecidableEq Place] (state : MeshState Place) (place : Place) (call : MeshCall Place)

theorem after_node_here :
    (state.after place call).node place = (call.run (state.node place)).1 :=
  Function.update_self _ _ _

theorem after_node_elsewhere {other : Place} (away : other ≠ place) :
    (state.after place call).node other = state.node other := Function.update_of_ne away _ _

theorem after_clock_here :
    (state.after place call).clock place = call.readings.getLastD (state.clock place) :=
  Function.update_self _ _ _

theorem after_clock_elsewhere {other : Place} (away : other ≠ place) :
    (state.after place call).clock other = state.clock other := Function.update_of_ne away _ _

theorem after_setup (other : Place) :
    SameSetup (state.node other).router ((state.after place call).node other).router := by
  by_cases here : other = place
  · rw [here, after_node_here]
    exact run_setup (state.node place) call
  · rw [after_node_elsewhere state place call here]
    exact ⟨rfl, rfl, rfl⟩

end After

theorem run_table (node : Node PendingMessages) (call : MeshCall Place) :
    (call.run node).1.router.dedupTable = node.router.dedupTable ∨
    (∃ now, call = .evict now ∧ (call.run node).1.router.dedupTable =
      dedupEvict node.router.dedupTable node.router.dedupCap node.router.config.dedupMaxAge now) ∨
    (∃ env msg, call = .broadcast env msg ∧ (call.run node).1.router.dedupTable =
      dedupInsert node.router.dedupTable node.router.dedupCap node.router.config.dedupMaxAge
        env.now msg.uuid) ∨
    (∃ sender env data msg, call = .receive sender env data ∧
      bcMessageDeserialize env.alloc ⟨data, env.beyond⟩ = some msg ∧
      dedupContains node.router.dedupTable node.router.dedupCap msg.uuid = false ∧
      (call.run node).1.router.dedupTable =
        dedupInsert node.router.dedupTable node.router.dedupCap node.router.config.dedupMaxAge
          env.now msg.uuid) := by
  cases call with
  | broadcast env msg =>
      refine .inr (.inr (.inl ⟨env, msg, rfl, ?_⟩))
      simp only [MeshCall.run, broadcast_router]
      rfl
  | receive sender env data =>
      simp only [MeshCall.run]
      rcases receive_router node env data with same | ⟨msg, parsed, unseen, marked⟩
      · exact .inl (by rw [same])
      · refine .inr (.inr (.inr ⟨sender, env, data, msg, rfl, parsed, unseen, ?_⟩))
        rw [marked]
        rfl
  | evict now => exact .inr (.inl ⟨now, rfl, rfl⟩)
  | rebroadcast env => exact .inl (rebroadcast_table node env)
  | expire now => exact .inl (congrArg BcRouter.dedupTable (expire_router node now))
  | addPeer now peer => exact .inl rfl
  | setOnMessage callback => exact .inl rfl

theorem run_sends {call : MeshCall Place} {peer : Pubkey} {data : List UInt8} {rc : Rc}
    (storage : OnSqlite node.router)
    (sent : Event.send peer data rc ∈ (call.run node).2) :
    ∃ copy, call.Emits node copy ∧ data = wireBytes copy := by
  cases call with
  | broadcast env msg =>
      refine ⟨msg, rfl, ?_⟩
      rcases broadcast_events node env sent with ⟨_, _, forwarded⟩ | ⟨_, stored⟩
      · cases forwarded
        rfl
      · cases stored
  | receive sender env received =>
      obtain ⟨msg, parsed, -, forwarded⟩ := receive_event node env sent
      obtain ⟨alive, bytes⟩ := receive_new_sends node env forwarded
      exact ⟨_, ⟨msg, parsed, alive, rfl⟩, bytes⟩
  | rebroadcast env =>
      obtain ⟨row, inRows, _, _, bytes⟩ := rebroadcast_from_rows storage sent
      cases bytes
      exact ⟨rowMessage row, ⟨row, inRows, rfl⟩, rfl⟩
  | evict now => cases sent
  | expire now => cases sent
  | addPeer now other => cases sent
  | setOnMessage callback => cases sent

theorem run_delivers {call : MeshCall Place} {msg : BcMessage}
    (storage : OnSqlite node.router)
    (event : Event.deliver msg ∈ (call.run node).2) :
    call.Emits node msg ∧ ∃ sender env data parsed, call = .receive sender env data ∧
      bcMessageDeserialize env.alloc ⟨data, env.beyond⟩ = some parsed ∧
      dedupContains node.router.dedupTable node.router.dedupCap parsed.uuid = false ∧
      (call.run node).2 = [.deliver msg] ∧ msg.uuid = parsed.uuid ∧
      (call.run node).1.router = node.router.mark env.now parsed.uuid := by
  cases call with
  | broadcast env sent =>
      rcases broadcast_events node env event with ⟨_, _, forwarded⟩ | ⟨_, stored⟩
      · cases forwarded
      · cases stored
  | receive sender env received =>
      obtain ⟨parsed, accepted, unseen, delivered⟩ := receive_event node env event
      obtain ⟨alive, hopped, mine, registered⟩ := receive_new_delivers node env delivered
      refine ⟨⟨parsed, accepted, alive, hopped⟩, sender, env, received, parsed, rfl, accepted,
        unseen, ?_, by rw [hopped], ?_⟩
      · rw [hopped]
        exact receive_delivers node env accepted unseen alive mine registered
      · rw [MeshCall.run, receive_unseen node env accepted unseen]
        exact receive_new_router node env parsed
  | rebroadcast env =>
      obtain ⟨_, _, _, _, wrong⟩ := rebroadcast_from_rows storage event
      cases wrong
  | evict now => cases event
  | expire now => cases event
  | addPeer now other => cases event
  | setOnMessage callback => cases event

theorem run_rows {call : MeshCall Place} {row : PendingRow}
    (storage : OnSqlite node.router)
    (member : row ∈ (call.run node).1.store.rows) :
    row ∈ node.store.rows ∨ ∃ now copy, call.Emits node copy ∧ row = storedRow now copy := by
  cases call with
  | broadcast env msg =>
      simp only [MeshCall.run] at member
      rcases broadcast_cases node env msg with ⟨-, same⟩ | ⟨-, same⟩
      · rw [same] at member
        exact .inl member
      · rw [same] at member
        rcases store_if_present_rows member storage with before | new
        · exact .inl before
        · exact .inr ⟨env.storeNow, msg, rfl, new⟩
  | receive sender env received =>
      simp only [MeshCall.run] at member
      rcases receive_relay_cases node env received with
        ⟨-, same⟩ | ⟨msg, parsed, -, alive, -, -, same⟩
      · rw [same] at member
        exact .inl member
      · rw [same] at member
        rcases store_if_present_rows member storage with before | new
        · exact .inl before
        · exact .inr ⟨env.storeNow, _, ⟨msg, parsed, alive, rfl⟩, new⟩
  | rebroadcast env =>
      simp only [MeshCall.run, rebroadcast_store] at member
      exact .inl member
  | expire now =>
      rcases storage with absent | present
      · simp only [MeshCall.run, tickExpire, absent, Option.bind_none] at member
        exact .inl member
      · simp only [MeshCall.run, tickExpire, present, Option.bind_some, sqliteStorage,
          sqliteEvictExpired] at member
        exact .inl (KeyedTable.mem_delete_where.mp member).1
  | evict now => exact .inl member
  | addPeer now other => exact .inl member
  | setOnMessage callback => exact .inl member

end CallSpecifications

theorem mem_transmissions {place : Place} {events : List Event}
    {transmission : Transmission Place} (member : transmission ∈ transmissions place events) :
    transmission.sender = place ∧ ∃ peer rc, Event.send peer transmission.data rc ∈ events := by
  obtain ⟨event, inEvents, made⟩ := List.mem_filterMap.mp member
  cases event with
  | send peer data rc =>
      cases made
      exact ⟨rfl, peer, rc, inEvents⟩
  | deliver msg => cases made
  | store msg rc => cases made

theorem mem_deliveries {place : Place} {time : UInt64} {events : List Event}
    {delivery : Delivery Place} (member : delivery ∈ deliveries place time events) :
    delivery.place = place ∧ delivery.time = time ∧ Event.deliver delivery.msg ∈ events := by
  obtain ⟨event, inEvents, made⟩ := List.mem_filterMap.mp member
  cases event with
  | deliver msg =>
      cases made
      exact ⟨rfl, rfl, inEvents⟩
  | send peer data rc => cases made
  | store msg rc => cases made

section Ticks

def callbacks (events : List Event) : List BcMessage :=
  events.filterMap fun event => match event with
    | .deliver msg => some msg
    | _ => none

structure Ran (place : Place) (state : MeshState Place) (node : Node PendingMessages)
    (events : List Event) (after : MeshState Place) : Prop where
  node : after.node place = node
  sent : after.sent = state.sent ++ transmissions place events
  delivered : after.delivered.map Delivery.msg = state.delivered.map Delivery.msg ++
    callbacks events

theorem Ran.nothing (place : Place) (state : MeshState Place) :
    Ran place state (state.node place) [] state :=
  ⟨rfl, (List.append_nil _).symm, (List.append_nil _).symm⟩

theorem Ran.append {place : Place} {state middle after : MeshState Place}
    {node final : Node PendingMessages} {first second : List Event}
    (before : Ran place state node first middle) (rest : Ran place middle final second after) :
    Ran place state final (first ++ second) after where
  node := rest.node
  sent := by
    rw [rest.sent, before.sent, List.append_assoc, transmissions, transmissions, transmissions,
      List.filterMap_append]
  delivered := by
    rw [rest.delivered, before.delivered, List.append_assoc, callbacks, callbacks, callbacks,
      List.filterMap_append]

theorem deliveries_msg (place : Place) (time : UInt64) (events : List Event) :
    (deliveries place time events).map Delivery.msg = callbacks events := by
  induction events with
  | nil => rfl
  | cons event rest ih =>
      cases event with
      | deliver msg => exact congrArg (msg :: ·) ih
      | store msg rc => exact ih
      | send peer data rc => exact ih

variable [DecidableEq Place]

def MeshState.afterAll (state : MeshState Place) (place : Place) (calls : List (MeshCall Place)) :
    MeshState Place :=
  calls.foldl (fun current call => current.after place call) state

def accepted : List (Place × Arrival) → List (Place × Arrival) :=
  List.takeWhile fun entry => decide (entry.2.rc = .ok ∧ 0 < entry.2.received.length)

def receiveCalls (arrivals : List (Place × Arrival)) : List (MeshCall Place) :=
  (accepted arrivals).map fun entry => .receive entry.1 entry.2.env entry.2.received

/-- A tick as calls of the network; each arrival comes with its sender. -/
def tickPhases (node : Node PendingMessages) (env : TickEnv) (arrivals : List (Place × Arrival)) :
    List (MeshCall Place) :=
  .evict env.evictNow ::
    (if (node.router.transport.map BcTransport.recv).getD false = true then receiveCalls arrivals
      else []) ++
    [.rebroadcast env, .expire env.expireNow]

theorem ran_call (state : MeshState Place) (place : Place) (call : MeshCall Place) :
    Ran place state (call.run (state.node place)).1 (call.run (state.node place)).2
      (state.after place call) where
  node := after_node_here state place call
  sent := rfl
  delivered := by simp only [MeshState.after, List.map_append, deliveries_msg]

theorem ran_receive_calls (place : Place) (arrivals : List (Place × Arrival)) :
    ∀ state : MeshState Place,
      Ran place state (receiveLoop (state.node place) (arrivals.map Prod.snd)).1
        (receiveLoop (state.node place) (arrivals.map Prod.snd)).2
        (state.afterAll place (receiveCalls arrivals)) := by
  induction arrivals with
  | nil => exact fun state => Ran.nothing place state
  | cons entry rest ih =>
      intro state
      by_cases more : entry.2.rc = .ok ∧ 0 < entry.2.received.length
      · let call : MeshCall Place := .receive entry.1 entry.2.env entry.2.received
        have split : receiveCalls (entry :: rest) = call :: receiveCalls rest := by
          simp [receiveCalls, accepted, more, call]
        have first := ran_call state place call
        have later := ih (state.after place call)
        rw [first.node] at later
        rw [split, List.map_cons, receiveLoop, if_pos more]
        exact first.append later
      · have split : receiveCalls (entry :: rest) = [] := by
          simp [receiveCalls, accepted, more]
        rw [split, List.map_cons, receiveLoop, if_neg more]
        exact Ran.nothing place state

/-- `bc_router_tick` is its phases one after the other, in what it does to
the node, in what it sends and in what it delivers. -/
theorem tick_is_its_phases (state : MeshState Place) (place : Place) (env : TickEnv)
    (arrivals : List (Place × Arrival)) (polled : env.arrivals = arrivals.map Prod.snd) :
    Ran place state (bcRouterTick (state.node place) env).1
      (bcRouterTick (state.node place) env).2
      (state.afterAll place (tickPhases (state.node place) env arrivals)) := by
  let evicted := state.after place (.evict env.evictNow)
  let receives : List (MeshCall Place) :=
    if ((state.node place).router.transport.map BcTransport.recv).getD false = true then
      receiveCalls arrivals
    else []
  have evict : Ran place state (tickEvict (state.node place) env.evictNow) [] evicted :=
    ran_call state place (.evict env.evictNow)
  have poll : Ran place evicted
      (tickPoll (tickEvict (state.node place) env.evictNow) env.arrivals).1
      (tickPoll (tickEvict (state.node place) env.evictNow) env.arrivals).2
      (evicted.afterAll place receives) := by
    have sameTransport : (tickEvict (state.node place) env.evictNow).router.transport =
        (state.node place).router.transport := rfl
    simp only [receives, tickPoll, sameTransport]
    split_ifs with listening
    · rw [polled, ← evict.node]
      exact ran_receive_calls place arrivals evicted
    · rw [← evict.node]
      exact Ran.nothing place evicted
  have rebroadcast := ran_call (evicted.afterAll place receives) place (.rebroadcast env)
  rw [poll.node] at rebroadcast
  have expire := ran_call ((evicted.afterAll place receives).after place (.rebroadcast env)) place
    (.expire env.expireNow)
  rw [rebroadcast.node] at expire
  have order : state.afterAll place (tickPhases (state.node place) env arrivals) =
      ((evicted.afterAll place receives).after place (.rebroadcast env)).after place
        (.expire env.expireNow) := by
    simp only [tickPhases, MeshState.afterAll, List.cons_append, List.foldl_cons,
      List.foldl_append, List.foldl_nil]
    rfl
  have whole := ((evict.append poll).append rebroadcast).append expire
  rw [order]
  rw [show (MeshCall.expire env.expireNow : MeshCall Place).run _ = (_, []) from rfl,
    List.append_nil, List.nil_append] at whole
  exact whole

theorem reachable_after {configs : Place → Option BcRouterConfig}
    {guard : MeshState Place → Place × MeshCall Place → Prop} {state : MeshState Place}
    (place : Place) (call : MeshCall Place)
    (reached : Reachable (guarded (meshSystem configs) guard) state)
    (allowed : call.Allowed state) (admitted : guard state (place, call)) :
    Reachable (guarded (meshSystem configs) guard) (state.after place call) :=
  .next (place, call) reached ⟨⟨allowed, rfl⟩, admitted⟩

end Ticks

end Network

def freshNode (localPubkey : Pubkey) : Node PendingMessages where
  router :=
    { transport := some ⟨true, true, true⟩
      storage := some sqliteStorage
      config := bcDefaultConfig
      localPubkey := localPubkey
      dedupTable := emptyTable
      dedupCap := 10000
      peers := []
      onMessage := false
      lastSfTick := 0 }
  store := KeyedTable.empty

def pairMesh : MeshState Bool where
  node place := freshNode (List.Vector.replicate 32 (if place then 2 else 1))
  clock := fun _ => 0
  sent := []
  hops := []
  broadcasts := []
  delivered := []

theorem pair_mesh_initial : (meshSystem fun _ => none).initial pairMesh :=
  ⟨fun _ => ⟨rfl, allocates, some ⟨true, true, true⟩, _, rfl⟩, rfl, rfl, rfl, rfl⟩

def receiverPeer : BcPeer where
  pubkey := List.Vector.replicate 32 2
  lastSeen := 0
  transport := .wifiDirect
  rssi := 0

def broadcastMesh : MeshState Bool :=
  ((pairMesh.after true (.setOnMessage true)).after false (.addPeer 0 receiverPeer)).after false
    (.broadcast (quietEnv 0) (probeMessage 0))

def deliveredMesh : MeshState Bool :=
  broadcastMesh.after true (.receive false (quietEnv 0) (wireBytes (probeMessage 0)))

theorem delivered_mesh_reachable (guard : MeshState Bool → Bool × MeshCall Bool → Prop)
    (listens : guard pairMesh (true, .setOnMessage true))
    (meets : guard (pairMesh.after true (.setOnMessage true)) (false, .addPeer 0 receiverPeer))
    (broadcasts : guard ((pairMesh.after true (.setOnMessage true)).after false
      (.addPeer 0 receiverPeer)) (false, .broadcast (quietEnv 0) (probeMessage 0)))
    (receives : guard broadcastMesh
      (true, .receive false (quietEnv 0) (wireBytes (probeMessage 0)))) :
    Reachable (guarded (meshSystem fun _ => none) guard) deliveredMesh := by
  have start : Reachable (guarded (meshSystem fun _ => none) guard) pairMesh :=
    .start pair_mesh_initial
  have listening := reachable_after true (.setOnMessage true) start trivial listens
  have met := reachable_after false (.addPeer 0 receiverPeer) listening trivial meets
  have sent := reachable_after false (.broadcast (quietEnv 0) (probeMessage 0)) met trivial
    broadcasts
  apply reachable_after true (.receive false (quietEnv 0) (wireBytes (probeMessage 0))) sent _
    receives
  exact ⟨⟨false, wireBytes (probeMessage 0)⟩, List.mem_singleton_self _, rfl, .inl rfl⟩

end BitChat.MeshNetwork
