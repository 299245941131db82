import BitChat.FloodCoverage
import BitChat.UdpTransport

/-!
# Nodes of the command line client on one host

Each process of `bitchat_cli` has bound its own port and knows the ports of
its neighbours. `udp_send` puts a datagram into the socket of every process
whose port is configured at the sender; `recvfrom` takes the oldest one and
cuts it to the 4096 bytes of the buffer in a tick. Two things are taken for
granted: on the loopback interface every `sendto` succeeds and no datagram is
lost, and a router call is one step, although `main.c` calls its router from
two threads without a lock. Then the processes are a network in the sense of
`MeshNetwork`, and once no socket holds a datagram of a message any more,
everyone in range of a holder has heard it.
-/

namespace BitChat.UdpMesh

open BitChat.WireMessage BitChat.DedupTable BitChat.PendingStorage BitChat.MeshRouter
open BitChat.MeshNetwork BitChat.Provenance BitChat.PeerForwarding BitChat.UdpTransport
open BitChat.FloodRefinement BitChat.FloodCoverage
open TransitionSystem Flooding

set_option autoImplicit false

section Model

variable {Place : Type}

structure Wiring (Place : Type) where
  myPort : Place → UInt16
  peerPorts : Place → List UInt16

def Wiring.InRange (wiring : Wiring Place) (sender receiver : Place) : Prop :=
  wiring.myPort receiver ∈ wiring.peerPorts sender

/-- The network, and the datagrams that wait in each socket, the oldest
first. -/
structure UdpState (Place : Type) where
  run : LoggedMesh Place
  socket : Place → List (Transmission Place)

/-- What the sends of a call at `sender` put into the socket of `receiver`:
one datagram for each send and each time its port is configured. -/
def datagramsFor (wiring : Wiring Place) (sender receiver : Place) (events : List Event) :
    List (Transmission Place) :=
  (transmissions sender events).flatMap fun transmission =>
    ((udpSend ⟨wiring.peerPorts sender⟩ (fun _ => true) transmission.data).2.filter fun port =>
      port = wiring.myPort receiver).map fun _ => transmission

def unread (call : MeshCall Place) (waiting : List (Transmission Place)) :
    List (Transmission Place) :=
  match call with
  | .receive _ _ _ => waiting.tail
  | _ => waiting

/-- `recvfrom` returns the oldest datagram, cut to the buffer. -/
def Reads (waiting : List (Transmission Place)) : MeshCall Place → Prop
  | .receive sender _ data => ∃ transmission rest, waiting = transmission :: rest ∧
      transmission.sender = sender ∧ data = transmission.data.take 4096
  | _ => True

def SendsOverUdp (ctx : UdpCtx) (events : List Event) : Prop :=
  ∀ peer data rc, Event.send peer data rc ∈ events → rc = (udpSend ctx (fun _ => true) data).1

variable [DecidableEq Place]

def UdpState.after (wiring : Wiring Place) (state : UdpState Place) (place : Place)
    (call : MeshCall Place) : UdpState Place where
  run := state.run.after place call
  socket := fun receiver =>
    (if receiver = place then unread call (state.socket place) else state.socket receiver) ++
      datagramsFor wiring place receiver (call.run (state.run.mesh.node place)).2

/-- Sockets without loss and router calls that are not interrupted. -/
def udpSystem (wiring : Wiring Place) (configs : Place → Option BcRouterConfig)
    (keys : Place → Pubkey) : System (UdpState Place) (Place × MeshCall Place) where
  initial state := (loggedSystem configs keys).initial state.run ∧
    ∀ place, state.socket place = []
  step state label after :=
    Reads (state.socket label.1) label.2 ∧
    SendsOverUdp ⟨wiring.peerPorts label.1⟩ (label.2.run (state.run.mesh.node label.1)).2 ∧
    after = state.after wiring label.1 label.2

end Model

section Conditions

variable {Place : Type}

structure Booted (ctx : UdpCtx) (router : BcRouter PendingMessages) : Prop where
  sends : Sends router
  fanout : 0 < router.config.fanout.toNat
  peers : ctx.peerPorts ≠ [] → router.peers ≠ []

structure Provisioned (wiring : Wiring Place) (state : UdpState Place)
    (label : Place × MeshCall Place) : Prop where
  booted : (∃ env msg, label.2 = .broadcast env msg) ∨
    (∃ sender env data, label.2 = .receive sender env data) →
    Booted ⟨wiring.peerPorts label.1⟩ (state.run.mesh.node label.1).router
  memory : ∀ sender env data, label.2 = .receive sender env data →
    env.alloc 0 = true ∧ env.alloc 1 = true ∧ env.alloc 2 = true

end Conditions

section Startup

variable {created : BcRouter PendingMessages} {ctx : UdpCtx} {calls : List AddPeer}

theorem started_booted (started : Started created ctx calls)
    (fanout : 0 < created.config.fanout.toNat) : Booted ctx (addPeers created calls) where
  sends := started.sends
  fanout := by
    rw [(add_peers_fixed created calls).2]
    exact fanout
  peers := by
    intro ports absent
    have count := started.count
    have positive : 0 < ctx.peerPorts.length := List.length_pos_of_ne_nil ports
    rw [absent, List.length_nil] at count
    omega

end Startup

section Forwarding

variable {node : Node PendingMessages}

theorem forward_first (router : BcRouter PendingMessages) (sendRc : Nat → Rc) (data : List UInt8)
    (sends : Sends router) (fanout : 0 < router.config.fanout.toNat) (peers : router.peers ≠ []) :
    ∃ peer rc, Event.send peer data rc ∈ (forwardToPeers router sendRc data).2 := by
  obtain ⟨peer, rest, table⟩ := List.exists_cons_of_ne_nil peers
  refine ⟨peer.pubkey, sendRc 0, ?_⟩
  have present : (router.transport.map BcTransport.send).getD false = true := sends
  simp [forwardToPeers, present, table, forwardLoop, fanout]

theorem receive_new_forwards {env : CallEnv} {msg : BcMessage} (alive : msg.ttl ≠ 0)
    (other : msg.receiverPubkey ≠ node.router.localPubkey) (buffer : env.alloc 2 = true) :
    (receiveNew node env msg).events =
      (storeIfPresent { node with router := node.router.mark env.now msg.uuid } env.storeNow
        { msg with ttl := msg.ttl - 1 }).2 ++
      (forwardToPeers (node.router.mark env.now msg.uuid) env.sendRc
        (wireBytes { msg with ttl := msg.ttl - 1 })).2 := by
  simp [receiveNew, alive, other, buffer, serialize_fits]

theorem store_acts {Place : Type} {call : MeshCall Place} {msg : BcMessage} {rc : Rc}
    (stored : Event.store msg rc ∈ (call.run node).2) :
    (∃ env sent, call = .broadcast env sent) ∨ ∃ sender env data, call = .receive sender env data := by
  cases call with
  | broadcast env sent => exact .inl ⟨env, sent, rfl⟩
  | receive sender env data => exact .inr ⟨sender, env, data, rfl⟩
  | rebroadcast env =>
      obtain ⟨_, _, _, wrong⟩ := rebroadcast_events node env _ stored
      cases wrong
  | evict now => cases stored
  | expire now => cases stored
  | addPeer now peer => cases stored
  | setOnMessage callback => cases stored

theorem stored_is_sent {Place : Type} {call : MeshCall Place} {msg : BcMessage} {rc : Rc}
    (sends : Sends node.router) (fanout : 0 < node.router.config.fanout.toNat)
    (peers : node.router.peers ≠ [])
    (memory : ∀ sender env data, call = .receive sender env data → env.alloc 2 = true)
    (stored : Event.store msg rc ∈ (call.run node).2) :
    ∃ peer status, Event.send peer (wireBytes msg) status ∈ (call.run node).2 := by
  cases call with
  | broadcast env sent =>
      rw [MeshCall.run] at stored ⊢
      rcases broadcast_events node env stored with ⟨_, _, wrong⟩ | ⟨_, same⟩
      · cases wrong
      · cases same
        rcases broadcast_cases node env msg with ⟨-, failed⟩ | ⟨-, result⟩
        · rw [failed] at stored
          cases stored
        · obtain ⟨peer, status, attempt⟩ := forward_first (node.router.mark env.now msg.uuid)
            env.sendRc (wireBytes msg) sends fanout peers
          rw [result]
          exact ⟨peer, status, List.mem_append_left _ attempt⟩
  | receive sender env data =>
      rw [MeshCall.run] at stored ⊢
      obtain ⟨parsed, accepted, unseen, event⟩ := receive_event node env stored
      obtain ⟨alive, ⟨wrong, -⟩ | ⟨_, same⟩ | ⟨_, _, wrong⟩⟩ := receive_new_events node env event
      · cases wrong
      · cases same
        have other : parsed.receiverPubkey ≠ node.router.localPubkey := by
          intro mine
          rcases receive_new_cases node env parsed with
            ⟨dead, -⟩ | ⟨-, -, result⟩ | ⟨-, elsewhere, -⟩
          · exact alive dead
          · rw [result] at event
            simp only at event
            split_ifs at event <;> simp at event
          · exact elsewhere mine
        obtain ⟨peer, status, attempt⟩ := forward_first (node.router.mark env.now parsed.uuid)
          env.sendRc (wireBytes { parsed with ttl := parsed.ttl - 1 }) sends fanout peers
        simp only [receive_unseen node env accepted unseen,
          receive_new_forwards alive other (memory sender env data rfl)]
        exact ⟨peer, status, List.mem_append_right _ attempt⟩
      · cases wrong
  | rebroadcast env =>
      obtain ⟨_, _, _, wrong⟩ := rebroadcast_events node env _ stored
      cases wrong
  | evict now => cases stored
  | expire now => cases stored
  | addPeer now peer => cases stored
  | setOnMessage callback => cases stored

end Forwarding

section Runs

variable {Place : Type} {wiring : Wiring Place} {keys : Place → Pubkey} {origin : Place}
  {message : BcMessage} {start : UInt64} {state : UdpState Place}
  {configs : Place → Option BcRouterConfig} {place : Place} {call : MeshCall Place}

def Waits (waiting : List (Transmission Place)) (sender : Place) (uuid : Uuid) : Prop :=
  ∃ transmission ∈ waiting, transmission.sender = sender ∧
    ∃ copy, transmission.data = wireBytes copy ∧ copy.uuid = uuid

/-- What is in the sockets was sent, and the message of a holder waits in the
sockets of those in range who have not heard it. -/
structure Flowing (wiring : Wiring Place) (uuid : Uuid) (state : UdpState Place) : Prop where
  sent : ∀ receiver, ∀ transmission ∈ state.socket receiver, transmission ∈ state.run.mesh.sent
  underway : ∀ holder receiver, Holds state.run holder uuid → wiring.InRange holder receiver →
    Heard state.run receiver holder uuid ∨ Waits (state.socket receiver) holder uuid

theorem mem_datagrams_for {sender receiver : Place} {events : List Event}
    {transmission : Transmission Place}
    (member : transmission ∈ datagramsFor wiring sender receiver events) :
    transmission ∈ transmissions sender events := by
  obtain ⟨source, inEvents, here⟩ := List.mem_flatMap.mp member
  obtain ⟨port, -, same⟩ := List.mem_map.mp here
  rw [← same]
  exact inEvents

theorem sent_to_range {sender receiver : Place} {events : List Event} {peer : Pubkey}
    {msg : BcMessage} {rc : Rc} (near : wiring.InRange sender receiver)
    (event : Event.send peer (wireBytes msg) rc ∈ events) :
    ⟨sender, wireBytes msg⟩ ∈ datagramsFor wiring sender receiver events := by
  apply List.mem_flatMap.mpr
  refine ⟨⟨sender, wireBytes msg⟩, List.mem_filterMap.mpr ⟨_, event, rfl⟩, ?_⟩
  have nonempty : (wireBytes msg).length ≠ 0 := by
    rw [wire_bytes_length, bcMessageHeaderSize]
    omega
  have all : udpSend ⟨wiring.peerPorts sender⟩ (fun _ => true) (wireBytes msg) =
      (.ok, wiring.peerPorts sender) := udp_send_all nonempty (List.ne_nil_of_mem near)
  apply List.mem_map.mpr
  refine ⟨wiring.myPort receiver, ?_, rfl⟩
  rw [all]
  exact List.mem_filter.mpr ⟨near, by simp⟩

theorem Flowing.allowed {uuid : Uuid} (flowing : Flowing wiring uuid state)
    (reads : Reads (state.socket place) call) : call.Allowed state.run.mesh := by
  cases call with
  | receive sender env data =>
      obtain ⟨transmission, rest, waiting, sentBy, cut⟩ := reads
      refine ⟨transmission, flowing.sent place transmission ?_, sentBy, .inr cut⟩
      rw [waiting]
      exact List.mem_cons_self
  | broadcast env msg => trivial
  | evict now => trivial
  | rebroadcast env => trivial
  | expire now => trivial
  | addPeer now peer => trivial
  | setOnMessage callback => trivial

theorem mem_unread {waiting : List (Transmission Place)} {transmission : Transmission Place}
    (member : transmission ∈ unread call waiting) : transmission ∈ waiting := by
  cases call with
  | receive sender env data => exact List.mem_of_mem_tail member
  | broadcast env msg => exact member
  | evict now => exact member
  | rebroadcast env => exact member
  | expire now => exact member
  | addPeer now peer => exact member
  | setOnMessage callback => exact member

theorem unread_or_read {waiting : List (Transmission Place)} {transmission : Transmission Place}
    (reads : Reads waiting call) (member : transmission ∈ waiting) :
    transmission ∈ unread call waiting ∨
      ∃ env, call = .receive transmission.sender env (transmission.data.take 4096) := by
  cases call with
  | receive sender env data =>
      obtain ⟨oldest, rest, isWaiting, sentBy, cut⟩ := reads
      rw [isWaiting] at member ⊢
      rcases List.mem_cons.mp member with here | later
      · rw [here, sentBy, cut]
        exact .inr ⟨env, rfl⟩
      · exact .inl later
  | broadcast env msg => exact .inl member
  | evict now => exact .inl member
  | rebroadcast env => exact .inl member
  | expire now => exact .inl member
  | addPeer now peer => exact .inl member
  | setOnMessage callback => exact .inl member

variable [DecidableEq Place]

theorem sent_after_call {uuid : Uuid} (flowing : Flowing wiring uuid state) :
    ∀ receiver, ∀ transmission ∈ (state.after wiring place call).socket receiver,
      transmission ∈ (state.after wiring place call).run.mesh.sent := by
  intro receiver transmission member
  rcases List.mem_append.mp member with waiting | new
  · apply List.mem_append_left
    apply flowing.sent receiver
    split_ifs at waiting with here
    · rw [here]
      exact mem_unread waiting
    · exact waiting
  · exact List.mem_append_right _ (mem_datagrams_for new)

theorem heard_when_read {transmission : Transmission Place} {copy : BcMessage} {env : CallEnv}
    (tracks : ∃ flood, Tracks keys origin message start state.run flood)
    (short : bcMessageHeaderSize + message.payload.length ≤ 4096)
    (memory : env.alloc 0 = true ∧ env.alloc 1 = true)
    (sent : transmission ∈ state.run.mesh.sent) (bytes : transmission.data = wireBytes copy)
    (same : copy.uuid = message.uuid) :
    Heard (state.run.after place
      (.receive transmission.sender env (transmission.data.take 4096))) place
      transmission.sender message.uuid := by
  obtain ⟨flood, tracks⟩ := tracks
  obtain ⟨known, knownBytes, carries⟩ := tracks.sent transmission sent
  have knownUuid : known.uuid = message.uuid :=
    (wire_bytes_uuid (knownBytes.symm.trans bytes)).trans same
  have payload := (carries knownUuid).1.payload
  have whole : transmission.data.take 4096 = wireBytes known ++ [] := by
    rw [List.append_nil, knownBytes]
    apply List.take_of_length_le
    rw [wire_bytes_length, payload]
    exact short
  refine ⟨⟨place, _, _⟩, List.mem_append_right _ (List.mem_singleton_self _), rfl, env, _, known,
    rfl, ?_, knownUuid⟩
  rw [whole]
  exact deserialize_wire env.alloc known [] env.beyond (by rw [payload]; omega) memory.1 memory.2

theorem underway_after_call (flowing : Flowing wiring message.uuid state)
    (tracks : ∃ flood, Tracks keys origin message start state.run flood)
    (short : bcMessageHeaderSize + message.payload.length ≤ 4096)
    (provisioned : Provisioned wiring state (place, call))
    (reads : Reads (state.socket place) call) :
    ∀ holder receiver, Holds (state.after wiring place call).run holder message.uuid →
      wiring.InRange holder receiver →
      Heard (state.after wiring place call).run receiver holder message.uuid ∨
        Waits ((state.after wiring place call).socket receiver) holder message.uuid := by
  rintro holder receiver ⟨record, member, atHolder, msg, rc, stored, same⟩ near
  rcases List.mem_append.mp member with before | new
  · -- The message was stored before this call.
    rcases flowing.underway holder receiver ⟨record, before, atHolder, msg, rc, stored, same⟩ near
      with ⟨heard, inLog, rest⟩ | ⟨transmission, waiting, sentBy, copy, bytes, uuid⟩
    · exact .inl ⟨heard, List.mem_append_left _ inLog, rest⟩
    · by_cases here : receiver = place
      · subst here
        rcases unread_or_read reads waiting with unread | ⟨env, isCall⟩
        · refine .inr ⟨transmission, List.mem_append_left _ ?_, sentBy, copy, bytes, uuid⟩
          rw [if_pos rfl]
          exact unread
        · have memory := provisioned.memory _ env _ isCall
          subst isCall
          rw [← sentBy]
          exact .inl (heard_when_read tracks short ⟨memory.1, memory.2.1⟩
            (flowing.sent receiver transmission waiting) bytes uuid)
      · refine .inr ⟨transmission, List.mem_append_left _ ?_, sentBy, copy, bytes, uuid⟩
        rw [if_neg here]
        exact waiting
  · -- This call stores the message, so it sends it, too.
    rw [List.mem_singleton.mp new] at atHolder stored
    subst atHolder
    simp only at stored
    have booted := provisioned.booted (store_acts stored)
    obtain ⟨peer, status, event⟩ := stored_is_sent booted.sends booted.fanout
      (booted.peers (List.ne_nil_of_mem near))
      (fun sender env data isCall => (provisioned.memory sender env data isCall).2.2) stored
    refine .inr ⟨_, List.mem_append_right _ (sent_to_range near event), rfl, msg, rfl, same⟩

def Runs (wiring : Wiring Place) (keys : Place → Pubkey) (origin : Place) (message : BcMessage)
    (start : UInt64) (state : UdpState Place) (label : Place × MeshCall Place) : Prop :=
  Admissible keys origin message start state.run label ∧ Provisioned wiring state label

omit [DecidableEq Place] in
theorem payload_fits (short : bcMessageHeaderSize + message.payload.length ≤ 4096) :
    message.payload.length < 2 ^ 31 := by
  omega

/-- The processes are a network of routers, and the sockets flow. -/
theorem udp_refines_mesh (short : bcMessageHeaderSize + message.payload.length ≤ 4096)
    (reached : Reachable (guarded (udpSystem wiring configs keys)
      (Runs wiring keys origin message start)) state) :
    Reachable (guarded (loggedSystem configs keys) (Admissible keys origin message start))
        state.run ∧
      Flowing wiring message.uuid state := by
  apply Reachable.invariant (fun current => Reachable (guarded (loggedSystem configs keys)
    (Admissible keys origin message start)) current.run ∧
      Flowing wiring message.uuid current) _ _ reached
  · rintro initial ⟨created, empty⟩
    refine ⟨.start created, ?_, ?_⟩
    · intro receiver transmission member
      rw [empty receiver] at member
      cases member
    · rintro holder receiver ⟨record, member, -⟩ -
      rw [created.2.2] at member
      cases member
  · rintro before ⟨place, call⟩ after ⟨reachedRun, flowing⟩ ⟨⟨reads, -, result⟩, admissible, provisioned⟩
    obtain ⟨flood, -, tracks⟩ := refines_flood (payload_fits short) reachedRun
    rw [result]
    exact ⟨reachable_logged place call reachedRun (flowing.allowed reads) admissible,
      sent_after_call flowing,
      underway_after_call flowing ⟨flood, tracks⟩ short provisioned reads⟩

theorem udp_refines_flood (short : bcMessageHeaderSize + message.payload.length ≤ 4096)
    (reached : Reachable (guarded (udpSystem wiring configs keys)
      (Runs wiring keys origin message start)) state) :
    ∃ flood, Budgeted origin message.ttl.toNat (Addressee keys message) flood ∧
      Tracks keys origin message start state.run flood ∧ Flowing wiring message.uuid state := by
  obtain ⟨reachedRun, flowing⟩ := udp_refines_mesh short reached
  obtain ⟨flood, inv, tracks⟩ := refines_flood (payload_fits short) reachedRun
  exact ⟨flood, inv, tracks, flowing⟩

omit [DecidableEq Place] in
/-- Once no socket holds a datagram of the message, everyone in range of a
holder has heard it. -/
theorem quiet_of_drained (flowing : Flowing wiring message.uuid state)
    (drained : ∀ receiver sender, ¬ Waits (state.socket receiver) sender message.uuid) :
    Quiet wiring.InRange state.run message.uuid := by
  intro speaker listener holds near
  rcases flowing.underway speaker listener holds near with heard | waits
  · exact heard
  · exact absurd waits (drained listener speaker)

end Runs

section Witness

/-- Two processes on the ports 5001 and 5002; only the first knows the other. -/
def pairWiring : Wiring Bool where
  myPort place := if place then 5002 else 5001
  peerPorts place := if place then [] else [5002]

def pairStart : UdpState Bool := ⟨pairRun, fun _ => []⟩

def pairListens : UdpState Bool := pairStart.after pairWiring true (.setOnMessage true)

def pairKnows : UdpState Bool :=
  pairListens.after pairWiring false (.addPeer 0 (syntheticPeer 5002))

def pairSends (message : BcMessage) : UdpState Bool :=
  pairKnows.after pairWiring false (.broadcast (quietEnv 0) message)

def pairReads (message : BcMessage) : UdpState Bool :=
  (pairSends message).after pairWiring true (.receive false (quietEnv 0) (wireBytes message))

structure PairDelivers (message : BcMessage) : Prop where
  sent : ((MeshCall.broadcast (quietEnv 0) message : MeshCall Bool).run
    (pairKnows.run.mesh.node false)).2 =
      [.send (syntheticPubkey 5002) (wireBytes message) .ok, .store message .ok]
  accepted : (udpSend ⟨[5002]⟩ (fun _ => true) (wireBytes message)).1 = .ok
  waiting : (pairSends message).socket true = [⟨false, wireBytes message⟩]
  whole : wireBytes message = (wireBytes message).take 4096
  delivered : ((MeshCall.receive false (quietEnv 0) (wireBytes message)).run
    ((pairSends message).run.mesh.node true)).2 = [.deliver { message with ttl := 9 }]
  drained : ∀ receiver, (pairReads message).socket receiver = []

theorem probe_pair_delivers : PairDelivers (probeMessage 0) where
  sent := by decide
  accepted := by decide
  waiting := by decide
  whole := by decide
  delivered := by decide
  drained := by decide

theorem reachable_udp {message : BcMessage} {state : UdpState Bool} (place : Bool)
    (call : MeshCall Bool)
    (reached : Reachable (guarded (udpSystem pairWiring (fun _ => none) pairKeys)
      (Runs pairWiring pairKeys false message 0)) state)
    (reads : Reads (state.socket place) call)
    (overUdp : SendsOverUdp ⟨pairWiring.peerPorts place⟩ (call.run (state.run.mesh.node place)).2)
    (runs : Runs pairWiring pairKeys false message 0 state (place, call)) :
    Reachable (guarded (udpSystem pairWiring (fun _ => none) pairKeys)
      (Runs pairWiring pairKeys false message 0)) (state.after pairWiring place call) :=
  .next (place, call) reached ⟨⟨reads, overUdp, rfl⟩, runs⟩

theorem pair_reads_reachable {message : BcMessage} (delivers : PairDelivers message) :
    Reachable (guarded (udpSystem pairWiring (fun _ => none) pairKeys)
      (Runs pairWiring pairKeys false message 0)) (pairReads message) := by
  have start : Reachable (guarded (udpSystem pairWiring (fun _ => none) pairKeys)
      (Runs pairWiring pairKeys false message 0)) pairStart :=
    .start ⟨⟨pair_mesh_initial, fun _ => rfl, rfl⟩, fun _ => rfl⟩
  have listens := reachable_udp true (.setOnMessage true) start trivial
    (fun _ _ _ event => absurd event List.not_mem_nil)
    ⟨⟨by decide, in_window_at_start (by simp [MeshCall.readings]), ⟨0, by decide, rfl⟩,
      (by intro _ _ isCall; cases isCall),
      (by intro _ _ _ isCall; cases isCall)⟩, by simp,
      (by intro _ _ _ isCall; cases isCall)⟩
  have knows := reachable_udp false (.addPeer 0 (syntheticPeer 5002)) listens trivial
    (fun _ _ _ event => absurd event List.not_mem_nil)
    ⟨⟨by decide, in_window_at_start (by simp [MeshCall.readings]), ⟨0, by decide, rfl⟩,
      (by intro _ _ isCall; cases isCall),
      (by intro _ _ _ isCall; cases isCall)⟩, by simp,
      (by intro _ _ _ isCall; cases isCall)⟩
  have overUdp : SendsOverUdp ⟨pairWiring.peerPorts false⟩
      ((MeshCall.broadcast (quietEnv 0) message : MeshCall Bool).run
        (pairKnows.run.mesh.node false)).2 := by
    rw [delivers.sent]
    intro peer data rc event
    rcases List.mem_cons.mp event with same | other
    · cases same
      exact delivers.accepted.symm
    · cases List.mem_singleton.mp other
  have inOrder : ([0, 0, 0] : List UInt64).IsChain (· ≤ ·) := by decide
  have cap : 0 < 10000 := by decide
  have fanout : 0 < (3 : UInt8).toNat := by decide
  have sends := reachable_udp false (.broadcast (quietEnv 0) message) knows trivial overUdp
    ⟨⟨inOrder, in_window_at_start (by simp [MeshCall.readings, quietEnv]), ⟨0, cap, rfl⟩, by
      intro env msg isCall _
      cases isCall
      exact ⟨rfl, rfl, rfl, fun entry member => absurd member List.not_mem_nil⟩,
      (by intro _ _ _ isCall; cases isCall)⟩,
      fun _ => ⟨rfl, fanout, fun _ => List.cons_ne_nil (syntheticPeer 5002) []⟩,
      (by intro _ _ _ isCall; cases isCall)⟩
  apply reachable_udp true (.receive false (quietEnv 0) (wireBytes message)) sends
  · exact ⟨_, [], delivers.waiting, rfl, delivers.whole⟩
  · intro peer data rc event
    have only := delivers.delivered ▸ event
    cases List.mem_singleton.mp only
  · exact ⟨⟨inOrder, in_window_at_start (by simp [MeshCall.readings, quietEnv]), ⟨0, cap, rfl⟩,
      (by intro _ _ isCall; cases isCall), fun _ _ _ _ _ => rfl⟩,
      fun _ => ⟨rfl, fanout, fun ports => absurd rfl ports⟩,
      fun _ _ _ isCall => by cases isCall; exact ⟨rfl, rfl, rfl⟩⟩

theorem pair_drained {message : BcMessage} (delivers : PairDelivers message) :
    ∀ receiver sender, ¬ Waits ((pairReads message).socket receiver) sender message.uuid := by
  rintro receiver sender ⟨transmission, member, -⟩
  rw [delivers.drained receiver] at member
  cases member

end Witness

end BitChat.UdpMesh
