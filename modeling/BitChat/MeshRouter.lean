import BitChat.DedupTable
import BitChat.PendingStorage

/-!
# The mesh router

Transcription of `usecase/mesh_router.c`. A `Node` is a router with the
contents of the store behind its storage vtable. A call returns its status,
the node after it and the ordered list of the effects it had on the outside:
callbacks, calls of `store_message` and attempts to send. What the call
learns from the outside is an argument: every clock reading separately, the
outcome of each allocation and each send, the memory behind a received
buffer.
-/

namespace BitChat.MeshRouter

open BitChat.WireMessage BitChat.DedupTable BitChat.PendingStorage

set_option autoImplicit false

inductive BcTransportType where
  | ble
  | wifiDirect
deriving DecidableEq

structure BcPeer where
  pubkey : Pubkey
  lastSeen : UInt64
  transport : BcTransportType
  rssi : Int8
deriving DecidableEq

def bcMaxPeers : Nat := 64

/-- Which entries of the transport vtable are not null. -/
structure BcTransport where
  send : Bool
  recv : Bool
  discoverPeers : Bool
deriving DecidableEq

structure BcRouterConfig where
  fanout : UInt8
  dedupCap : Nat
  dedupMaxAge : UInt64

def bcDefaultConfig : BcRouterConfig where
  fanout := 3
  dedupCap := 10000
  dedupMaxAge := 600

def bcSfRebroadcastSec : UInt64 := 3

structure BcRouter (Store : Type) where
  transport : Option BcTransport
  storage : Option (BcStorage Store)
  config : BcRouterConfig
  localPubkey : Pubkey
  dedupTable : Table
  dedupCap : Nat
  peers : List BcPeer
  onMessage : Bool
  lastSfTick : UInt64

structure Node (Store : Type) where
  router : BcRouter Store
  store : Store

inductive Event where
  | deliver (msg : BcMessage)
  | store (msg : BcMessage) (rc : Rc)
  | send (peer : Pubkey) (data : List UInt8) (rc : Rc)
deriving DecidableEq

structure Outcome (Store : Type) where
  rc : Rc
  node : Node Store
  events : List Event

/-- What one call of `bc_router_broadcast` or `bc_router_receive` learns from
the outside: the readings of `dedup_insert` and of the storage, whether each
allocation succeeds (a broadcast has one; a receive has the message, its
payload and the forwarding buffer), the memory behind the received buffer, the
status of the send to each entry of the peer table. -/
structure CallEnv where
  now : UInt64
  storeNow : UInt64
  alloc : Nat → Bool
  beyond : Nat → UInt8
  sendRc : Nat → Rc

section Router

variable {Store : Type}

/-- `alloc 0` and `alloc 1` are the two `calloc` calls. -/
def bcRouterCreate (alloc : Nat → Bool) (transport : Option BcTransport)
    (storage : Option (BcStorage Store)) (localPubkey : Pubkey) (config : Option BcRouterConfig) :
    Option (BcRouter Store) :=
  let config := config.getD bcDefaultConfig
  if alloc 0 = false then none
  else if alloc 1 = false then none
  else some
    { transport := transport
      storage := storage
      config := config
      localPubkey := localPubkey
      dedupTable := emptyTable
      dedupCap := config.dedupCap
      peers := []
      onMessage := false
      lastSfTick := 0 }

def bcRouterSetOnMessage (router : BcRouter Store) (callback : Bool) : BcRouter Store :=
  { router with onMessage := callback }

def BcRouter.mark (router : BcRouter Store) (now : UInt64) (uuid : Uuid) : BcRouter Store :=
  { router with
    dedupTable := dedupInsert router.dedupTable router.dedupCap router.config.dedupMaxAge now uuid }

/-- The loop of `forward_to_peers` from peer `i` on, with `sent` successes so
far: the attempts it makes and the final number of successes. -/
def forwardLoop (fanout : Nat) (sendRc : Nat → Rc) (data : List UInt8) :
    List BcPeer → Nat → Nat → List Event × Nat
  | [], _, sent => ([], sent)
  | peer :: rest, i, sent =>
      if sent < fanout then
        let rc := sendRc i
        let later := forwardLoop fanout sendRc data rest (i + 1)
          (if rc = .ok then sent + 1 else sent)
        (.send peer.pubkey data rc :: later.1, later.2)
      else ([], sent)

def forwardToPeers (router : BcRouter Store) (sendRc : Nat → Rc) (data : List UInt8) :
    Rc × List Event :=
  if (router.transport.map BcTransport.send).getD false = false then (.transport, [])
  else
    let sends := forwardLoop router.config.fanout.toNat sendRc data router.peers 0 0
    (if 0 < sends.2 then .ok else .transport, sends.1)

/-- `storage->store_message(storage, msg)` where the vtable has it. -/
def storeIfPresent (node : Node Store) (now : UInt64) (msg : BcMessage) :
    Node Store × List Event :=
  match node.router.storage.bind BcStorage.storeMessage with
  | none => (node, [])
  | some storeMessage =>
      let result := storeMessage now msg node.store
      ({ node with store := result.2 }, [.store msg result.1])

def bcRouterBroadcast (node : Node Store) (env : CallEnv) (msg : BcMessage) : Outcome Store :=
  let marked : Node Store := { node with router := node.router.mark env.now msg.uuid }
  if env.alloc 0 = false then { rc := .nomem, node := marked, events := [] }
  else
    let buf := bcMessageSerialize msg (bcMessageHeaderSize + msg.payload.length)
    if buf.rc ≠ .ok then { rc := buf.rc, node := marked, events := [] }
    else
      let sends := forwardToPeers marked.router env.sendRc buf.written
      let stored := storeIfPresent marked env.storeNow msg
      { rc := .ok, node := stored.1, events := sends.2 ++ stored.2 }

/-- `bc_router_receive` after the deduplication check missed. -/
def receiveNew (node : Node Store) (env : CallEnv) (msg : BcMessage) : Outcome Store :=
  let marked : Node Store := { node with router := node.router.mark env.now msg.uuid }
  if msg.ttl = 0 then { rc := .ttlExpired, node := marked, events := [] }
  else
    let hopped := { msg with ttl := msg.ttl - 1 }
    if hopped.receiverPubkey = marked.router.localPubkey then
      { rc := .ok
        node := marked
        events := if marked.router.onMessage then [.deliver hopped] else [] }
    else
      let stored := storeIfPresent marked env.storeNow hopped
      let buf := bcMessageSerialize hopped (bcMessageHeaderSize + hopped.payload.length)
      let sends :=
        if env.alloc 2 = true ∧ buf.rc = .ok then
          (forwardToPeers marked.router env.sendRc buf.written).2
        else []
      { rc := .ok, node := stored.1, events := stored.2 ++ sends }

/-- `bc_router_receive` after the message was parsed, with the answer of the
deduplication check. -/
def receiveParsed (node : Node Store) (env : CallEnv) (msg : BcMessage) (seen : Bool) :
    Outcome Store :=
  if seen then { rc := .duplicate, node := node, events := [] }
  else receiveNew node env msg

def bcRouterReceive (node : Node Store) (env : CallEnv) (data : List UInt8) : Outcome Store :=
  if data.length = 0 then { rc := .invalid, node := node, events := [] }
  else
    match bcMessageDeserialize env.alloc ⟨data, env.beyond⟩ with
    | none => { rc := .invalid, node := node, events := [] }
    | some msg =>
        receiveParsed node env msg
          (dedupContains node.router.dedupTable node.router.dedupCap msg.uuid)

/-- The peer-table loop: replace the first entry with this key, else append
while there is room. -/
def addPeerEntry (now : UInt64) (peer : BcPeer) : List BcPeer → Nat → List BcPeer
  | [], held => if held < bcMaxPeers then [peer] else []
  | entry :: rest, held =>
      if entry.pubkey = peer.pubkey then { peer with lastSeen := now } :: rest
      else entry :: addPeerEntry now peer rest held

def bcRouterAddPeer (router : BcRouter Store) (now : UInt64) (peer : BcPeer) : BcRouter Store :=
  { router with peers := addPeerEntry now peer router.peers router.peers.length }

/-- One return of `transport->recv`: the status and the datagram, of which at
most the size of the buffer is copied. -/
structure Arrival where
  rc : Rc
  datagram : List UInt8
  env : CallEnv

def Arrival.received (arrival : Arrival) : List UInt8 := arrival.datagram.take 4096

/-- What one `bc_router_tick` learns from the outside. `arrivals` are the
returns of `recv`; after the last one nothing is available. -/
structure TickEnv where
  evictNow : UInt64
  arrivals : List Arrival
  sfNow : UInt64
  pendingNow : UInt64
  pendingAlloc : Nat → Bool
  bufAlloc : Nat → Bool
  sendRc : Nat → Nat → Rc
  expireNow : UInt64

def tickEvict (node : Node Store) (now : UInt64) : Node Store :=
  { node with
    router :=
      { node.router with
        dedupTable := dedupEvict node.router.dedupTable node.router.dedupCap
          node.router.config.dedupMaxAge now } }

def receiveLoop : Node Store → List Arrival → Node Store × List Event
  | node, [] => (node, [])
  | node, arrival :: rest =>
      if arrival.rc = .ok ∧ 0 < arrival.received.length then
        let outcome := bcRouterReceive node arrival.env arrival.received
        let later := receiveLoop outcome.node rest
        (later.1, outcome.events ++ later.2)
      else (node, [])

def tickPoll (node : Node Store) (arrivals : List Arrival) : Node Store × List Event :=
  if (node.router.transport.map BcTransport.recv).getD false = true then
    receiveLoop node arrivals
  else (node, [])

def rebroadcastLoop (router : BcRouter Store) (bufAlloc : Nat → Bool) (sendRc : Nat → Nat → Rc) :
    List BcMessage → Nat → List Event
  | [], _ => []
  | msg :: rest, j =>
      let buf := bcMessageSerialize msg (bcMessageHeaderSize + msg.payload.length)
      let sends :=
        if bufAlloc j = true ∧ buf.rc = .ok then (forwardToPeers router (sendRc j) buf.written).2
        else []
      sends ++ rebroadcastLoop router bufAlloc sendRc rest (j + 1)

def tickRebroadcast (node : Node Store) (env : TickEnv) : Node Store × List Event :=
  match node.router.storage.bind BcStorage.getPending with
  | none => (node, [])
  | some getPending =>
      if 0 < node.router.peers.length ∧ env.sfNow - node.router.lastSfTick ≥ bcSfRebroadcastSec then
        let ticked : Node Store := { node with router := { node.router with lastSfTick := env.sfNow } }
        let pending := getPending env.pendingNow env.pendingAlloc none ticked.store
        (ticked,
          if pending.1 = .ok then
            rebroadcastLoop ticked.router env.bufAlloc env.sendRc pending.2 0
          else [])
      else (node, [])

def tickExpire (node : Node Store) (now : UInt64) : Node Store :=
  match node.router.storage.bind BcStorage.evictExpired with
  | none => node
  | some evictExpired => { node with store := (evictExpired now (72 * 3600) node.store).2 }

def bcRouterTick (node : Node Store) (env : TickEnv) : Node Store × List Event :=
  let evicted := tickEvict node env.evictNow
  let polled := tickPoll evicted env.arrivals
  let rebroadcast := tickRebroadcast polled.1 env
  (tickExpire rebroadcast.1 env.expireNow, polled.2 ++ rebroadcast.2)

theorem hop_ttl {ttl : UInt8} (alive : ttl ≠ 0) : (ttl - 1).toNat + 1 = ttl.toNat := by
  have positive : 0 < ttl.toNat := UInt8.lt_iff_toNat_lt.mp (UInt8.pos_iff_ne_zero.mpr alive)
  have one : (1 : UInt8) ≤ ttl := UInt8.le_iff_toNat_le.mpr positive
  have step : (ttl - 1).toNat = ttl.toNat - 1 := UInt8.toNat_sub_of_le ttl 1 one
  omega

section Specifications

theorem created_eq {alloc : Nat → Bool} {transport : Option BcTransport}
    {storage : Option (BcStorage Store)} {localPubkey : Pubkey} {config : Option BcRouterConfig}
    {router : BcRouter Store}
    (created : bcRouterCreate alloc transport storage localPubkey config = some router) :
    router =
      { transport := transport
        storage := storage
        config := config.getD bcDefaultConfig
        localPubkey := localPubkey
        dedupTable := emptyTable
        dedupCap := (config.getD bcDefaultConfig).dedupCap
        peers := []
        onMessage := false
        lastSfTick := 0 } := by
  unfold bcRouterCreate at created
  split_ifs at created
  exact (Option.some.inj created).symm

variable (node : Node Store) (env : CallEnv)

@[simp] theorem mark_config (router : BcRouter Store) (now : UInt64) (uuid : Uuid) :
    (router.mark now uuid).config = router.config := rfl

@[simp] theorem mark_dedup_cap (router : BcRouter Store) (now : UInt64) (uuid : Uuid) :
    (router.mark now uuid).dedupCap = router.dedupCap := rfl

@[simp] theorem mark_local_pubkey (router : BcRouter Store) (now : UInt64) (uuid : Uuid) :
    (router.mark now uuid).localPubkey = router.localPubkey := rfl

@[simp] theorem mark_on_message (router : BcRouter Store) (now : UInt64) (uuid : Uuid) :
    (router.mark now uuid).onMessage = router.onMessage := rfl

@[simp] theorem mark_storage (router : BcRouter Store) (now : UInt64) (uuid : Uuid) :
    (router.mark now uuid).storage = router.storage := rfl

@[simp] theorem store_if_present_router (now : UInt64) (msg : BcMessage) :
    (storeIfPresent node now msg).1.router = node.router := by
  unfold storeIfPresent
  split <;> rfl

theorem forward_loop_events (fanout : Nat) (sendRc : Nat → Rc) (data : List UInt8)
    (peers : List BcPeer) (i sent : Nat) :
    ∀ event ∈ (forwardLoop fanout sendRc data peers i sent).1,
      ∃ peer rc, event = .send peer data rc := by
  induction peers generalizing i sent with
  | nil => simp [forwardLoop]
  | cons peer rest ih =>
      intro event member
      rw [forwardLoop] at member
      split_ifs at member with room
      · rcases List.mem_cons.mp member with here | later
        · exact ⟨_, _, here⟩
        · exact ih _ _ event later
      · cases member

theorem forward_to_peers_events (router : BcRouter Store) (sendRc : Nat → Rc)
    (data : List UInt8) :
    ∀ event ∈ (forwardToPeers router sendRc data).2, ∃ peer rc, event = .send peer data rc := by
  unfold forwardToPeers
  split_ifs with absent
  · simp
  · exact forward_loop_events _ _ _ _ _ _

theorem store_if_present_events (now : UInt64) (msg : BcMessage) :
    ∀ event ∈ (storeIfPresent node now msg).2, ∃ rc, event = .store msg rc := by
  unfold storeIfPresent
  split
  · simp
  · intro event member
    exact ⟨_, List.mem_singleton.mp member⟩

theorem receive_new_cases (msg : BcMessage) :
    (msg.ttl = 0 ∧
      receiveNew node env msg =
        ⟨.ttlExpired, { node with router := node.router.mark env.now msg.uuid }, []⟩) ∨
    (msg.ttl ≠ 0 ∧ msg.receiverPubkey = node.router.localPubkey ∧
      receiveNew node env msg =
        ⟨.ok, { node with router := node.router.mark env.now msg.uuid },
          if node.router.onMessage then [.deliver { msg with ttl := msg.ttl - 1 }] else []⟩) ∨
    (msg.ttl ≠ 0 ∧ msg.receiverPubkey ≠ node.router.localPubkey ∧
      ∃ sends, (sends = [] ∨ sends = (forwardToPeers (node.router.mark env.now msg.uuid) env.sendRc
          (wireBytes { msg with ttl := msg.ttl - 1 })).2) ∧
        receiveNew node env msg =
          ⟨.ok,
            (storeIfPresent { node with router := node.router.mark env.now msg.uuid } env.storeNow
              { msg with ttl := msg.ttl - 1 }).1,
            (storeIfPresent { node with router := node.router.mark env.now msg.uuid } env.storeNow
              { msg with ttl := msg.ttl - 1 }).2 ++ sends⟩) := by
  by_cases dead : msg.ttl = 0
  · exact .inl ⟨dead, by simp [receiveNew, dead]⟩
  · by_cases mine : msg.receiverPubkey = node.router.localPubkey
    · exact .inr (.inl ⟨dead, mine, by simp [receiveNew, dead, mine]⟩)
    · refine .inr (.inr ⟨dead, mine, ?_⟩)
      have written := serialize_fits { msg with ttl := msg.ttl - 1 }
      by_cases buffer : env.alloc 2 = true
      · exact ⟨_, .inr rfl, by simp [receiveNew, dead, mine, written, buffer]⟩
      · exact ⟨[], .inl rfl, by simp [receiveNew, dead, mine, buffer]⟩

theorem receive_of_parsed {data : List UInt8} {msg : BcMessage}
    (parsed : bcMessageDeserialize env.alloc ⟨data, env.beyond⟩ = some msg) :
    bcRouterReceive node env data =
      receiveParsed node env msg
        (dedupContains node.router.dedupTable node.router.dedupCap msg.uuid) := by
  have nonempty : data.length ≠ 0 := by
    have header := ((deserialize_eq_some_iff _ _ _).mp parsed).1
    simp only [bcMessageHeaderSize] at header
    omega
  rw [bcRouterReceive, if_neg nonempty, parsed]

theorem receive_seen {data : List UInt8} {msg : BcMessage}
    (parsed : bcMessageDeserialize env.alloc ⟨data, env.beyond⟩ = some msg)
    (seen : dedupContains node.router.dedupTable node.router.dedupCap msg.uuid = true) :
    bcRouterReceive node env data = ⟨.duplicate, node, []⟩ := by
  rw [receive_of_parsed node env parsed, seen]
  rfl

theorem receive_unseen {data : List UInt8} {msg : BcMessage}
    (parsed : bcMessageDeserialize env.alloc ⟨data, env.beyond⟩ = some msg)
    (unseen : dedupContains node.router.dedupTable node.router.dedupCap msg.uuid = false) :
    bcRouterReceive node env data = receiveNew node env msg := by
  rw [receive_of_parsed node env parsed, unseen]
  rfl

theorem receive_cases (data : List UInt8) :
    (bcRouterReceive node env data = ⟨.invalid, node, []⟩ ∧
      bcMessageDeserialize env.alloc ⟨data, env.beyond⟩ = none) ∨
    ∃ msg, bcMessageDeserialize env.alloc ⟨data, env.beyond⟩ = some msg ∧
      ((dedupContains node.router.dedupTable node.router.dedupCap msg.uuid = true ∧
          bcRouterReceive node env data = ⟨.duplicate, node, []⟩) ∨
        (dedupContains node.router.dedupTable node.router.dedupCap msg.uuid = false ∧
          bcRouterReceive node env data = receiveNew node env msg)) := by
  cases parsed : bcMessageDeserialize env.alloc ⟨data, env.beyond⟩ with
  | none =>
      refine .inl ⟨?_, rfl⟩
      simp [bcRouterReceive, parsed]
  | some msg =>
      refine .inr ⟨msg, rfl, ?_⟩
      cases seen : dedupContains node.router.dedupTable node.router.dedupCap msg.uuid with
      | true => exact .inl ⟨rfl, receive_seen node env parsed seen⟩
      | false => exact .inr ⟨rfl, receive_unseen node env parsed seen⟩

theorem receive_new_router (msg : BcMessage) :
    (receiveNew node env msg).node.router = node.router.mark env.now msg.uuid := by
  rcases receive_new_cases node env msg with ⟨-, same⟩ | ⟨-, -, same⟩ | ⟨-, -, sends, -, same⟩ <;>
    simp [same]

theorem receive_new_rc (msg : BcMessage) : (receiveNew node env msg).rc ≠ .duplicate := by
  rcases receive_new_cases node env msg with ⟨-, same⟩ | ⟨-, -, same⟩ | ⟨-, -, sends, -, same⟩ <;>
    simp [same]

theorem receive_new_events {msg : BcMessage} {event : Event}
    (member : event ∈ (receiveNew node env msg).events) :
    msg.ttl ≠ 0 ∧
      ((event = .deliver { msg with ttl := msg.ttl - 1 } ∧
          msg.receiverPubkey = node.router.localPubkey ∧ node.router.onMessage = true) ∨
        (∃ rc, event = .store { msg with ttl := msg.ttl - 1 } rc) ∨
        ∃ peer rc, event = .send peer (wireBytes { msg with ttl := msg.ttl - 1 }) rc) := by
  rcases receive_new_cases node env msg with
    ⟨-, same⟩ | ⟨alive, mine, same⟩ | ⟨alive, -, sends, origin, same⟩
  · rw [same] at member
    cases member
  · rw [same] at member
    simp only at member
    split_ifs at member with registered
    · exact ⟨alive, .inl ⟨List.mem_singleton.mp member, mine, registered⟩⟩
    · cases member
  · rw [same] at member
    refine ⟨alive, .inr ?_⟩
    rcases List.mem_append.mp member with stored | forwarded
    · exact .inl (store_if_present_events _ _ _ _ stored)
    · rcases origin with silent | forwards
      · rw [silent] at forwarded
        cases forwarded
      · rw [forwards] at forwarded
        exact .inr (forward_to_peers_events _ _ _ _ forwarded)

theorem receive_new_sends {msg : BcMessage} {peer : Pubkey} {data : List UInt8} {rc : Rc}
    (sent : Event.send peer data rc ∈ (receiveNew node env msg).events) :
    msg.ttl ≠ 0 ∧ data = wireBytes { msg with ttl := msg.ttl - 1 } := by
  obtain ⟨alive, ⟨wrong, -⟩ | ⟨_, wrong⟩ | ⟨_, _, bytes⟩⟩ := receive_new_events node env sent
  · cases wrong
  · cases wrong
  · cases bytes
    exact ⟨alive, rfl⟩

theorem receive_new_delivers {msg delivered : BcMessage}
    (event : Event.deliver delivered ∈ (receiveNew node env msg).events) :
    msg.ttl ≠ 0 ∧ delivered = { msg with ttl := msg.ttl - 1 } ∧
      msg.receiverPubkey = node.router.localPubkey ∧ node.router.onMessage = true := by
  obtain ⟨alive, ⟨same, mine, registered⟩ | ⟨_, wrong⟩ | ⟨_, _, wrong⟩⟩ :=
    receive_new_events node env event
  · cases same
    exact ⟨alive, rfl, mine, registered⟩
  · cases wrong
  · cases wrong

theorem receive_router (data : List UInt8) :
    (bcRouterReceive node env data).node.router = node.router ∨
    ∃ msg, bcMessageDeserialize env.alloc ⟨data, env.beyond⟩ = some msg ∧
      dedupContains node.router.dedupTable node.router.dedupCap msg.uuid = false ∧
      (bcRouterReceive node env data).node.router = node.router.mark env.now msg.uuid := by
  rcases receive_cases node env data with
    ⟨same, -⟩ | ⟨msg, parsed, ⟨-, same⟩ | ⟨unseen, same⟩⟩
  · exact .inl (by rw [same])
  · exact .inl (by rw [same])
  · exact .inr ⟨msg, parsed, unseen, by rw [same, receive_new_router]⟩

theorem receive_event {data : List UInt8} {event : Event}
    (member : event ∈ (bcRouterReceive node env data).events) :
    ∃ msg, bcMessageDeserialize env.alloc ⟨data, env.beyond⟩ = some msg ∧
      dedupContains node.router.dedupTable node.router.dedupCap msg.uuid = false ∧
      event ∈ (receiveNew node env msg).events := by
  rcases receive_cases node env data with
    ⟨same, -⟩ | ⟨msg, parsed, ⟨-, same⟩ | ⟨unseen, same⟩⟩
  · rw [same] at member
    cases member
  · rw [same] at member
    cases member
  · rw [same] at member
    exact ⟨msg, parsed, unseen, member⟩

/-- A receive sends nothing and leaves the store alone, or it relays a new
live message for another node, one hop further. -/
theorem receive_relay_cases (data : List UInt8) :
    ((∀ peer bytes rc, Event.send peer bytes rc ∉ (bcRouterReceive node env data).events) ∧
      (bcRouterReceive node env data).node.store = node.store) ∨
    ∃ msg, bcMessageDeserialize env.alloc ⟨data, env.beyond⟩ = some msg ∧
      dedupContains node.router.dedupTable node.router.dedupCap msg.uuid = false ∧
      msg.ttl ≠ 0 ∧ msg.receiverPubkey ≠ node.router.localPubkey ∧
      (∀ peer bytes rc, Event.send peer bytes rc ∈ (bcRouterReceive node env data).events →
        bytes = wireBytes { msg with ttl := msg.ttl - 1 }) ∧
      (bcRouterReceive node env data).node.store =
        (storeIfPresent { node with router := node.router.mark env.now msg.uuid } env.storeNow
          { msg with ttl := msg.ttl - 1 }).1.store := by
  rcases receive_cases node env data with
    ⟨same, -⟩ | ⟨msg, parsed, ⟨-, same⟩ | ⟨unseen, same⟩⟩
  · rw [same]
    exact .inl ⟨fun _ _ _ => List.not_mem_nil, rfl⟩
  · rw [same]
    exact .inl ⟨fun _ _ _ => List.not_mem_nil, rfl⟩
  · rw [same]
    rcases receive_new_cases node env msg with
      ⟨-, result⟩ | ⟨-, -, result⟩ | ⟨alive, other, sends, -, result⟩
    · rw [result]
      exact .inl ⟨fun _ _ _ => List.not_mem_nil, rfl⟩
    · rw [result]
      apply Or.inl
      refine ⟨?_, rfl⟩
      intro peer bytes rc sent
      simp only at sent
      split_ifs at sent <;> simp at sent
    · refine .inr ⟨msg, parsed, unseen, alive, other, ?_, by rw [result]⟩
      intro peer bytes rc sent
      exact (receive_new_sends node env sent).2

/-- A broadcast always marks its uuid; then it fails for want of a buffer,
or sends the wire bytes and stores the message. -/
theorem broadcast_cases (msg : BcMessage) :
    (env.alloc 0 = false ∧
      bcRouterBroadcast node env msg =
        ⟨.nomem, { node with router := node.router.mark env.now msg.uuid }, []⟩) ∨
    (env.alloc 0 = true ∧
      bcRouterBroadcast node env msg =
        ⟨.ok,
          (storeIfPresent { node with router := node.router.mark env.now msg.uuid } env.storeNow
            msg).1,
          (forwardToPeers (node.router.mark env.now msg.uuid) env.sendRc (wireBytes msg)).2 ++
            (storeIfPresent { node with router := node.router.mark env.now msg.uuid } env.storeNow
              msg).2⟩) := by
  cases buffer : env.alloc 0 with
  | false => exact .inl ⟨rfl, by simp [bcRouterBroadcast, buffer]⟩
  | true => exact .inr ⟨rfl, by simp [bcRouterBroadcast, buffer, serialize_fits]⟩

theorem broadcast_router (msg : BcMessage) :
    (bcRouterBroadcast node env msg).node.router = node.router.mark env.now msg.uuid := by
  rcases broadcast_cases node env msg with ⟨-, same⟩ | ⟨-, same⟩ <;> simp [same]

theorem broadcast_rc (msg : BcMessage) : (bcRouterBroadcast node env msg).rc ≠ .duplicate := by
  rcases broadcast_cases node env msg with ⟨-, same⟩ | ⟨-, same⟩ <;> simp [same]

theorem broadcast_events {msg : BcMessage} {event : Event}
    (member : event ∈ (bcRouterBroadcast node env msg).events) :
    (∃ peer rc, event = .send peer (wireBytes msg) rc) ∨ ∃ rc, event = .store msg rc := by
  rcases broadcast_cases node env msg with ⟨-, same⟩ | ⟨-, same⟩
  · rw [same] at member
    cases member
  · rw [same] at member
    rcases List.mem_append.mp member with forwarded | stored
    · exact .inl (forward_to_peers_events _ _ _ _ forwarded)
    · exact .inr (store_if_present_events _ _ _ _ stored)

theorem rebroadcast_loop_events (router : BcRouter Store) (bufAlloc : Nat → Bool)
    (sendRc : Nat → Nat → Rc) (msgs : List BcMessage) (j : Nat) :
    ∀ event ∈ rebroadcastLoop router bufAlloc sendRc msgs j,
      ∃ msg ∈ msgs, ∃ peer rc, event = .send peer (wireBytes msg) rc := by
  induction msgs generalizing j with
  | nil => simp [rebroadcastLoop]
  | cons msg rest ih =>
      intro event member
      rw [rebroadcastLoop, serialize_fits] at member
      rcases List.mem_append.mp member with here | later
      · simp only [and_true] at here
        split_ifs at here with buffer
        · exact ⟨msg, List.mem_cons_self, forward_to_peers_events _ _ _ event here⟩
        · cases here
      · obtain ⟨other, inRest, sent⟩ := ih (j + 1) event later
        exact ⟨other, List.mem_cons_of_mem _ inRest, sent⟩

theorem receive_delivers {data : List UInt8} {msg : BcMessage}
    (parsed : bcMessageDeserialize env.alloc ⟨data, env.beyond⟩ = some msg)
    (unseen : dedupContains node.router.dedupTable node.router.dedupCap msg.uuid = false)
    (alive : msg.ttl ≠ 0) (mine : msg.receiverPubkey = node.router.localPubkey)
    (registered : node.router.onMessage = true) :
    (bcRouterReceive node env data).events = [.deliver { msg with ttl := msg.ttl - 1 }] := by
  rw [receive_unseen node env parsed unseen]
  rcases receive_new_cases node env msg with ⟨dead, -⟩ | ⟨-, -, same⟩ | ⟨-, other, -⟩
  · exact absurd dead alive
  · rw [same, registered]
    rfl
  · exact absurd mine other

theorem receive_rejects {data : List UInt8}
    (rejected : bcMessageDeserialize env.alloc ⟨data, env.beyond⟩ = none) :
    (bcRouterReceive node env data).events = [] := by
  rcases receive_cases node env data with ⟨same, -⟩ | ⟨msg, parsed, -⟩
  · rw [same]
  · rw [rejected] at parsed
    cases parsed

theorem rebroadcast_events (env : TickEnv) :
    ∀ event ∈ (tickRebroadcast node env).2, ∃ peer data rc, event = .send peer data rc := by
  intro event member
  unfold tickRebroadcast at member
  split at member
  · cases member
  · simp only at member
    split_ifs at member
    · obtain ⟨msg, -, peer, rc, sent⟩ := rebroadcast_loop_events _ _ _ _ _ _ member
      exact ⟨peer, wireBytes msg, rc, sent⟩
    · cases member
    · cases member

theorem receive_loop_append (before rest : List Arrival)
    (accepted : ∀ arrival ∈ before, arrival.rc = .ok ∧ 0 < arrival.received.length) :
    ∀ node : Node Store, receiveLoop node (before ++ rest) =
      ((receiveLoop (receiveLoop node before).1 rest).1,
        (receiveLoop node before).2 ++ (receiveLoop (receiveLoop node before).1 rest).2) := by
  induction before with
  | nil => exact fun _ => rfl
  | cons arrival later ih =>
      intro node
      have here := accepted arrival List.mem_cons_self
      have others := ih fun other member => accepted other (List.mem_cons_of_mem _ member)
      rw [List.cons_append, receiveLoop, if_pos here, receiveLoop, if_pos here]
      simp only [others, List.append_assoc]

structure SameWiring (before after : BcRouter Store) : Prop where
  localPubkey : after.localPubkey = before.localPubkey
  onMessage : after.onMessage = before.onMessage
  transport : after.transport = before.transport

/-- Everything of a router except its deduplication table and the time of its
last rebroadcast. -/
structure SameFixture (before after : BcRouter Store) : Prop extends SameWiring before after where
  storage : after.storage = before.storage
  config : after.config = before.config
  dedupCap : after.dedupCap = before.dedupCap
  peers : after.peers = before.peers

theorem SameFixture.refl (router : BcRouter Store) : SameFixture router router :=
  ⟨⟨rfl, rfl, rfl⟩, rfl, rfl, rfl, rfl⟩

theorem SameFixture.trans {first second third : BcRouter Store} (start : SameFixture first second)
    (rest : SameFixture second third) : SameFixture first third where
  localPubkey := rest.localPubkey.trans start.localPubkey
  onMessage := rest.onMessage.trans start.onMessage
  transport := rest.transport.trans start.transport
  storage := rest.storage.trans start.storage
  config := rest.config.trans start.config
  dedupCap := rest.dedupCap.trans start.dedupCap
  peers := rest.peers.trans start.peers

theorem mark_fixture (router : BcRouter Store) (now : UInt64) (uuid : Uuid) :
    SameFixture router (router.mark now uuid) := ⟨⟨rfl, rfl, rfl⟩, rfl, rfl, rfl, rfl⟩

theorem broadcast_fixture (msg : BcMessage) :
    SameFixture node.router (bcRouterBroadcast node env msg).node.router := by
  rw [broadcast_router]
  exact mark_fixture _ _ _

theorem receive_fixture (data : List UInt8) :
    SameFixture node.router (bcRouterReceive node env data).node.router := by
  rcases receive_router node env data with same | ⟨msg, -, -, marked⟩
  · rw [same]
    exact SameFixture.refl _
  · rw [marked]
    exact mark_fixture _ _ _

theorem receive_last_sf_tick (data : List UInt8) :
    (bcRouterReceive node env data).node.router.lastSfTick = node.router.lastSfTick := by
  rcases receive_router node env data with same | ⟨msg, -, -, marked⟩
  · rw [same]
  · rw [marked]
    rfl

theorem receive_loop_fixture (arrivals : List Arrival) :
    ∀ node : Node Store, SameFixture node.router (receiveLoop node arrivals).1.router := by
  induction arrivals with
  | nil => exact fun node => SameFixture.refl node.router
  | cons arrival rest ih =>
      intro node
      rw [receiveLoop]
      split_ifs with received
      · exact (receive_fixture node arrival.env arrival.received).trans (ih _)
      · exact SameFixture.refl _

theorem evict_fixture (now : UInt64) : SameFixture node.router (tickEvict node now).router :=
  ⟨⟨rfl, rfl, rfl⟩, rfl, rfl, rfl, rfl⟩

theorem poll_fixture (arrivals : List Arrival) :
    SameFixture node.router (tickPoll node arrivals).1.router := by
  unfold tickPoll
  split_ifs
  · exact receive_loop_fixture arrivals _
  · exact SameFixture.refl _

theorem rebroadcast_fixture (env : TickEnv) :
    SameFixture node.router (tickRebroadcast node env).1.router := by
  unfold tickRebroadcast
  split
  · exact SameFixture.refl _
  · split_ifs
    · exact ⟨⟨rfl, rfl, rfl⟩, rfl, rfl, rfl, rfl⟩
    · exact SameFixture.refl _

theorem rebroadcast_table (env : TickEnv) :
    (tickRebroadcast node env).1.router.dedupTable = node.router.dedupTable := by
  unfold tickRebroadcast
  split
  · rfl
  · split_ifs <;> rfl

theorem expire_router (now : UInt64) : (tickExpire node now).router = node.router := by
  unfold tickExpire
  split <;> rfl

theorem expire_fixture (now : UInt64) : SameFixture node.router (tickExpire node now).router := by
  rw [expire_router]
  exact SameFixture.refl _

theorem tick_fixture (env : TickEnv) :
    SameFixture node.router (bcRouterTick node env).1.router := by
  have polled := (evict_fixture node env.evictNow).trans (poll_fixture _ env.arrivals)
  exact (polled.trans (rebroadcast_fixture _ env)).trans (expire_fixture _ env.expireNow)

end Specifications

end Router

/-- Calls at a single reading where every allocation and send succeeds. -/
def quietEnv (now : UInt64) : CallEnv where
  now := now
  storeNow := now
  alloc := allocates
  beyond := fun _ => 0
  sendRc := fun _ => .ok

def quietTick (now : UInt64) : TickEnv where
  evictNow := now
  arrivals := []
  sfNow := now
  pendingNow := now
  pendingAlloc := allocates
  bufAlloc := allocates
  sendRc := fun _ _ => .ok
  expireNow := now

/-- Messages whose uuids have the same parity have the same home slot in a
table of two. -/
def probeMessage (last : UInt8) : BcMessage where
  uuid := ⟨List.replicate 15 0 ++ [last], rfl⟩
  ttl := 10
  senderPubkey := List.Vector.replicate 32 1
  receiverPubkey := List.Vector.replicate 32 2
  timestamp := 0
  payload := []

end BitChat.MeshRouter
