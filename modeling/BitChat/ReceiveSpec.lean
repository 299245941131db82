import BitChat.MeshRouter

/-!
# What a receive does with a whole datagram

The four outcomes of `bc_router_receive` for a datagram that holds the payload
it declares, when the allocations of the call succeed. Decoding and encoding
are inverse on such a datagram, so a relayed message is the datagram itself
with one byte changed, and whatever follows the declared payload is cut off.
-/

namespace BitChat.ReceiveSpec

open BitChat.WireMessage BitChat.DedupTable BitChat.PendingStorage BitChat.MeshRouter

set_option autoImplicit false

/-- The message of a datagram: the record whose encoding are the header and
the declared payload. -/
structure Carries (data : List UInt8) (msg : BcMessage) : Prop where
  bytes : wireBytes msg = data.take (bcMessageHeaderSize + declaredLength data)
  payload : msg.payload.length = declaredLength data
  ttl : data[16]? = some msg.ttl

def hop (msg : BcMessage) : BcMessage := { msg with ttl := msg.ttl - 1 }

/-- The datagram one hop further: the TTL byte is one less, the rest of the
header and the declared payload are as they were. -/
def hopBytes (data : List UInt8) (msg : BcMessage) : List UInt8 :=
  (data.take (bcMessageHeaderSize + declaredLength data)).set 16 (msg.ttl - 1)

section Receive

variable {Store : Type}

structure OnlyMarked (before after : Node Store) (uuid : Uuid) : Prop where
  router : ∃ table, after.router = { before.router with dedupTable := table } ∧
    dedupContains table before.router.dedupCap uuid = true
  store : after.store = before.store

def storeCalls (node : Node Store) (env : CallEnv) (msg : BcMessage) : List Event :=
  match node.router.storage.bind BcStorage.storeMessage with
  | none => []
  | some storeMessage => [.store msg (storeMessage env.storeNow msg node.store).1]

structure Received (node : Node Store) (env : CallEnv) (data : List UInt8) (msg : BcMessage)
    (outcome : Outcome Store) : Prop where
  duplicate : dedupContains node.router.dedupTable node.router.dedupCap msg.uuid = true →
    outcome = ⟨.duplicate, node, []⟩
  expired : dedupContains node.router.dedupTable node.router.dedupCap msg.uuid = false →
    msg.ttl = 0 →
    outcome.rc = .ttlExpired ∧ OnlyMarked node outcome.node msg.uuid ∧ outcome.events = []
  delivered : dedupContains node.router.dedupTable node.router.dedupCap msg.uuid = false →
    msg.ttl ≠ 0 → msg.receiverPubkey = node.router.localPubkey →
    outcome.rc = .ok ∧ OnlyMarked node outcome.node msg.uuid ∧
      outcome.events = if node.router.onMessage then [.deliver (hop msg)] else []
  relayed : dedupContains node.router.dedupTable node.router.dedupCap msg.uuid = false →
    msg.ttl ≠ 0 → msg.receiverPubkey ≠ node.router.localPubkey →
    outcome.rc = .ok ∧ OnlyMarked node { outcome.node with store := node.store } msg.uuid ∧
      ∃ sends, outcome.events = storeCalls node env (hop msg) ++ sends ∧
        sends = (forwardToPeers outcome.node.router env.sendRc (hopBytes data msg)).2 ∧
        ∀ event ∈ sends, ∃ peer rc, event = .send peer (hopBytes data msg) rc
  fixture : SameFixture node.router outcome.node.router
  lastSfTick : outcome.node.router.lastSfTick = node.router.lastSfTick

theorem carries_message_at {data : List UInt8} (beyond : Nat → UInt8)
    (whole : bcMessageHeaderSize + declaredLength data ≤ data.length) :
    Carries data (messageAt ⟨data, beyond⟩) := by
  have header : bcMessageHeaderSize ≤ data.length := Nat.le_of_add_right_le whole
  have ttlInside : 16 < data.length := Nat.lt_of_lt_of_le (by decide) header
  refine ⟨wire_bytes_of_datagram data beyond whole, ?_, ?_⟩
  · rw [← declared_length_field data beyond header]
    exact Memory.read_length _ _ _
  · simp [messageAt, Memory.byteAt, ttlInside]

theorem wire_bytes_hop {data : List UInt8} {msg : BcMessage} (carries : Carries data msg) :
    wireBytes (hop msg) = hopBytes data msg := by
  rw [hop, wire_bytes_ttl, carries.bytes]
  rfl

theorem only_marked (node : Node Store) (now : UInt64) (uuid : Uuid)
    (cap : 1 ≤ node.router.dedupCap) :
    OnlyMarked node { node with router := node.router.mark now uuid } uuid :=
  ⟨⟨_, rfl, contains_after_insert _ _ _ _ _ cap⟩, rfl⟩

theorem store_if_present_calls (node : Node Store) (env : CallEnv) (uuid : Uuid)
    (msg : BcMessage) :
    (storeIfPresent { node with router := node.router.mark env.now uuid } env.storeNow msg).2 =
      storeCalls node env msg := by
  simp only [storeIfPresent, storeCalls, mark_storage]
  cases node.router.storage.bind BcStorage.storeMessage with
  | none => rfl
  | some storeMessage => rfl

theorem receive_new_relays {node : Node Store} {env : CallEnv} {msg : BcMessage}
    (buffer : env.alloc 2 = true) (alive : msg.ttl ≠ 0)
    (other : msg.receiverPubkey ≠ node.router.localPubkey) :
    receiveNew node env msg =
      ⟨.ok,
        (storeIfPresent { node with router := node.router.mark env.now msg.uuid } env.storeNow
          (hop msg)).1,
        storeCalls node env (hop msg) ++
          (forwardToPeers (node.router.mark env.now msg.uuid) env.sendRc
            (wireBytes (hop msg))).2⟩ := by
  have written := serialize_fits (hop msg)
  rw [← store_if_present_calls node env msg.uuid]
  simp only [hop] at written ⊢
  simp [receiveNew, alive, other, buffer, written]

theorem deserialize_whole {env : CallEnv} {data : List UInt8}
    (allocated : ∀ k, env.alloc k = true)
    (whole : bcMessageHeaderSize + declaredLength data ≤ data.length) :
    bcMessageDeserialize env.alloc ⟨data, env.beyond⟩ = some (messageAt ⟨data, env.beyond⟩) := by
  have header : bcMessageHeaderSize ≤ data.length := Nat.le_of_add_right_le whole
  rw [deserialize_eq_some_iff, declared_length_field data env.beyond header]
  -- A sum that wraps is only smaller.
  exact ⟨header, (Nat.mod_le _ _).trans whole, allocated 0, fun _ => allocated 1, rfl⟩

/-- The full case distinction of a receive on a whole datagram. -/
theorem receive_specification (node : Node Store) (env : CallEnv) (data : List UInt8)
    (cap : 1 ≤ node.router.dedupCap) (allocated : ∀ k, env.alloc k = true)
    (whole : 93 + declaredLength data ≤ data.length) :
    ∃ msg, Carries data msg ∧ Received node env data msg (bcRouterReceive node env data) := by
  have carries := carries_message_at env.beyond whole
  refine ⟨messageAt ⟨data, env.beyond⟩, carries, ?_⟩
  have parsed : bcRouterReceive node env data = _ :=
    receive_of_parsed node env (deserialize_whole allocated whole)
  generalize messageAt ⟨data, env.beyond⟩ = msg at carries parsed
  refine ⟨?_, ?_, ?_, ?_, receive_fixture node env data, receive_last_sf_tick node env data⟩
  · intro seen
    rw [parsed, seen]
    rfl
  · intro unseen dead
    rw [parsed, unseen]
    have outcome : receiveParsed node env msg false =
        ⟨.ttlExpired, { node with router := node.router.mark env.now msg.uuid }, []⟩ :=
      if_pos dead
    rw [outcome]
    exact ⟨rfl, only_marked node env.now msg.uuid cap, rfl⟩
  · intro unseen alive mine
    rw [parsed, unseen]
    have outcome : receiveParsed node env msg false =
        ⟨.ok, { node with router := node.router.mark env.now msg.uuid },
          if node.router.onMessage then [.deliver (hop msg)] else []⟩ := by
      simp [receiveParsed, receiveNew, alive, mine, hop]
    rw [outcome]
    exact ⟨rfl, only_marked node env.now msg.uuid cap, rfl⟩
  · intro unseen alive other
    rw [parsed, unseen]
    have outcome : receiveParsed node env msg false = _ :=
      receive_new_relays (allocated 2) alive other
    rw [outcome, wire_bytes_hop carries]
    simp only [store_if_present_router]
    exact ⟨trivial, only_marked node env.now msg.uuid cap, _, rfl, rfl,
      forward_to_peers_events _ _ _⟩

end Receive

def relayNode : Node PendingMessages where
  router :=
    { transport := some ⟨true, true, true⟩
      storage := some sqliteStorage
      config := bcDefaultConfig
      localPubkey := List.Vector.replicate 32 9
      dedupTable := emptyTable
      dedupCap := 10000
      peers := [⟨List.Vector.replicate 32 4, 0, .ble, -40⟩]
      onMessage := true
      lastSfTick := 0 }
  store := KeyedTable.empty

theorem trailing_datagram_received :
    ∃ msg, Carries (wireBytes shortMessage ++ [0, 0]) msg ∧
      Received relayNode (quietEnv 0) (wireBytes shortMessage ++ [0, 0]) msg
        (bcRouterReceive relayNode (quietEnv 0) (wireBytes shortMessage ++ [0, 0])) :=
  receive_specification _ _ _ (by decide) (fun _ => rfl) (by decide)

end BitChat.ReceiveSpec
