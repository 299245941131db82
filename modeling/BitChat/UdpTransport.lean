import BitChat.PeerForwarding

/-!
# Forwarding over the UDP transport

Transcription of the sending side of `infra/transport_udp_sim.c` and of the
way `cli/main.c` puts its synthetic peers into the router. `forward_to_peers`
counts calls of `send`, one for each peer; `udp_send` ignores the peer and
sends one datagram to every configured port. The wire therefore sees the
product of the two loops.
-/

namespace BitChat.UdpTransport

open BitChat.WireMessage BitChat.PendingStorage BitChat.MeshRouter BitChat.PeerForwarding

set_option autoImplicit false

structure UdpCtx where
  peerPorts : List UInt16

/-- The loop of `udp_send` from port `i` on: the ports that get the datagram.
`sendto i` tells whether the `i`-th `sendto` takes all its bytes. -/
def udpSendLoop (sendto : Nat → Bool) : List UInt16 → Nat → List UInt16
  | [], _ => []
  | port :: rest, i =>
      if sendto i then port :: udpSendLoop sendto rest (i + 1)
      else udpSendLoop sendto rest (i + 1)

def udpSend (ctx : UdpCtx) (sendto : Nat → Bool) (data : List UInt8) : Rc × List UInt16 :=
  if data.length = 0 then (.invalid, [])
  else
    let reached := udpSendLoop sendto ctx.peerPorts 0
    (if reached ≠ [] then .ok else .transport, reached)

/-- The port in the first two bytes, the lower one first. -/
def syntheticPubkey (port : UInt16) : Pubkey :=
  ⟨(port &&& 0xFF).toUInt8 :: ((port >>> 8) &&& 0xFF).toUInt8 :: List.replicate 30 0, rfl⟩

def syntheticPeer (port : UInt16) : BcPeer where
  pubkey := syntheticPubkey port
  lastSeen := 0
  transport := .wifiDirect
  rssi := 0

def udpDiscoverPeers (ctx : UdpCtx) (maxPeers : Nat) : List BcPeer :=
  (ctx.peerPorts.take maxPeers).map syntheticPeer

def udpVtable : BcTransport := ⟨true, true, true⟩

section Forwarding

variable {Store : Type}

/-- `forward_to_peers` with `udp_send` behind it: `sendto i` are the results
of the `sendto` calls of the `i`-th send, and the second component lists the
port of every datagram that goes out. -/
def forwardOverUdp (router : BcRouter Store) (ctx : UdpCtx) (sendto : Nat → Nat → Bool)
    (data : List UInt8) : Rc × List UInt16 :=
  let forwarded := forwardToPeers router (fun i => (udpSend ctx (sendto i) data).1) data
  (forwarded.1,
    (List.range forwarded.2.length).flatMap fun i => (udpSend ctx (sendto i) data).2)

/-- One call emits at most as many datagrams as the fanout allows, and at most
one to each port. -/
def WithinFanout (router : BcRouter Store) (ctx : UdpCtx) (data : List UInt8) : Prop :=
  ∀ sendto, (forwardOverUdp router ctx sendto data).2.length ≤ router.config.fanout.toNat ∧
    ∀ port, (forwardOverUdp router ctx sendto data).2.count port ≤ 1

theorem synthetic_pubkey_injective {port other : UInt16}
    (same : syntheticPubkey port = syntheticPubkey other) : port = other := by
  have mask : ∀ n : Nat, n &&& 255 = n % 256 := fun n => Nat.and_two_pow_sub_one_eq_mod n 8
  have bytes := congrArg List.Vector.toList same
  simp only [syntheticPubkey, List.Vector.toList_mk, List.cons.injEq, and_true, ← UInt8.toNat_inj,
    UInt16.toNat_toUInt8, UInt16.toNat_and, UInt16.toNat_shiftRight, UInt16.reduceToNat,
    Nat.reduceMod, Nat.shiftRight_eq_div_pow, mask] at bytes
  have portBound := port.toNat_lt
  have otherBound := other.toNat_lt
  apply UInt16.toNat_inj.mp
  omega

theorem udp_send_loop_length (sendto : Nat → Bool) (ports : List UInt16) (i : Nat) :
    (udpSendLoop sendto ports i).length ≤ ports.length := by
  induction ports generalizing i with
  | nil => exact Nat.le_refl 0
  | cons port rest ih =>
      have later := ih (i + 1)
      rw [udpSendLoop]
      split_ifs <;> simp only [List.length_cons] <;> omega

theorem udp_send_loop_all (ports : List UInt16) (i : Nat) :
    udpSendLoop (fun _ => true) ports i = ports := by
  induction ports generalizing i with
  | nil => rfl
  | cons port rest ih => rw [udpSendLoop, if_pos rfl, ih]

theorem udp_send_length (ctx : UdpCtx) (sendto : Nat → Bool) (data : List UInt8) :
    (udpSend ctx sendto data).2.length ≤ ctx.peerPorts.length := by
  unfold udpSend
  split_ifs
  · exact Nat.zero_le _
  · exact udp_send_loop_length sendto ctx.peerPorts 0

theorem udp_send_all {ctx : UdpCtx} {data : List UInt8} (nonempty : data.length ≠ 0)
    (ports : ctx.peerPorts ≠ []) : udpSend ctx (fun _ => true) data = (.ok, ctx.peerPorts) := by
  rw [udpSend, if_neg nonempty]
  simp only [udp_send_loop_all, if_pos ports]

/-- The router after the startup of the command line client: a new router
over UDP, with the discovered peers added in order. -/
structure Started (created : BcRouter Store) (ctx : UdpCtx) (calls : List AddPeer) : Prop where
  made : ∃ alloc storage localPubkey config,
    bcRouterCreate alloc (some udpVtable) storage localPubkey config = some created
  distinct : ctx.peerPorts.Nodup
  discovered : calls.map AddPeer.peer = udpDiscoverPeers ctx bcMaxPeers

theorem add_peers_fixed (router : BcRouter Store) (calls : List AddPeer) :
    (addPeers router calls).transport = router.transport ∧
      (addPeers router calls).config = router.config := by
  induction calls generalizing router with
  | nil => exact ⟨rfl, rfl⟩
  | cons call rest ih => exact ih (bcRouterAddPeer router call.now call.peer)

theorem Started.sends {created : BcRouter Store} {ctx : UdpCtx} {calls : List AddPeer}
    (started : Started created ctx calls) : Sends (addPeers created calls) := by
  obtain ⟨alloc, storage, localPubkey, config, made⟩ := started.made
  rw [Sends, (add_peers_fixed created calls).1, created_eq made]
  rfl

theorem Started.count {created : BcRouter Store} {ctx : UdpCtx} {calls : List AddPeer}
    (started : Started created ctx calls) :
    (addPeers created calls).peers.length = min 64 ctx.peerPorts.length := by
  obtain ⟨alloc, storage, localPubkey, config, made⟩ := started.made
  have seen : (calls.map fun call => call.peer.pubkey) =
      (ctx.peerPorts.take 64).map syntheticPubkey := by
    have peers := congrArg (List.map BcPeer.pubkey) started.discovered
    rw [List.map_map, udpDiscoverPeers, List.map_map] at peers
    exact peers
  have distinct : ((ctx.peerPorts.take 64).map syntheticPubkey).Nodup :=
    (started.distinct.sublist (List.take_sublist _ _)).map fun _ _ => synthetic_pubkey_injective
  have keys := add_peers_keys created calls
  rw [created_peers made, List.map_nil, seen, BoundedRegistry.enroll_all_distinct distinct] at keys
  have lengths := congrArg List.length keys
  simp only [List.length_map, List.length_take, bcMaxPeers] at lengths
  omega

/-- One call makes `k` sends: none without room for it, and the last one only
at the end of the table or of the room. -/
theorem forward_over_udp_sends (router : BcRouter Store) (ctx : UdpCtx)
    (sendto : Nat → Nat → Bool) (data : List UInt8) :
    ∃ k ≤ router.peers.length,
      (∀ j < k, successes (fun i => (udpSend ctx (sendto i) data).1) 0 j <
        router.config.fanout.toNat) ∧
      (Sends router → k = router.peers.length ∨
        successes (fun i => (udpSend ctx (sendto i) data).1) 0 k = router.config.fanout.toNat) ∧
      (forwardOverUdp router ctx sendto data).2 =
        (List.range k).flatMap fun i => (udpSend ctx (sendto i) data).2 := by
  obtain ⟨k, inside, events, -, before, stops⟩ :=
    (forwards router (fun i => (udpSend ctx (sendto i) data).1) data).walk
  refine ⟨k, inside, before, stops, ?_⟩
  have count : (attempts (fun i => (udpSend ctx (sendto i) data).1) data (router.peers.take k)
      0).length = k := by
    rw [attempts_length, List.length_take_of_le inside]
  simp only [forwardOverUdp, events, count]

theorem forward_over_udp_all {router : BcRouter Store} {ctx : UdpCtx} {data : List UInt8}
    (sends : Sends router) (nonempty : data.length ≠ 0) (ports : ctx.peerPorts ≠ []) :
    (forwardOverUdp router ctx (fun _ _ => true) data).2 =
      (List.range (min router.config.fanout.toNat router.peers.length)).flatMap
        fun _ => ctx.peerPorts := by
  have sent : (forwardToPeers router (fun _ => .ok) data).2.length =
      min router.config.fanout.toNat router.peers.length := by
    rw [forward_to_peers_accepting data sends fun _ => rfl, List.length_map, List.length_take]
  simp only [forwardOverUdp, udp_send_all nonempty ports, sent]

theorem flat_map_const_length (k : Nat) (ports : List UInt16) :
    ((List.range k).flatMap fun _ => ports).length = k * ports.length := by
  simp [List.length_flatMap]

theorem flat_map_const_count (k : Nat) (ports : List UInt16) (port : UInt16) :
    ((List.range k).flatMap fun _ => ports).count port = k * ports.count port := by
  simp [List.count_flatMap, Function.comp_def]

/-- On the wire the fanout is only kept where it allows nothing or there is
at most one port to send to. -/
theorem within_fanout_iff {created : BcRouter Store} {ctx : UdpCtx} {calls : List AddPeer}
    (started : Started created ctx calls) (msg : BcMessage) :
    WithinFanout (addPeers created calls) ctx (wireBytes msg) ↔
      (addPeers created calls).config.fanout = 0 ∨ ctx.peerPorts.length ≤ 1 := by
  have nonempty : (wireBytes msg).length ≠ 0 := by
    rw [wire_bytes_length, bcMessageHeaderSize]
    omega
  have count := started.count
  constructor
  · intro within
    by_contra outside
    push Not at outside
    obtain ⟨fanout, several⟩ := outside
    have positive : 0 < (addPeers created calls).config.fanout.toNat := by
      rw [Nat.pos_iff_ne_zero]
      intro zero
      exact fanout (UInt8.toNat_inj.mp zero)
    obtain ⟨port, rest, ports⟩ : ∃ port rest, ctx.peerPorts = port :: rest :=
      List.exists_cons_of_length_pos (by omega)
    have some : ctx.peerPorts ≠ [] := by simp [ports]
    have all := forward_over_udp_all started.sends nonempty some
    obtain ⟨total, each⟩ := within fun _ _ => true
    have once := each port
    rw [all, flat_map_const_length] at total
    rw [all, flat_map_const_count] at once
    -- Two sends already give the port two datagrams, and one gives two ports one.
    have here : 0 < ctx.peerPorts.count port := by simp [ports]
    have single := (Nat.le_mul_of_pos_right _ here).trans once
    have one : min (addPeers created calls).config.fanout.toNat
        (addPeers created calls).peers.length = 1 := by omega
    rw [one] at total
    omega
  · intro condition sendto
    obtain ⟨k, inside, before, -, datagrams⟩ :=
      forward_over_udp_sends (addPeers created calls) ctx sendto (wireBytes msg)
    rw [datagrams]
    cases k with
    | zero => exact ⟨Nat.zero_le _, fun _ => Nat.zero_le _⟩
    | succ k =>
        have room := before 0 (Nat.succ_pos k)
        have few : ctx.peerPorts.length ≤ 1 := by
          rcases condition with nothing | few
          · rw [nothing] at room
            exact absurd room (Nat.not_lt_zero _)
          · exact few
        have single : k = 0 := by omega
        rw [single]
        have short := (udp_send_length ctx (sendto 0) (wireBytes msg)).trans few
        simp only [Nat.zero_add, List.range_one, List.flatMap_singleton]
        exact ⟨short.trans (Nat.zero_lt_of_lt room), fun _ => List.count_le_length.trans short⟩

end Forwarding

def startedRouter : BcRouter PendingMessages where
  transport := some udpVtable
  storage := none
  config := bcDefaultConfig
  localPubkey := List.Vector.replicate 32 0
  dedupTable := BitChat.DedupTable.emptyTable
  dedupCap := 10000
  peers := []
  onMessage := false
  lastSfTick := 0

def discoveredCalls (ctx : UdpCtx) : List AddPeer :=
  (udpDiscoverPeers ctx bcMaxPeers).map (AddPeer.mk 0)

theorem started_router (ctx : UdpCtx) (distinct : ctx.peerPorts.Nodup) :
    Started startedRouter ctx (discoveredCalls ctx) where
  made := ⟨allocates, none, List.Vector.replicate 32 0, none, rfl⟩
  distinct := distinct
  discovered := by
    rw [discoveredCalls, List.map_map]
    exact List.map_id _

theorem single_port_within_fanout :
    WithinFanout (addPeers startedRouter (discoveredCalls ⟨[9002]⟩)) ⟨[9002]⟩
        (wireBytes shortMessage) ↔
      (addPeers startedRouter (discoveredCalls ⟨[9002]⟩)).config.fanout = 0 ∨
        ([9002] : List UInt16).length ≤ 1 :=
  within_fanout_iff (started_router ⟨[9002]⟩ (by decide)) shortMessage

/-- With four neighbours three sends put twelve datagrams on the wire. -/
theorem four_ports_flooded :
    Started startedRouter ⟨[9002, 9003, 9004, 9005]⟩
        (discoveredCalls ⟨[9002, 9003, 9004, 9005]⟩) ∧
      ¬ WithinFanout (addPeers startedRouter (discoveredCalls ⟨[9002, 9003, 9004, 9005]⟩))
        ⟨[9002, 9003, 9004, 9005]⟩ (wireBytes shortMessage) := by
  refine ⟨started_router _ (by decide), ?_⟩
  intro within
  have total := (within fun _ _ => true).1
  revert total
  decide +kernel

end BitChat.UdpTransport
