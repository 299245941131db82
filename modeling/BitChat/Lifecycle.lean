import BitChat.FfiRuns

/-!
# The life of the FFI core

What holds between the globals of the core in every state that its calls can
reach, and what the two calls that install an identity do to the components
they rebuild. A new identity always gets a new router and a new discovery
manager, also when it is the identity that was in place already.
-/

namespace BitChat.Lifecycle

open BitChat.WireMessage BitChat.CryptoManager BitChat.DedupTable BitChat.PendingStorage
open BitChat.MeshRouter BitChat.NodeDiscovery BitChat.FfiCore BitChat.FfiRuns TransitionSystem

set_option autoImplicit false

section Runs

variable (sodium : Sodium)

/-! ### The lifecycle invariant -/

structure Grounded (state : GState) : Prop where
  up : state.initialized = true → state.storage ≠ none
  components : state.initialized = false → state.transport = none ∧ state.storage = none ∧
    state.router = none ∧ state.discovery = none
  inbox : state.initialized = false → state.inboxHead = state.inboxTail
  userCallback : state.initialized = false → state.userCallback = false
  secretKey : state.initialized = false → state.identity.secretKey = List.Vector.replicate 32 0

theorem grounded_of_up {state : GState} (up : state.initialized = true)
    (storage : state.storage ≠ none) : Grounded state := by
  have never : state.initialized ≠ false := by
    rw [up]
    decide
  exact ⟨fun _ => storage, fun down => absurd down never, fun down => absurd down never,
    fun down => absurd down never, fun down => absurd down never⟩

/-- Only `bitchat_init` and `bitchat_shutdown` cross the boundary; every other
effect is one on a core that is up and keeps its storage. -/
theorem grounded_effect {state after : GState} {call : FfiCall} (grounded : Grounded state)
    (effect : Effect sodium state call after) : Grounded after := by
  cases effect with
  | nothing => exact grounded
  | storageFailed env down =>
      have absent := (grounded.components down).2.1
      have unchanged : ({ state with storage := none } : GState) = state := by rw [← absent]
      rw [unchanged]
      exact grounded
  | started env store down => exact grounded_of_up rfl (by simp)
  | generated id env up | loaded identityData id env up parsed =>
      have recreated := recreate_recreated { state with identity := id } env
      apply grounded_of_up
      · rw [recreated.initialized]
        exact up
      · rw [recreated.storage]
        exact grounded.up up
  | sent env recipient plaintext router msg up present
  | polled bufLen up content
  | scanned env discovery up present
  | registered callback up => exact grounded_of_up up (grounded.up up)
  | ticked env router up present =>
      have core := after_tick_core sodium state router env
      apply grounded_of_up
      · rw [core.initialized]
        exact up
      · rw [core.storage]
        exact grounded.up up
  | stopped up =>
      exact ⟨by simp, fun _ => ⟨rfl, rfl, rfl, rfl⟩, fun _ => rfl, fun _ => rfl, fun _ => rfl⟩

theorem grounded_of_reachable {state : GState} (reached : Reachable (ffiSystem sodium) state) :
    Grounded state := by
  apply Reachable.invariant Grounded _ _ reached
  · rintro _ rfl
    exact ⟨by simp [zeroedState], fun _ => ⟨rfl, rfl, rfl, rfl⟩, fun _ => rfl, fun _ => rfl,
      fun _ => rfl⟩
  · rintro before call _ grounded rfl
    exact grounded_effect sodium grounded (run_effect sodium before call)

structure Consistent (state : GState) : Prop where
  routed : ∀ router, state.router = some router → state.initialized = true ∧
    state.storage ≠ none ∧ router.onMessage = true ∧ router.localPubkey = state.identity.pubkey
  down : state.initialized = false → state.transport = none ∧ state.storage = none ∧
    state.router = none ∧ state.discovery = none ∧ state.inboxHead = state.inboxTail ∧
    state.userCallback = false ∧ state.identity.secretKey = List.Vector.replicate 32 0

/-- The core is consistent after any calls with any failures. -/
theorem consistent_of_reachable {state : GState} (reached : Reachable (ffiSystem sodium) state) :
    Consistent state := by
  have wired := wired_of_reachable sodium reached
  have grounded := grounded_of_reachable sodium reached
  constructor
  · intro router present
    obtain ⟨up, localKey, registered⟩ := wired.ready router present
    exact ⟨up, grounded.up up, registered, localKey⟩
  · intro down
    obtain ⟨transport, storage, router, discovery⟩ := grounded.components down
    exact ⟨transport, storage, router, discovery, grounded.inbox down, grounded.userCallback down,
      grounded.secretKey down⟩

theorem loaded_node_consistent : Consistent (loadedNode 1) :=
  consistent_of_reachable plainSodium (loaded_node_reachable 1)

/-! ### The two peer tables -/

def routerPeers (state : GState) : List BcPeer := (state.router.map BcRouter.peers).getD []

def discoveryPeers (state : GState) : List BcPeer :=
  (state.discovery.map BcDiscovery.peers).getD []

theorem recreated_router_peers {before after : GState} (recreated : Recreated before after) :
    routerPeers after = [] := by
  unfold routerPeers
  cases present : after.router with
  | none => rfl
  | some router => exact (recreated.router router present).peers

theorem recreated_discovery_peers {before after : GState} (recreated : Recreated before after) :
    discoveryPeers after = discoveryPeers before ∨ discoveryPeers after = [] := by
  unfold discoveryPeers
  rcases recreated.discovery with same | fresh
  · exact .inl (by rw [same])
  · cases present : after.discovery with
    | none => exact .inr rfl
    | some discovery => exact .inr (fresh discovery present)

theorem router_peers_effect {state after : GState} {call : FfiCall}
    (effect : Effect sodium state call after) :
    routerPeers after = routerPeers state ∨ routerPeers after = [] := by
  cases effect with
  | generated id env up | loaded identityData id env up parsed =>
      exact .inr (recreated_router_peers (recreate_recreated { state with identity := id } env))
  | sent env recipient plaintext router msg up present =>
      have fixture := broadcast_fixture ⟨router, state.store⟩ env.call msg
      apply Or.inl
      simpa [routerPeers, withNode, present] using fixture.peers
  | ticked env router up present =>
      have core := after_tick_core sodium state router env
      have fixture := tick_fixture ⟨router, state.store⟩ env.tick
      apply Or.inl
      simpa [routerPeers, core.router, withNode, present] using fixture.peers
  | stopped up => exact .inr rfl
  | _ => exact .inl rfl

theorem discovery_peers_effect {state after : GState} {call : FfiCall}
    (effect : Effect sodium state call after) :
    discoveryPeers after = discoveryPeers state ∨ discoveryPeers after = [] ∨
      ∃ env, call = .startDiscovery env := by
  cases effect with
  | generated id env up | loaded identityData id env up parsed =>
      have recreated := recreate_recreated { state with identity := id } env
      rcases recreated_discovery_peers recreated with kept | empty
      · exact .inl kept
      · exact .inr (.inl empty)
  | scanned env discovery up present => exact .inr (.inr ⟨env, rfl⟩)
  | ticked env router up present =>
      have core := after_tick_core sodium state router env
      apply Or.inl
      unfold discoveryPeers
      rw [core.discovery]
      rfl
  | stopped up => exact .inr (.inl rfl)
  | _ => exact .inl rfl

theorem router_peers_nil {state : GState} (reached : Reachable (ffiSystem sodium) state) :
    routerPeers state = [] := by
  apply Reachable.invariant (fun s => routerPeers s = []) _ _ reached
  · rintro _ rfl
    rfl
  · rintro before call _ empty rfl
    rcases router_peers_effect sodium (run_effect sodium before call) with same | fresh
    · exact same.trans empty
    · exact fresh

def PeersReachRouter (state : GState) : Prop :=
  ∀ peer ∈ discoveryPeers state, peer.pubkey ∈ (routerPeers state).map BcPeer.pubkey

/-- The condition on a call: a scan that the transport completes has found
nobody. -/
def FindsNobody (state : GState) : FfiCall → Prop
  | .startDiscovery env =>
      state.initialized = true → ∀ discovery, state.discovery = some discovery →
        (discovery.transport.map BcTransport.discoverPeers).getD false = true → env.rc = .ok →
        env.found = []
  | _ => True

theorem scan_nobody {state : GState} {env : ScanEnv}
    (nobody : FindsNobody state (.startDiscovery env)) :
    discoveryPeers (bitchatStartDiscovery state env).2 = discoveryPeers state := by
  unfold bitchatStartDiscovery
  split_ifs with down
  · rfl
  · split
    · rfl
    · rename_i discovery present
      simp only [discoveryPeers, present, Option.map_some, Option.getD_some, bcDiscoveryScan]
      split_ifs with unable failed
      · rfl
      · rfl
      · have empty : env.found = [] :=
          nobody (by simpa using down) discovery present (by simpa using unable)
            (not_not.mp failed)
        simp [empty, scanLoop]

/-- In every run whose scans find nobody, the router knows all discovered
peers. -/
theorem peers_reach_router_of_empty_scans {state : GState}
    (reached : Reachable (guarded (ffiSystem sodium) FindsNobody) state) :
    PeersReachRouter state := by
  have none : discoveryPeers state = [] := by
    apply Reachable.invariant (fun s => discoveryPeers s = []) _ _ reached
    · rintro _ rfl
      rfl
    · rintro before call after empty ⟨same, nobody⟩
      rw [show after = call.run sodium before from same]
      rcases discovery_peers_effect sodium (run_effect sodium before call) with
        kept | fresh | ⟨env, scan⟩
      · exact kept.trans empty
      · exact fresh
      · subst scan
        exact (scan_nobody nobody).trans empty
  intro peer member
  rw [none] at member
  cases member

def emptyScan : FfiCall := .startDiscovery ⟨.ok, [], fun _ => 0⟩

theorem empty_scan_peers_reach_router :
    PeersReachRouter (emptyScan.run plainSodium (loadedNode 1)) := by
  apply peers_reach_router_of_empty_scans plainSodium
  have started : Reachable (guarded (ffiSystem plainSodium) FindsNobody)
      (runCalls plainSodium zeroedState ((setupCalls 1).take 1)) :=
    .next (.init ⟨true, true, some KeyedTable.empty, some ⟨true, true, true⟩⟩) (.start rfl)
      ⟨rfl, trivial⟩
  have loaded : Reachable (guarded (ffiSystem plainSodium) FindsNobody) (loadedNode 1) :=
    .next (.loadIdentity (bcIdentitySerialize (plainIdentity 1)) ⟨allocates, true⟩) started
      ⟨rfl, trivial⟩
  exact .next emptyScan loaded ⟨rfl, fun _ _ _ _ _ => rfl⟩

def strangerPeer : BcPeer where
  pubkey := List.Vector.replicate 32 9
  lastSeen := 0
  transport := .ble
  rssi := -40

def scoutedNode : GState :=
  (FfiCall.startDiscovery ⟨.ok, [strangerPeer], fun _ => 0⟩).run plainSodium (loadedNode 1)

theorem scouted_node_reachable : Reachable (ffiSystem plainSodium) scoutedNode :=
  .next _ (loaded_node_reachable 1) rfl

/-- The peer that a scan finds does not reach the router. -/
theorem scouted_peer_unknown_to_router :
    Reachable (ffiSystem plainSodium) scoutedNode ∧ ¬ PeersReachRouter scoutedNode := by
  refine ⟨scouted_node_reachable, ?_⟩
  intro reach
  have known := reach strangerPeer (by decide +kernel)
  rw [router_peers_nil plainSodium scouted_node_reachable] at known
  cases known

/-! ### Loading the identity that is in place -/

/-- A datagram that parses to a message with this uuid is rejected as a
duplicate, in all circumstances. -/
def RejectsUuid (state : GState) (uuid : Uuid) : Prop :=
  ∃ router, state.router = some router ∧
    ∀ env data msg, bcMessageDeserialize env.alloc ⟨data, env.beyond⟩ = some msg →
      msg.uuid = uuid → (bcRouterReceive ⟨router, state.store⟩ env data).rc = .duplicate

structure Unchanged (before after : GState) : Prop where
  rejected : ∀ uuid, RejectsUuid before uuid → RejectsUuid after uuid
  routerPeers : routerPeers after = routerPeers before
  discoveryPeers : discoveryPeers after = discoveryPeers before

def RemembersNothing (state : GState) : Prop :=
  ∀ router, state.router = some router → ∀ uuid,
    dedupContains router.dedupTable router.dedupCap uuid = false

def bareMessage (uuid : Uuid) : BcMessage where
  uuid := uuid
  ttl := 1
  senderPubkey := List.Vector.replicate 32 0
  receiverPubkey := List.Vector.replicate 32 0
  timestamp := 0
  payload := []

theorem rejects_uuid_iff (state : GState) (uuid : Uuid) :
    RejectsUuid state uuid ↔ ∃ router, state.router = some router ∧
      dedupContains router.dedupTable router.dedupCap uuid = true := by
  constructor
  · rintro ⟨router, present, rejects⟩
    refine ⟨router, present, ?_⟩
    have parsed := deserialize_wire allocates (bareMessage uuid) [] (fun _ => 0)
      (show 0 < 2 ^ 32 by decide) rfl rfl
    have rejected := rejects (quietEnv 0) _ (bareMessage uuid) parsed rfl
    cases seen : dedupContains router.dedupTable router.dedupCap uuid with
    | true => rfl
    | false =>
        rw [receive_unseen ⟨router, state.store⟩ (quietEnv 0) parsed seen] at rejected
        exact absurd rejected (receive_new_rc _ _ _)
  · rintro ⟨router, present, seen⟩
    refine ⟨router, present, ?_⟩
    intro env data msg parsed same
    rw [← same] at seen
    rw [receive_seen ⟨router, state.store⟩ env parsed seen]

theorem recreate_ok_discovery {state : GState} {env : SetupEnv}
    (accepted : (recreate state env).1 = .ok) : discoveryPeers (recreate state env).2 = [] := by
  unfold recreate at accepted ⊢
  split at accepted
  · cases accepted
  · rename_i router created
    simp only [discoveryPeers]
    cases made : bcDiscoveryCreate env.discoveryAlloc state.transport with
    | none => rfl
    | some discovery => exact discovery_create_peers made

theorem load_identity_ok {state : GState} {identityData : List UInt8} {env : SetupEnv}
    (accepted : (bitchatLoadIdentity state identityData env).1 = .ok) :
    ∃ id, bitchatLoadIdentity state identityData env =
      recreate { state with identity := id } env := by
  cases status : state.initialized with
  | false =>
      simp only [bitchatLoadIdentity, status, if_true] at accepted
      cases accepted
  | true =>
      cases parsed : bcIdentityDeserialize identityData with
      | none =>
          simp only [bitchatLoadIdentity, status, parsed, Bool.true_eq_false, if_false] at accepted
          cases accepted
      | some id =>
          refine ⟨id, ?_⟩
          simp [bitchatLoadIdentity, status, parsed]

theorem load_identity_fresh {state : GState} {identityData : List UInt8} {env : SetupEnv}
    (accepted : (bitchatLoadIdentity state identityData env).1 = .ok) :
    (∀ uuid, ¬ RejectsUuid (bitchatLoadIdentity state identityData env).2 uuid) ∧
      routerPeers (bitchatLoadIdentity state identityData env).2 = [] ∧
      discoveryPeers (bitchatLoadIdentity state identityData env).2 = [] := by
  obtain ⟨id, same⟩ := load_identity_ok accepted
  rw [same] at accepted ⊢
  have recreated := recreate_recreated { state with identity := id } env
  refine ⟨?_, recreated_router_peers recreated, recreate_ok_discovery accepted⟩
  intro uuid rejects
  obtain ⟨router, present, seen⟩ := (rejects_uuid_iff _ uuid).mp rejects
  rw [(recreated.router router present).dedupTable, contains_empty] at seen
  cases seen

/-- Loading the identity in place changes nothing observable exactly when the
router has seen no message and the discovery manager knows no peer. -/
theorem reload_unchanged_iff {state : GState} (env : SetupEnv)
    (reached : Reachable (ffiSystem sodium) state)
    (accepted : (bitchatLoadIdentity state (bcIdentitySerialize state.identity) env).1 = .ok) :
    Unchanged state (bitchatLoadIdentity state (bcIdentitySerialize state.identity) env).2 ↔
      RemembersNothing state ∧ discoveryPeers state = [] := by
  obtain ⟨forgotten, noRouterPeers, noDiscovered⟩ := load_identity_fresh accepted
  constructor
  · intro unchanged
    refine ⟨?_, unchanged.discoveryPeers.symm.trans noDiscovered⟩
    intro router present uuid
    rw [← Bool.not_eq_true]
    intro seen
    have rejects := (rejects_uuid_iff state uuid).mpr ⟨router, present, seen⟩
    exact forgotten uuid (unchanged.rejected uuid rejects)
  · rintro ⟨nothing, nobody⟩
    refine ⟨?_, noRouterPeers.trans (router_peers_nil sodium reached).symm,
      noDiscovered.trans nobody.symm⟩
    intro uuid rejects
    obtain ⟨router, present, seen⟩ := (rejects_uuid_iff state uuid).mp rejects
    exact absurd (seen.symm.trans (nothing router present uuid)) (by decide)

theorem loaded_node_reload :
    Unchanged (loadedNode 1) (bitchatLoadIdentity (loadedNode 1)
        (bcIdentitySerialize (loadedNode 1).identity) ⟨allocates, true⟩).2 ↔
      RemembersNothing (loadedNode 1) ∧ discoveryPeers (loadedNode 1) = [] :=
  reload_unchanged_iff plainSodium ⟨allocates, true⟩ (loaded_node_reachable 1) (by decide +kernel)

def senderNode : GState :=
  (FfiCall.sendMessage
    { nonce := List.Vector.replicate 24 0
      uuid := List.Vector.replicate 16 5
      created := 0
      alloc := allocates
      call := quietEnv 0 } (List.Vector.replicate 32 2) [104, 105]).run plainSodium (loadedNode 1)

/-- The sent message was a duplicate before the identity was loaded again, and
is none after it. -/
theorem reload_forgets_sent_message :
    Reachable (ffiSystem plainSodium) senderNode ∧
      (bitchatLoadIdentity senderNode (bcIdentitySerialize senderNode.identity)
        ⟨allocates, true⟩).1 = .ok ∧
      ¬ Unchanged senderNode (bitchatLoadIdentity senderNode
        (bcIdentitySerialize senderNode.identity) ⟨allocates, true⟩).2 := by
  have accepted : (bitchatLoadIdentity senderNode (bcIdentitySerialize senderNode.identity)
      ⟨allocates, true⟩).1 = .ok := by decide +kernel
  refine ⟨.next _ (loaded_node_reachable 1) rfl, accepted, ?_⟩
  intro unchanged
  have rejects : RejectsUuid senderNode (List.Vector.replicate 16 5) :=
    (rejects_uuid_iff _ _).mpr ⟨_, rfl, by decide +kernel⟩
  exact (load_identity_fresh accepted).1 _ (unchanged.rejected _ rejects)

end Runs

section Transmission

variable {sodium : Sodium}

def Transmits (events : List Event) : Prop := ∃ peer data rc, Event.send peer data rc ∈ events

theorem forward_to_nobody {router : BcRouter PendingMessages} (alone : router.peers = [])
    (sendRc : Nat → Rc) (data : List UInt8) : (forwardToPeers router sendRc data).2 = [] := by
  unfold forwardToPeers
  split_ifs
  · rfl
  · rw [alone]
    rfl

theorem store_transmits_nothing (node : Node PendingMessages) (now : UInt64) (msg : BcMessage) :
    ¬ Transmits (storeIfPresent node now msg).2 := by
  rintro ⟨peer, data, rc, event⟩
  obtain ⟨_, wrong⟩ := store_if_present_events node now msg _ event
  cases wrong

theorem broadcast_alone (node : Node PendingMessages) (alone : node.router.peers = [])
    (env : CallEnv) (msg : BcMessage) : ¬ Transmits (bcRouterBroadcast node env msg).events := by
  rintro ⟨peer, data, rc, event⟩
  rcases broadcast_cases node env msg with ⟨-, same⟩ | ⟨-, same⟩
  · rw [same] at event
    cases event
  · have silent : (forwardToPeers (node.router.mark env.now msg.uuid) env.sendRc
        (wireBytes msg)).2 = [] := forward_to_nobody alone _ _
    rw [same, silent, List.nil_append] at event
    exact store_transmits_nothing _ _ _ ⟨peer, data, rc, event⟩

theorem receive_alone {node : Node PendingMessages} (alone : node.router.peers = [])
    (env : CallEnv) (data : List UInt8) : ¬ Transmits (bcRouterReceive node env data).events := by
  rintro ⟨peer, sent, rc, event⟩
  obtain ⟨msg, -, -, fromNew⟩ := receive_event node env event
  rcases receive_new_cases node env msg with
    ⟨-, same⟩ | ⟨-, -, same⟩ | ⟨-, -, sends, origin, same⟩
  · rw [same] at fromNew
    cases fromNew
  · rw [same] at fromNew
    simp only at fromNew
    split_ifs at fromNew
    · cases List.mem_singleton.mp fromNew
    · cases fromNew
  · have silent : sends = [] := by
      rcases origin with none | forwarded
      · exact none
      · exact forwarded.trans (forward_to_nobody alone _ _)
    rw [same, silent, List.append_nil] at fromNew
    exact store_transmits_nothing _ _ _ ⟨peer, sent, rc, fromNew⟩

theorem receive_loop_alone (arrivals : List Arrival) :
    ∀ node : Node PendingMessages, node.router.peers = [] →
      ¬ Transmits (receiveLoop node arrivals).2 := by
  induction arrivals with
  | nil =>
      rintro node - ⟨peer, data, rc, event⟩
      cases event
  | cons arrival rest ih =>
      rintro node alone ⟨peer, data, rc, event⟩
      rw [receiveLoop] at event
      split_ifs at event
      · rcases List.mem_append.mp event with here | later
        · exact receive_alone alone _ _ ⟨peer, data, rc, here⟩
        · have stillAlone := (receive_fixture node arrival.env arrival.received).peers.trans alone
          exact ih _ stillAlone ⟨peer, data, rc, later⟩
      · cases event

theorem tick_alone (node : Node PendingMessages) (alone : node.router.peers = [])
    (env : TickEnv) : ¬ Transmits (bcRouterTick node env).2 := by
  have evicted := (evict_fixture node env.evictNow).peers.trans alone
  rintro ⟨peer, data, rc, event⟩
  rcases List.mem_append.mp event with polled | rebroadcast
  · unfold tickPoll at polled
    split_ifs at polled
    · exact receive_loop_alone _ _ evicted ⟨peer, data, rc, polled⟩
    · cases polled
  · have stillAlone := (poll_fixture (tickEvict node env.evictNow) env.arrivals).peers.trans evicted
    unfold tickRebroadcast at rebroadcast
    split at rebroadcast
    · cases rebroadcast
    · rw [if_neg (by rw [stillAlone]; simp)] at rebroadcast
      cases rebroadcast

def callEvents (sodium : Sodium) (state : GState) : FfiCall → List Event
  | .sendMessage env recipient plaintext =>
      (bitchatSendMessage sodium state env recipient plaintext).events
  | .tick env => (bitchatTick sodium state env).events
  | _ => []

/-- No run of the FFI ever hands a datagram to its transport, whatever was
sent, received or discovered: what is accepted for sending stays in the
store. -/
theorem ffi_never_transmits {state : GState} (reached : Reachable (ffiSystem sodium) state)
    (call : FfiCall) : ¬ Transmits (callEvents sodium state call) := by
  have noPeers : ∀ router, state.router = some router → router.peers = [] := by
    intro router present
    have none := router_peers_nil sodium reached
    rwa [routerPeers, present] at none
  cases call with
  | sendMessage env recipient plaintext =>
      rcases send_cases sodium state env recipient plaintext with
        ⟨rc, same, -⟩ | ⟨router, key, ciphertext, -, present, -, -, same⟩
      · rw [callEvents, same]
        rintro ⟨peer, data, rc, event⟩
        cases event
      · rw [callEvents, same]
        exact broadcast_alone ⟨router, state.store⟩ (noPeers router present) _ _
  | tick env =>
      unfold callEvents bitchatTick
      split_ifs
      · rintro ⟨peer, data, rc, event⟩
        cases event
      · cases present : state.router with
        | none =>
            rintro ⟨peer, data, rc, event⟩
            cases event
        | some router =>
            exact tick_alone ⟨router, state.store⟩ (noPeers router present) _
  | _ =>
      rintro ⟨peer, data, rc, event⟩
      cases event

theorem accepted_message_not_transmitted :
    (bitchatSendMessage plainSodium (loadedNode 1) ⟨List.Vector.replicate 24 0,
        List.Vector.replicate 16 5, 0, allocates, quietEnv 0⟩ (plainIdentity 2).pubkey [104]).rc =
      .ok ∧
    ¬ Transmits (callEvents plainSodium (loadedNode 1) (.sendMessage ⟨List.Vector.replicate 24 0,
        List.Vector.replicate 16 5, 0, allocates, quietEnv 0⟩ (plainIdentity 2).pubkey [104])) :=
  ⟨by decide +kernel, ffi_never_transmits (loaded_node_reachable 1) _⟩

end Transmission

end BitChat.Lifecycle
