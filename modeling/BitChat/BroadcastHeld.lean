import BitChat.FfiRuns
import BitChat.PeerForwarding

/-!
# What the success of a broadcast is worth

`bc_router_broadcast` drops the result of `forward_to_peers` and that of
`store_message` and returns `BC_OK` whenever it had a buffer. The message is
then with a peer or in the storage exactly when one of the two has really
taken it.
-/

namespace BitChat.BroadcastHeld

open BitChat.WireMessage BitChat.CryptoManager BitChat.PendingStorage BitChat.MeshRouter
open BitChat.FfiCore BitChat.FfiRuns BitChat.PeerForwarding

set_option autoImplicit false

def Held (msg : BcMessage) (events : List Event) : Prop :=
  (∃ peer, Event.send peer (wireBytes msg) .ok ∈ events) ∨ Event.store msg .ok ∈ events

section Broadcast

variable {Store : Type}

def HeldOnSuccess (node : Node Store) (env : CallEnv) (msg : BcMessage) : Prop :=
  (bcRouterBroadcast node env msg).rc = .ok → Held msg (bcRouterBroadcast node env msg).events

def PeerTakes (router : BcRouter Store) (sendRc : Nat → Rc) : Prop :=
  Sends router ∧ 0 < router.config.fanout.toNat ∧ ∃ i < router.peers.length, sendRc i = .ok

def StorageTakes (node : Node Store) (now : UInt64) (msg : BcMessage) : Prop :=
  ∃ storeMessage, node.router.storage.bind BcStorage.storeMessage = some storeMessage ∧
    (storeMessage now msg node.store).1 = .ok

theorem successes_pos_iff (sendRc : Nat → Rc) (count : Nat) :
    0 < successes sendRc 0 count ↔ ∃ i < count, sendRc i = .ok := by
  simp [successes, List.countP_pos_iff]

theorem peer_takes_iff (router : BcRouter Store) (sendRc : Nat → Rc) :
    PeerTakes router sendRc ↔ 0 < min router.config.fanout.toNat (accepting router sendRc) := by
  unfold PeerTakes accepting
  by_cases sends : Sends router
  · rw [if_pos sends, Nat.lt_min, successes_pos_iff]
    exact ⟨fun takes => takes.2, fun both => ⟨sends, both⟩⟩
  · rw [if_neg sends, Nat.min_zero]
    exact ⟨fun takes => absurd takes.1 sends, fun wrong => absurd wrong (Nat.lt_irrefl 0)⟩

theorem forward_succeeds_iff (router : BcRouter Store) (sendRc : Nat → Rc) (data : List UInt8) :
    (∃ peer, Event.send peer data .ok ∈ (forwardToPeers router sendRc data).2) ↔
      PeerTakes router sendRc := by
  rw [peer_takes_iff, ← (forwards router sendRc data).count, List.countP_pos_iff]
  constructor
  · rintro ⟨peer, sent⟩
    exact ⟨_, sent, rfl⟩
  · rintro ⟨event, member, succeeded⟩
    obtain ⟨peer, rc, same⟩ := forward_to_peers_events router sendRc data event member
    rw [same] at member succeeded
    have accepted : rc = .ok := of_decide_eq_true succeeded
    exact ⟨peer, accepted ▸ member⟩

theorem store_succeeds_iff (node : Node Store) (now : UInt64) (msg : BcMessage) :
    Event.store msg .ok ∈ (storeIfPresent node now msg).2 ↔ StorageTakes node now msg := by
  unfold storeIfPresent StorageTakes
  cases present : node.router.storage.bind BcStorage.storeMessage with
  | none => simp
  | some storeMessage =>
      simp only [List.mem_singleton, Event.store.injEq, true_and, Option.some.injEq,
        exists_eq_left']
      exact eq_comm

/-- The message is taken by a peer or by the storage, or there is no buffer
for it and an error is returned. -/
def Taken (node : Node Store) (env : CallEnv) (msg : BcMessage) : Prop :=
  env.alloc 0 = false ∨ PeerTakes node.router env.sendRc ∨ StorageTakes node env.storeNow msg

theorem held_on_success_iff (node : Node Store) (env : CallEnv) (msg : BcMessage) :
    HeldOnSuccess node env msg ↔ Taken node env msg := by
  unfold HeldOnSuccess Held Taken
  rcases broadcast_cases node env msg with ⟨starved, same⟩ | ⟨buffer, same⟩
  · rw [same]
    simp [starved]
  · rw [same]
    have forwarded : _ ↔ PeerTakes node.router env.sendRc :=
      forward_succeeds_iff (node.router.mark env.now msg.uuid) env.sendRc (wireBytes msg)
    have stored : _ ↔ StorageTakes node env.storeNow msg := store_succeeds_iff
      { node with router := node.router.mark env.now msg.uuid } env.storeNow msg
    rw [← forwarded, ← stored]
    constructor
    · intro held
      apply Or.inr
      rcases held rfl with ⟨peer, sent⟩ | saved
      · rcases List.mem_append.mp sent with here | wrong
        · exact .inl ⟨peer, here⟩
        · obtain ⟨_, other⟩ := store_if_present_events _ _ _ _ wrong
          cases other
      · rcases List.mem_append.mp saved with wrong | here
        · obtain ⟨_, _, other⟩ := forward_to_peers_events _ _ _ _ wrong
          cases other
        · exact .inr here
    · rintro (starved | ⟨peer, sent⟩ | saved) _
      · rw [buffer] at starved
        cases starved
      · exact .inl ⟨peer, List.mem_append_left _ sent⟩
      · exact .inr (List.mem_append_right _ saved)

end Broadcast

section Send

variable (sodium : Sodium)

/-- `bitchat_send_message` comes to its broadcast, with this router and this
message. -/
structure Prepares (state : GState) (env : SendEnv) (recipient : Pubkey) (plaintext : List UInt8)
    (router : BcRouter PendingMessages) (msg : BcMessage) : Prop where
  up : state.initialized = true
  router : state.router = some router
  message : ∃ payload, sealFor sodium state.identity env recipient plaintext = .ok payload ∧
    bcMessageCreate (fun k => env.alloc (k + 1)) env.uuid env.created state.identity.pubkey
      recipient payload = some msg

def SendHeldOnSuccess (state : GState) (env : SendEnv) (recipient : Pubkey)
    (plaintext : List UInt8) : Prop :=
  (bitchatSendMessage sodium state env recipient plaintext).rc = .ok →
    ∃ router msg, Prepares sodium state env recipient plaintext router msg ∧
      Held msg (bitchatSendMessage sodium state env recipient plaintext).events

variable {sodium} {state : GState} {env : SendEnv} {recipient : Pubkey} {plaintext : List UInt8}

theorem send_prepared {router : BcRouter PendingMessages} {msg : BcMessage}
    (prepares : Prepares sodium state env recipient plaintext router msg) :
    (bitchatSendMessage sodium state env recipient plaintext).rc =
        (bcRouterBroadcast ⟨router, state.store⟩ env.call msg).rc ∧
      (bitchatSendMessage sodium state env recipient plaintext).events =
        (bcRouterBroadcast ⟨router, state.store⟩ env.call msg).events := by
  obtain ⟨payload, sealed, created⟩ := prepares.message
  simp [bitchatSendMessage, prepares.up, prepares.router, sealed, created]

theorem prepares_of_success
    (success : (bitchatSendMessage sodium state env recipient plaintext).rc = .ok) :
    ∃ router msg, Prepares sodium state env recipient plaintext router msg := by
  unfold bitchatSendMessage at success
  split_ifs at success with off
  cases present : state.router with
  | none => simp [present] at success
  | some router =>
      cases sealed : sealFor sodium state.identity env recipient plaintext with
      | error rc =>
          simp only [present, sealed] at success
          exact absurd success (seal_for_error sodium sealed)
      | ok payload =>
          cases created : bcMessageCreate (fun k => env.alloc (k + 1)) env.uuid env.created
              state.identity.pubkey recipient payload with
          | none => simp [present, sealed, created] at success
          | some msg => exact ⟨router, msg, by simpa using off, present, payload, sealed, created⟩

theorem prepares_unique {router other : BcRouter PendingMessages} {msg otherMsg : BcMessage}
    (first : Prepares sodium state env recipient plaintext router msg)
    (second : Prepares sodium state env recipient plaintext other otherMsg) :
    router = other ∧ msg = otherMsg := by
  obtain ⟨payload, sealed, created⟩ := first.message
  obtain ⟨again, sealedAgain, createdAgain⟩ := second.message
  rw [sealed] at sealedAgain
  cases sealedAgain
  rw [created] at createdAgain
  exact ⟨Option.some.inj (first.router.symm.trans second.router), Option.some.inj createdAgain⟩

theorem send_held_iff :
    SendHeldOnSuccess sodium state env recipient plaintext ↔
      ∀ router msg, Prepares sodium state env recipient plaintext router msg →
        HeldOnSuccess ⟨router, state.store⟩ env.call msg := by
  constructor
  · intro held router msg prepares success
    obtain ⟨rc, events⟩ := send_prepared prepares
    obtain ⟨other, otherMsg, again, somewhere⟩ := held (rc.trans success)
    obtain ⟨-, same⟩ := prepares_unique prepares again
    rw [events, ← same] at somewhere
    exact somewhere
  · intro all success
    obtain ⟨router, msg, prepares⟩ := prepares_of_success success
    obtain ⟨rc, events⟩ := send_prepared prepares
    refine ⟨router, msg, prepares, ?_⟩
    rw [events]
    exact all router msg prepares (rc.symm.trans success)

end Send

/-- The success of a broadcast, and with it that of a send, means what it
says exactly when a peer or the storage takes the message. -/
theorem success_means_held_iff {Store : Type} (node : Node Store) (env : CallEnv)
    (msg : BcMessage) :
    (HeldOnSuccess node env msg ↔ Taken node env msg) ∧
      ∀ (sodium : Sodium) (state : GState) (sendEnv : SendEnv) (recipient : Pubkey)
        (plaintext : List UInt8),
        SendHeldOnSuccess sodium state sendEnv recipient plaintext ↔
          ∀ router sealed, Prepares sodium state sendEnv recipient plaintext router sealed →
            Taken ⟨router, state.store⟩ sendEnv.call sealed := by
  refine ⟨held_on_success_iff node env msg, ?_⟩
  intro sodium state sendEnv recipient plaintext
  simp only [send_held_iff, held_on_success_iff]

def brokenStorage : BcStorage Unit where
  storeMessage := some fun _ _ contents => (.storage, contents)
  getPending := none
  deleteMessage := none
  evictExpired := none

def brokenNode : Node Unit where
  router :=
    { transport := some ⟨true, true, true⟩
      storage := some brokenStorage
      config := bcDefaultConfig
      localPubkey := List.Vector.replicate 32 0
      dedupTable := BitChat.DedupTable.emptyTable
      dedupCap := 10000
      peers := [⟨List.Vector.replicate 32 4, 0, .ble, -40⟩]
      onMessage := false
      lastSfTick := 0 }
  store := ()

/-- The send to the peer fails, the message is not stored, and the broadcast
reports success. -/
theorem broken_node_broadcast_lost :
    ¬ HeldOnSuccess brokenNode { quietEnv 0 with sendRc := fun _ => .transport } shortMessage := by
  rw [held_on_success_iff]
  rintro (starved | ⟨-, -, i, -, accepted⟩ | ⟨storeMessage, present, stored⟩)
  · cases starved
  · cases accepted
  · rw [← Option.some.inj present] at stored
    cases stored

end BitChat.BroadcastHeld
