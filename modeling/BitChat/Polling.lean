import BitChat.Authenticity
import BitChat.Inbox
import Mathlib.Data.List.TakeWhile

/-!
# What a client learns from polling

A poll takes the oldest message off the inbox before it looks at it. A buffer
that is too small costs the message whose length is reported, and the answer
for an empty inbox is also the answer for a message without a text, so that a
client which polls until it gets that answer can be stopped early by what
anyone on the network chose to send. It decrypts with the secret in place at
the time of the poll, which is the one a message was encrypted for as long as
no other identity was installed over the message.
-/

namespace BitChat.Polling

open BitChat.WireMessage BitChat.CryptoManager BitChat.PendingStorage BitChat.MeshRouter
open BitChat.FfiCore BitChat.FfiRuns BitChat.EndToEnd BitChat.Authenticity BitChat.Lifecycle
open BitChat.Inbox TransitionSystem

set_option autoImplicit false

section Answers

variable (sodium : Sodium)

/-- A message without a text: it is too short to hold a ciphertext, or what it
holds decrypts to nothing. -/
def blank (identity : BcIdentity) (msg : BcMessage) : Bool :=
  decide (msg.payload.length < bcNonceSize + bcTagSize) ||
    (decide (msg.payload.length = bcNonceSize + bcTagSize) &&
      (openMessage sodium identity msg).isOk)

def answer (identity : BcIdentity) (msg : BcMessage) : PollResult :=
  pollSlot sodium identity (some msg) msg.payload.length

def tellsNone (result : PollResult) : Bool := decide (result.rc = .ok ∧ result.msgLen = 0)

theorem poll_slot_room {identity : BcIdentity} {msg : BcMessage} {bufLen : Nat}
    (room : msg.payload.length ≤ bufLen + (bcNonceSize + bcTagSize)) :
    pollSlot sodium identity (some msg) bufLen = answer sodium identity msg := by
  have fits : ¬ bufLen < msg.payload.length - bcNonceSize - bcTagSize := by omega
  have fitsOwn : ¬ msg.payload.length < msg.payload.length - bcNonceSize - bcTagSize := by omega
  simp only [answer, pollSlot, fits, fitsOwn, if_false]

theorem poll_slot_none_iff (identity : BcIdentity) (msg : BcMessage) (bufLen : Nat) :
    tellsNone (pollSlot sodium identity (some msg) bufLen) = blank sodium identity msg := by
  rcases poll_slot_cases sodium identity msg bufLen with
    ⟨short, result⟩ | ⟨long, ⟨rc, failed, unopened, result⟩ | ⟨small, result⟩ |
      ⟨plaintext, opened, room, result⟩⟩
  · simp [result, tellsNone, blank, short]
  · simp [result, tellsNone, blank, unopened, failed, Nat.not_lt.mpr long, Except.isOk,
      Except.toBool]
  · have longer : msg.payload.length ≠ bcNonceSize + bcTagSize := by omega
    simp [result, tellsNone, blank, Nat.not_lt.mpr long, longer]
  · have exact : msg.payload.length - bcNonceSize - bcTagSize = 0 ↔
        msg.payload.length = bcNonceSize + bcTagSize := by omega
    simp [result, tellsNone, blank, opened, Nat.not_lt.mpr long, Except.isOk,
      Except.toBool, exact]

variable {sodium}

theorem open_message_length (laws : SodiumLaws sodium) {identity : BcIdentity} {msg : BcMessage}
    {plaintext : List UInt8} (opened : openMessage sodium identity msg = .ok plaintext) :
    msg.payload.length = plaintext.length + (bcNonceSize + bcTagSize) := by
  obtain ⟨key, -, decrypted⟩ := open_message_ok opened
  have encrypted := laws.decrypt_sound _ _ _ _ (open_with_ok decrypted)
  have size := laws.encrypt_length _ _ _ _ encrypted
  rw [List.length_drop] at size
  simp only [bcTagSize] at size ⊢
  omega

variable (sodium)

theorem poll_front {state : GState} {items : List BcMessage} (bufLen : Nat)
    (up : state.initialized = true) (queued : Queued state items) :
    (bitchatPollMessages sodium state bufLen).1 =
        pollSlot sodium state.identity items.head? bufLen ∧
      Queued (bitchatPollMessages sodium state bufLen).2 items.tail ∧
      SameCore state (bitchatPollMessages sodium state bufLen).2 := by
  cases items with
  | nil =>
      rw [poll_empty sodium bufLen up queued]
      exact ⟨rfl, queued, SameCore.refl state⟩
  | cons msg rest => exact poll_queued sodium bufLen up queued

end Answers

/-! ### A buffer that is too small -/

section TooSmall

variable (sodium : Sodium)

/-- A poll with a buffer that is too small reports the length, leaves the
inbox as it is, and a retry with a buffer of that length gets the message. -/
def LosesNothing (state : GState) (bufLen : Nat) (sender : Pubkey) (plaintext : List UInt8) :
    Prop :=
  let polled := bitchatPollMessages sodium state bufLen
  polled.1.rc = .bufferTooSmall ∧ polled.1.msgLen = plaintext.length ∧
    (∀ items, Queued state items → Queued polled.2 items) ∧
    ∀ retryLen, plaintext.length ≤ retryLen →
      (bitchatPollMessages sodium polled.2 retryLen).1 =
        ⟨.ok, plaintext.length, some sender, plaintext⟩

theorem too_small_poll_takes {state : GState} {msg : BcMessage} {rest : List BcMessage}
    {plaintext : List UInt8} {bufLen : Nat} (laws : SodiumLaws sodium)
    (up : state.initialized = true) (queued : Queued state (msg :: rest))
    (opened : openMessage sodium state.identity msg = .ok plaintext)
    (small : bufLen < plaintext.length) :
    (bitchatPollMessages sodium state bufLen).1 =
        ⟨.bufferTooSmall, plaintext.length, none, []⟩ ∧
      Queued (bitchatPollMessages sodium state bufLen).2 rest ∧
      ∀ retryLen,
        (bitchatPollMessages sodium (bitchatPollMessages sodium state bufLen).2 retryLen).1 =
          pollSlot sodium state.identity rest.head? retryLen := by
  obtain ⟨result, shorter, core⟩ := poll_front sodium bufLen up queued
  have size := open_message_length laws opened
  have length : msg.payload.length - bcNonceSize - bcTagSize = plaintext.length := by omega
  refine ⟨?_, shorter, fun retryLen => ?_⟩
  · rw [result]
    show pollSlot sodium state.identity (some msg) bufLen = _
    rcases poll_slot_cases sodium state.identity msg bufLen with
      ⟨short, -⟩ | ⟨-, ⟨rc, -, unopened, -⟩ | ⟨-, tooSmall⟩ | ⟨-, -, room, -⟩⟩
    · omega
    · rw [opened] at unopened
      cases unopened
    · rw [tooSmall, length]
    · omega
  · rw [← core.identity]
    exact (poll_front sodium retryLen (core.initialized.trans up) shorter).1

/-- No poll with a buffer that is too small leaves the message where it is. -/
theorem too_small_poll_loses_message (laws : SodiumLaws sodium) {state : GState}
    (reached : Reachable (ffiSystem sodium) state) {msg : BcMessage} {rest : List BcMessage}
    (queued : Queued state (msg :: rest)) {plaintext : List UInt8}
    (opened : openMessage sodium state.identity msg = .ok plaintext) {bufLen : Nat}
    (small : bufLen < plaintext.length) :
    (bitchatPollMessages sodium state bufLen).1 =
        ⟨.bufferTooSmall, plaintext.length, none, []⟩ ∧
      Queued (bitchatPollMessages sodium state bufLen).2 rest ∧
      (∀ retryLen,
        (bitchatPollMessages sodium (bitchatPollMessages sodium state bufLen).2 retryLen).1 =
          pollSlot sodium state.identity rest.head? retryLen) ∧
      ¬ LosesNothing sodium state bufLen msg.senderPubkey plaintext := by
  have up : state.initialized = true := by
    cases status : state.initialized with
    | true => rfl
    | false =>
        have meet := (grounded_of_reachable sodium reached).inbox status
        cases queued.empty_iff.mp meet.symm
  obtain ⟨result, shorter, retry⟩ := too_small_poll_takes sodium laws up queued opened small
  refine ⟨result, shorter, retry, fun nothing => ?_⟩
  obtain ⟨-, -, unchanged, -⟩ := nothing
  have same := congrArg List.length (shorter.unique (unchanged _ queued))
  rw [List.length_cons] at same
  omega

end TooSmall

def letter : BcMessage where
  uuid := List.Vector.replicate 16 9
  ttl := 9
  senderPubkey := List.Vector.replicate 32 1
  receiverPubkey := List.Vector.replicate 32 2
  timestamp := 5
  payload := List.replicate 24 0 ++ [104, 105] ++ List.replicate 16 3

def letterTick : FfiCall :=
  .tick ⟨{ quietTick 100 with arrivals := [⟨.ok, wireBytes letter, quietEnv 100⟩] },
    fun _ => allocates⟩

def letterNode : GState := letterTick.run plainSodium (loadedNode 2)

theorem letter_node_reachable : Reachable (ffiSystem plainSodium) letterNode :=
  .next letterTick (loaded_node_reachable 2) rfl

theorem letter_node_queued : Queued letterNode [{ letter with ttl := 8 }] := by
  refine ⟨by decide +kernel, by decide, by decide +kernel, ?_⟩
  intro i inside
  rw [Nat.lt_one_iff.mp inside]
  decide +kernel

theorem letter_node_opened :
    openMessage plainSodium letterNode.identity { letter with ttl := 8 } = .ok [104, 105] := by
  decide +kernel

theorem letter_lost_to_small_poll :
    (bitchatPollMessages plainSodium letterNode 1).1 = ⟨.bufferTooSmall, 2, none, []⟩ ∧
      Queued (bitchatPollMessages plainSodium letterNode 1).2 [] := by
  have lost := too_small_poll_loses_message plainSodium plain_sodium_laws letter_node_reachable
    letter_node_queued letter_node_opened (show 1 < [104, 105].length by decide)
  exact ⟨lost.1, lost.2.1⟩

theorem letter_poll_loses_something :
    Reachable (ffiSystem plainSodium) letterNode ∧ Queued letterNode [{ letter with ttl := 8 }] ∧
      openMessage plainSodium letterNode.identity { letter with ttl := 8 } = .ok [104, 105] ∧
      ¬ LosesNothing plainSodium letterNode 1 letter.senderPubkey [104, 105] := by
  refine ⟨letter_node_reachable, letter_node_queued, letter_node_opened, fun nothing => ?_⟩
  have retried := nothing.2.2.2 2 (by decide)
  have empty : (bitchatPollMessages plainSodium
      (bitchatPollMessages plainSodium letterNode 1).2 2).1 = ⟨.ok, 0, none, []⟩ := by
    decide +kernel
  rw [empty] at retried
  cases retried

/-! ### Polling until there is no message -/

section Drain

variable (sodium : Sodium)

def ZeroMeansEmpty (state : GState) (bufLen : Nat) : Prop :=
  tellsNone (bitchatPollMessages sodium state bufLen).1 = true ↔ Queued state []

/-- The loop of a client: poll until there is no message. The results are the
answers before that one; `none` where the fuel runs out. -/
def drain (bufLen : Nat) : Nat → GState → Option (List PollResult × GState)
  | 0, _ => none
  | fuel + 1, state =>
      let polled := bitchatPollMessages sodium state bufLen
      if tellsNone polled.1 then some ([], polled.2)
      else (drain bufLen fuel polled.2).map fun later => (polled.1 :: later.1, later.2)

def DrainsAll (state : GState) (items : List BcMessage) (bufLen fuel : Nat) : Prop :=
  ∃ final, drain sodium bufLen fuel state =
    some (items.map (answer sodium state.identity), final) ∧ Queued final []

theorem zero_means_empty_iff {state : GState} {items : List BcMessage} (bufLen : Nat)
    (up : state.initialized = true) (queued : Queued state items) :
    ZeroMeansEmpty sodium state bufLen ↔
      ∀ msg, items.head? = some msg → blank sodium state.identity msg = false := by
  have result := (poll_front sodium bufLen up queued).1
  have empty : Queued state [] ↔ items = [] := by
    constructor
    · exact fun none => queued.unique none
    · rintro rfl
      exact queued
  rw [ZeroMeansEmpty, empty, result]
  cases items with
  | nil => simp [tellsNone, pollSlot]
  | cons msg rest =>
      rw [List.head?_cons, poll_slot_none_iff]
      simp

theorem drain_queued {bufLen : Nat} (items : List BcMessage) :
    ∀ (fuel : Nat) (state : GState), items.length < fuel → state.initialized = true →
      Queued state items →
      (∀ msg ∈ items, msg.payload.length ≤ bufLen + (bcNonceSize + bcTagSize)) →
      ∃ final, drain sodium bufLen fuel state =
          some ((items.takeWhile fun msg => !blank sodium state.identity msg).map
            (answer sodium state.identity), final) ∧
        Queued final (items.dropWhile fun msg => !blank sodium state.identity msg).tail := by
  induction items with
  | nil =>
      intro fuel state enough up queued _
      obtain ⟨fuel, rfl⟩ := Nat.exists_eq_add_one.mpr enough
      have polled := poll_empty sodium bufLen up queued
      exact ⟨state, by simp [drain, polled, tellsNone], queued⟩
  | cons msg rest ih =>
      intro fuel state enough up queued room
      obtain ⟨fuel, rfl⟩ := Nat.exists_eq_add_one.mpr (Nat.zero_lt_of_lt enough)
      obtain ⟨result, shorter, core⟩ := poll_front sodium bufLen up queued
      rw [List.head?_cons] at result
      have tells := poll_slot_none_iff sodium state.identity msg bufLen
      rw [poll_slot_room sodium (room msg List.mem_cons_self)] at result tells
      cases status : blank sodium state.identity msg with
      | true =>
          refine ⟨(bitchatPollMessages sodium state bufLen).2, ?_, ?_⟩
          · simp only [drain, result, tells, status, if_true]
            simp [status]
          · simpa [status] using shorter
      | false =>
          have later := ih fuel (bitchatPollMessages sodium state bufLen).2
            (Nat.lt_of_succ_lt_succ enough) (core.initialized.trans up) shorter
            fun other member => room other (List.mem_cons_of_mem _ member)
          rw [core.identity] at later
          obtain ⟨final, drained, left⟩ := later
          refine ⟨final, ?_, ?_⟩
          · simp only [drain, result, tells, status, drained]
            simp [status]
          · simpa [status] using left

/-- The loop gets through the inbox exactly when no message in it is blank. -/
theorem drains_all_iff {state : GState} {items : List BcMessage} {bufLen fuel : Nat}
    (up : state.initialized = true) (queued : Queued state items)
    (room : ∀ msg ∈ items, msg.payload.length ≤ bufLen + (bcNonceSize + bcTagSize))
    (enough : items.length < fuel) :
    DrainsAll sodium state items bufLen fuel ↔
      ∀ msg ∈ items, blank sodium state.identity msg = false := by
  obtain ⟨final, drained, left⟩ := drain_queued sodium items fuel state enough up queued room
  constructor
  · rintro ⟨other, all, -⟩
    rw [drained] at all
    have answers := congrArg Prod.fst (Option.some.inj all)
    have count := congrArg List.length answers
    rw [List.length_map, List.length_map] at count
    have start := List.takeWhile_prefix (l := items) fun msg => !blank sodium state.identity msg
    have whole := start.eq_of_length count
    intro msg member
    have kept := List.takeWhile_eq_self_iff.mp whole msg member
    simpa using kept
  · intro texts
    have none : ∀ msg ∈ items, (!blank sodium state.identity msg) = true := by
      intro msg member
      rw [texts msg member]
      rfl
    rw [List.takeWhile_eq_self_iff.mpr none] at drained
    rw [List.dropWhile_eq_nil_iff.mpr none] at left
    exact ⟨final, drained, left⟩

/-- In every state that the public functions bring about: the answer of one
poll is right exactly when the oldest message is not blank, and a client
that polls until there is no message, with room for all of them, has been
answered for every one exactly when none is blank. -/
theorem zero_length_means_empty_iff {state : GState}
    (reached : Reachable (ffiSystem sodium) state) (up : state.initialized = true) :
    ∃ items, Queued state items ∧
      (∀ bufLen, ZeroMeansEmpty sodium state bufLen ↔
        ∀ msg, items.head? = some msg → blank sodium state.identity msg = false) ∧
      ∀ bufLen fuel,
        (∀ msg ∈ items, msg.payload.length ≤ bufLen + (bcNonceSize + bcTagSize)) →
        items.length < fuel →
        (DrainsAll sodium state items bufLen fuel ↔
          ∀ msg ∈ items, blank sodium state.identity msg = false) := by
  obtain ⟨items, queued⟩ := (wired_of_reachable sodium reached).inbox
  refine ⟨items, queued, fun bufLen => zero_means_empty_iff sodium bufLen up queued, ?_⟩
  intro bufLen fuel room enough
  exact drains_all_iff sodium up queued room enough

end Drain

theorem letter_node_drained :
    DrainsAll plainSodium letterNode [{ letter with ttl := 8 }] 4096 2 := by
  obtain ⟨items, queued, -, drains⟩ := zero_length_means_empty_iff plainSodium
    letter_node_reachable (by decide +kernel)
  rw [queued.unique letter_node_queued] at drains
  have room : ∀ msg ∈ [{ letter with ttl := 8 }],
      msg.payload.length ≤ 4096 + (bcNonceSize + bcTagSize) := by
    intro msg member
    rw [List.mem_singleton.mp member]
    decide
  refine (drains 4096 2 room (by decide)).mpr fun msg member => ?_
  rw [List.mem_singleton.mp member]
  decide +kernel

/-- A message of two bytes that anyone can send: the node answers that it has
none and takes it away. -/
theorem short_message_hides :
    Reachable (ffiSystem plainSodium) notifiedNode ∧ notifiedNode.initialized = true ∧
      ¬ ZeroMeansEmpty plainSodium notifiedNode 4096 := by
  refine ⟨.next arrivalTick (loaded_node_reachable 2) rfl, by decide +kernel, fun means => ?_⟩
  have none : tellsNone (bitchatPollMessages plainSodium notifiedNode 4096).1 = true := by
    decide +kernel
  have meet := (RingBuffer.Represents.empty_iff (means.mp none)).mpr rfl
  revert meet
  decide +kernel

/-! ### The key a poll decrypts with -/

section Keys

variable (sodium : Sodium)

def KeyPair (id : BcIdentity) : Prop := id.pubkey = sodium.publicKey id.secretKey

/-- The owner of the sender key has encrypted `plaintext` for the receiver key
of the message. -/
def EncryptedFor (msg : BcMessage) (plaintext : List UInt8) : Prop :=
  ∃ secret key nonce ciphertext, msg.senderPubkey = sodium.publicKey secret ∧
    sodium.boxBeforenm msg.receiverPubkey secret = some key ∧
    sodium.aeadEncrypt key nonce plaintext = some ciphertext ∧
    msg.payload = nonce.toList ++ ciphertext

/-- Every queued message is for the identity in place, whose secret is the one
the message was encrypted for; the poll that takes it, after the polls for
those before it, returns its text. -/
structure MatchesIdentity (state : GState) : Prop where
  receiver : QueuedForIdentity state
  secret : ∀ items, Queued state items → ∀ msg ∈ items,
    sodium.publicKey state.identity.secretKey = msg.receiverPubkey
  decrypts : ∀ before msg rest, Queued state (before ++ msg :: rest) →
    ∀ plaintext, EncryptedFor sodium msg plaintext →
    ∀ polls : List Nat, polls.length = before.length → ∀ bufLen, plaintext.length ≤ bufLen →
      (bitchatPollMessages sodium (pollAll sodium state polls) bufLen).1 =
        ⟨.ok, plaintext.length, some msg.senderPubkey, plaintext⟩

/-- The condition on a call: an identity that it installs is a key pair, and
has the public key in place unless the inbox is empty. -/
def KeepsIdentity (state : GState) (call : FfiCall) : Prop :=
  KeepsReceiver state call ∧
    (state.initialized = true → (Move.ffi call).Installs (KeyPair sodium))

variable {sodium}

theorem key_pair_of_queued {state : GState} {items : List BcMessage} {msg : BcMessage}
    (armed : Armed (KeyPair sodium) state) (queued : Queued state items) (member : msg ∈ items) :
    KeyPair sodium state.identity := by
  rcases armed with pair | ⟨-, empty⟩
  · exact pair
  · rw [(RingBuffer.Represents.empty_iff queued).mp empty] at member
    exact absurd member List.not_mem_nil

theorem up_of_queued {state : GState} {items : List BcMessage} {msg : BcMessage}
    (reached : Reachable (ffiSystem sodium) state) (queued : Queued state items)
    (member : msg ∈ items) : state.initialized = true := by
  by_contra down
  have empty := (grounded_of_reachable sodium reached).inbox (Bool.not_eq_true _ ▸ down)
  rw [(RingBuffer.Represents.empty_iff queued).mp empty.symm] at member
  exact absurd member List.not_mem_nil

theorem poll_slot_encrypted (laws : SodiumLaws sodium) {identity : BcIdentity} {msg : BcMessage}
    {plaintext : List UInt8} {bufLen : Nat}
    (secret : sodium.publicKey identity.secretKey = msg.receiverPubkey)
    (encryptedFor : EncryptedFor sodium msg plaintext) (room : plaintext.length ≤ bufLen) :
    pollSlot sodium identity (some msg) bufLen =
      ⟨.ok, plaintext.length, some msg.senderPubkey, plaintext⟩ := by
  obtain ⟨sender, key, nonce, ciphertext, isSender, derived, encrypted, payload⟩ := encryptedFor
  have agreed : sodium.boxBeforenm msg.senderPubkey identity.secretKey = some key := by
    rw [isSender, laws.symmetric, secret]
    exact derived
  exact poll_slot_sealed laws agreed encrypted payload room

/-- In every run that installs key pairs, and another public key only while
the inbox is empty, a poll decrypts with the secret key its message was
encrypted for. -/
theorem matches_identity_of_kept (laws : SodiumLaws sodium) {state : GState}
    (reached : Reachable (guarded (ffiSystem sodium) (KeepsIdentity sodium)) state) :
    MatchesIdentity sodium state := by
  have receiver : QueuedForIdentity state := by
    apply queued_for_identity_of_kept sodium
    apply reached.weaken
    · exact fun _ created => created
    · exact fun _ _ _ step => ⟨step.1, step.2.1⟩
  have armed : Armed (KeyPair sodium) state := by
    apply reached.invariant (Armed (KeyPair sodium))
    · rintro _ rfl
      exact .inr ⟨rfl, rfl⟩
    · rintro before call _ inv ⟨rfl, -, installs⟩
      exact armed_effect inv installs (run_effect sodium before call)
  have secret : ∀ items, Queued state items → ∀ msg ∈ items,
      sodium.publicKey state.identity.secretKey = msg.receiverPubkey := by
    intro items queued msg member
    rw [receiver items queued msg member]
    exact (key_pair_of_queued armed queued member).symm
  refine ⟨receiver, secret, ?_⟩
  intro before msg rest queued plaintext encryptedFor polls count bufLen room
  have member : msg ∈ before ++ msg :: rest :=
    List.mem_append_right before List.mem_cons_self
  have plain : Reachable (ffiSystem sodium) state := by
    apply reached.weaken
    · exact fun _ created => created
    · exact fun _ _ _ step => step.1
  have up := up_of_queued plain queued member
  obtain ⟨front, core⟩ := poll_all_queued sodium polls state before (msg :: rest) up queued count
  rw [(poll_queued sodium bufLen (core.initialized.trans up) front).1, core.identity]
  exact poll_slot_encrypted laws (secret _ queued msg member) encryptedFor room

end Keys

def reloadedNode : GState :=
  (FfiCall.loadIdentity (bcIdentitySerialize (plainIdentity 2)) ⟨allocates, true⟩).run plainSodium
    letterNode

theorem plain_identity_key_pair {tag : UInt8} {id : BcIdentity}
    (parsed : bcIdentityDeserialize (bcIdentitySerialize (plainIdentity tag)) = some id) :
    id = plainIdentity tag ∧ KeyPair plainSodium id := by
  rw [identity_round_trip] at parsed
  rw [← Option.some.inj parsed]
  exact ⟨rfl, rfl⟩

theorem letter_encrypted_for : EncryptedFor plainSodium { letter with ttl := 8 } [104, 105] :=
  ⟨List.Vector.replicate 32 1, List.Vector.replicate 32 3, List.Vector.replicate 24 0,
    [104, 105] ++ List.replicate 16 3, rfl, by decide, by decide, by decide⟩

/-- The poll after the second load returns the text. -/
theorem reloaded_node_decrypts :
    (bitchatPollMessages plainSodium reloadedNode 4096).1 =
      ⟨.ok, 2, some letter.senderPubkey, [104, 105]⟩ := by
  have started : Reachable (guarded (ffiSystem plainSodium) (KeepsIdentity plainSodium))
      (runCalls plainSodium zeroedState ((setupCalls 2).take 1)) :=
    .next (.init ⟨true, true, some KeyedTable.empty, some ⟨true, true, true⟩⟩) (.start rfl)
      ⟨rfl, trivial, fun _ => trivial⟩
  have loaded : Reachable (guarded (ffiSystem plainSodium) (KeepsIdentity plainSodium))
      (loadedNode 2) :=
    .next (.loadIdentity (bcIdentitySerialize (plainIdentity 2)) ⟨allocates, true⟩) started
      ⟨rfl, fun _ _ _ => .inr rfl, fun _ _ parsed => (plain_identity_key_pair parsed).2⟩
  have notified : Reachable (guarded (ffiSystem plainSodium) (KeepsIdentity plainSodium))
      letterNode :=
    .next letterTick loaded ⟨rfl, trivial, fun _ => trivial⟩
  have reloaded : Reachable (guarded (ffiSystem plainSodium) (KeepsIdentity plainSodium))
      reloadedNode := by
    apply Reachable.next
      (.loadIdentity (bcIdentitySerialize (plainIdentity 2)) ⟨allocates, true⟩) notified
    refine ⟨rfl, ?_, fun _ _ parsed => (plain_identity_key_pair parsed).2⟩
    intro _ id parsed
    rw [(plain_identity_key_pair parsed).1]
    exact .inl (by decide +kernel)
  have queued : Queued reloadedNode ([] ++ [{ letter with ttl := 8 }]) := by
    refine ⟨by decide +kernel, by decide, by decide +kernel, ?_⟩
    intro i inside
    rw [Nat.lt_one_iff.mp inside]
    decide +kernel
  have keyed := matches_identity_of_kept plain_sodium_laws reloaded
  exact keyed.decrypts [] _ [] queued _ letter_encrypted_for [] rfl 4096 (by decide)

def renamedNode : GState :=
  (FfiCall.loadIdentity (bcIdentitySerialize (plainIdentity 3)) ⟨allocates, true⟩).run plainSodium
    letterNode

/-- The letter for the old identity waits for the new one, whose secret does
not open it. -/
theorem renamed_node_cannot_decrypt :
    Reachable (ffiSystem plainSodium) renamedNode ∧ ¬ MatchesIdentity plainSodium renamedNode ∧
      (bitchatPollMessages plainSodium renamedNode 4096).1.rc = .crypto := by
  refine ⟨.next _ letter_node_reachable rfl, ?_, by decide +kernel⟩
  intro keyed
  have queued : Queued renamedNode [{ letter with ttl := 8 }] := by
    refine ⟨by decide +kernel, by decide, by decide +kernel, ?_⟩
    intro i inside
    rw [Nat.lt_one_iff.mp inside]
    decide +kernel
  have receiver := keyed.receiver _ queued _ List.mem_cons_self
  revert receiver
  decide +kernel

end BitChat.Polling
