import BitChat.CliSession
import BitChat.EndToEnd
import BitChat.UdpMesh

/-!
# From one terminal to another

The callback of `cli/main.c` decrypts a message and prints it as a string of
C. With the command line in front, the encryption, the router, the sockets
and the callback behind, a text that is typed at one process is printed at
the process whose key was given with it, once and exactly.
-/

namespace BitChat.CliDelivery

open BitChat.WireMessage BitChat.CryptoManager BitChat.DedupTable BitChat.PendingStorage
open BitChat.MeshRouter BitChat.MeshNetwork BitChat.Provenance BitChat.FfiCore
open BitChat.CommandLine BitChat.CliSession BitChat.FloodRefinement BitChat.FloodCoverage
open BitChat.UdpMesh TransitionSystem Flooding

set_option autoImplicit false

/-- What the callback prints: the two lines of a message, or the warning. -/
inductive CliOutput where
  | message (sender text : List UInt8)
  | decryptionFailed (rc : Rc)
deriving DecidableEq

/-- `printf` with `%s` stops at a zero byte. -/
def printed (buffer : List UInt8) : List UInt8 := buffer.takeWhile fun c => c ≠ 0

section Callback

variable (sodium : Sodium)

/-- `on_message_received` of the client. An empty payload is a null pointer;
`alloc` tells whether the plaintext buffer is allocated. -/
def onMessageReceived (identity : BcIdentity) (alloc : Bool) (msg : BcMessage) : List CliOutput :=
  if msg.payload.length < bcNonceSize + bcTagSize then []
  else
    match bcCryptoDeriveShared sodium identity.secretKey msg.senderPubkey with
    | .error _ => []
    | .ok sharedKey =>
        if alloc = false then []
        else
          match openWith sodium sharedKey msg.payload with
          | .ok plaintext =>
              [.message (printed (bytesToHex msg.senderPubkey.toList)) (printed (plaintext ++ [0]))]
          | .error rc => [.decryptionFailed rc]

variable {sodium}

theorem sealed_message_printed (laws : SodiumLaws sodium) {identity : BcIdentity}
    {msg : BcMessage} {key : SharedKey} {nonce : Nonce} {text ciphertext : List UInt8}
    (derived : sodium.boxBeforenm msg.senderPubkey identity.secretKey = some key)
    (encrypted : sodium.aeadEncrypt key nonce text = some ciphertext)
    (payload : msg.payload = nonce.toList ++ ciphertext) (nonzero : ∀ c ∈ text, c ≠ 0) :
    onMessageReceived sodium identity true msg =
      [.message (msg.senderPubkey.toList.flatMap hexPair) text] := by
  obtain ⟨long, opened⟩ := EndToEnd.open_of_sealed laws encrypted payload
  have hex : printed (bytesToHex msg.senderPubkey.toList) =
      msg.senderPubkey.toList.flatMap hexPair := by
    rw [printed, bytesToHex,
      List.takeWhile_append_of_pos (by simpa using hex_pairs_nonzero msg.senderPubkey.toList)]
    simp
  have whole : printed (text ++ [0]) = text := by
    rw [printed, List.takeWhile_append_of_pos (by simpa using nonzero)]
    simp
  simp only [onMessageReceived, if_neg long, bcCryptoDeriveShared, derived, opened, hex, whole,
    Bool.true_eq_false, if_false]

end Callback

section Delivery

variable {sodium : Sodium} {identity : BcIdentity} {node : Node PendingMessages} {env : SendEnv}
  {message : BcMessage}

structure MessageOf (sodium : Sodium) (identity : BcIdentity) (nonce : Nonce) (text : List UInt8)
    (message : BcMessage) : Prop where
  sender : message.senderPubkey = identity.pubkey
  ttl : message.ttl = bcDefaultTtl
  payload : ∃ key ciphertext,
    sodium.boxBeforenm message.receiverPubkey identity.secretKey = some key ∧
    sodium.aeadEncrypt key nonce text = some ciphertext ∧
    message.payload = nonce.toList ++ ciphertext

theorem cmd_send_message {recipient : Pubkey} {text : List UInt8}
    (sent : (cmdSend sodium identity node env recipient text).broadcast = some message) :
    message.receiverPubkey = recipient ∧ MessageOf sodium identity env.nonce text message := by
  unfold cmdSend at sent
  cases derived : sodium.boxBeforenm recipient identity.secretKey with
  | none =>
      simp only [bcCryptoDeriveShared, derived] at sent
      cases sent
  | some key =>
      simp only [bcCryptoDeriveShared, derived] at sent
      cases encrypted : sodium.aeadEncrypt key env.nonce text with
      | none =>
          simp only [bcCryptoEncrypt, encrypted] at sent
          split_ifs at sent
      | some ciphertext =>
          simp only [bcCryptoEncrypt, encrypted, bcMessageCreate] at sent
          split_ifs at sent
          cases sent
          exact ⟨rfl, rfl, rfl, key, ciphertext, derived, encrypted, rfl⟩

theorem cmd_msg_message {args : CString} {key text : List UInt8}
    (form : Documented args key text)
    (sent : (cmdMsg sodium identity node env (some args)).broadcast = some message) :
    bytesToHex message.receiverPubkey.toList = key.map lowerChar ++ [0] ∧
      MessageOf sodium identity env.nonce text message := by
  obtain ⟨keyChars, textChars⟩ := form.parts
  have passes := form.passes
  have size : (keyString args).chars.length = 32 * 2 :=
    List.length_take_of_le (Nat.le_trans (by decide) passes.length)
  obtain ⟨out, read, length, written⟩ := hex_to_bytes_digits size passes.digits
  have recipient : (⟨out, fun _ => 0⟩ : Memory).fixed 0 32 = ⟨out, length⟩ :=
    fixed_field [] [] ⟨out, length⟩ (by simp) rfl
  rw [cmd_msg_eq, if_neg (Nat.not_lt.mpr passes.length), read] at sent
  simp only [recipient, textChars, if_neg form.text.1] at sent
  obtain ⟨receiver, isMessage⟩ := cmd_send_message sent
  refine ⟨?_, isMessage⟩
  rw [receiver, ← keyChars]
  exact written

variable {Place : Type} [DecidableEq Place] [Fintype Place] {wiring : Wiring Place}
  {configs : Place → Option BcRouterConfig} {people : Place → BcIdentity} {origin reader : Place}
  {start : UInt64} {state : UdpState Place}

def printedFor (sodium : Sodium) (people : Place → BcIdentity) (state : UdpState Place)
    (place : Place) (uuid : Uuid) : List CliOutput :=
  (deliveriesOf state.run.mesh place uuid).flatMap fun delivery =>
    onMessageReceived sodium (people place) true delivery.msg

/-- A text that is typed at one process is printed at another: of up to eleven
processes, and once the sockets are drained, the one whose key was given
prints the sender's key and the text exactly once, if it is connected to the
sender over the configured ports and the text fits into a datagram. -/
theorem typed_text_printed (laws : SodiumLaws sodium)
    (senderKey : (people origin).pubkey = sodium.publicKey (people origin).secretKey)
    (readerKey : (people reader).pubkey = sodium.publicKey (people reader).secretKey)
    {args : CString} {key text : List UInt8} (form : Documented args key text)
    (addressed : bytesToHex (people reader).pubkey.toList = key.map lowerChar ++ [0])
    (short : text.length ≤ 3963)
    (typed : (cmdMsg sodium (people origin) node env (some args)).broadcast = some message)
    (few : Fintype.card Place ≤ 11) (other : reader ≠ origin)
    (reached : Reachable (guarded (udpSystem wiring configs fun place => (people place).pubkey)
      (Runs wiring (fun place => (people place).pubkey) origin message start)) state)
    (sent : ∃ entry ∈ state.run.mesh.broadcasts, entry.2.uuid = message.uuid)
    (drained : ∀ receiver sender, ¬ Waits (state.socket receiver) sender message.uuid)
    (connected : Connected origin (Addressee (fun place => (people place).pubkey) message)
      wiring.InRange reader) :
    printedFor sodium people state reader message.uuid =
      [.message ((people origin).pubkey.toList.flatMap hexPair) text] := by
  obtain ⟨receiverHex, isMessage⟩ := cmd_msg_message form typed
  have receiver : message.receiverPubkey = (people reader).pubkey :=
    List.Vector.toList_injective
      (bytes_to_hex_injective (by simp) (receiverHex.trans addressed.symm))
  obtain ⟨sharedKey, ciphertext, derived, encrypted, payload⟩ := isMessage.payload
  have size := laws.encrypt_length _ _ _ _ encrypted
  have fits : bcMessageHeaderSize + message.payload.length ≤ 4096 := by
    rw [payload, List.length_append, List.Vector.toList_length, size]
    simp only [bcMessageHeaderSize, bcTagSize]
    omega
  have small : Fintype.card Place ≤ message.ttl.toNat + 1 := by
    rw [isMessage.ttl]
    exact few
  obtain ⟨flood, inv, tracks, flowing⟩ := udp_refines_flood fits reached
  obtain ⟨delivery, only, content⟩ :=
    (covered_of_tracks inv tracks sent small (quiet_of_drained flowing drained) connected).2 other
      receiver.symm
  -- Both ends derive the same key.
  have agreed : sodium.boxBeforenm delivery.msg.senderPubkey (people reader).secretKey =
      some sharedKey := by
    rw [content.sender, isMessage.sender, senderKey, laws.symmetric, ← readerKey, ← receiver]
    exact derived
  have nonzero : ∀ c ∈ text, c ≠ 0 := by
    intro c member
    rw [← form.parts.2] at member
    exact args.nonzero c (List.mem_of_mem_drop ((List.dropWhile_sublist _).subset member))
  have shown := sealed_message_printed laws agreed encrypted (content.payload.trans payload) nonzero
  rw [printedFor, only, List.flatMap_singleton, shown, content.sender, isMessage.sender]

end Delivery

section Witness

def pairPeople (place : Bool) : BcIdentity := ⟨pairKeys place, pairKeys place⟩

def hiArgs : CString where
  chars := (pairKeys true).toList.flatMap hexPair ++ [0x20] ++ [0x68, 0x69]
  nonzero := by
    intro c member
    rw [List.append_assoc] at member
    rcases List.mem_append.mp member with inKey | inText
    · exact hex_pairs_nonzero _ c inKey
    · have others : ∀ other ∈ [0x20] ++ [0x68, 0x69], other ≠ (0 : UInt8) := by simp
      exact others c inText
  fits := by decide

theorem hi_args_documented :
    Documented hiArgs ((pairKeys true).toList.flatMap hexPair) [0x68, 0x69] where
  split := ⟨[0x20], rfl, by decide, by simp⟩
  digits := by
    refine ⟨by decide, ?_⟩
    intro c member
    obtain ⟨byte, -, inPair⟩ := List.mem_flatMap.mp member
    obtain ⟨high, low, pair, highDigit, lowDigit, -⟩ := hex_pair_digits byte
    rw [pair] at inPair
    rcases List.mem_pair.mp inPair with rfl | rfl
    · exact highDigit
    · exact lowDigit
  text := by decide

def hiMessage : BcMessage where
  uuid := List.Vector.replicate 16 1
  ttl := 10
  senderPubkey := pairKeys false
  receiverPubkey := pairKeys true
  timestamp := 0
  payload := List.replicate 24 0 ++ ([0x68, 0x69] ++ List.replicate 16 3)

theorem hi_typed :
    (cmdMsg plainSodium (pairPeople false) (pairKnows.run.mesh.node false) cliEnv
      (some hiArgs)).broadcast = some hiMessage := by
  decide +kernel

theorem hi_pair_delivers : PairDelivers hiMessage where
  sent := by decide +kernel
  accepted := by decide +kernel
  waiting := by decide +kernel
  whole := by decide +kernel
  delivered := by decide +kernel
  drained := by decide +kernel

theorem hi_printed :
    printedFor plainSodium pairPeople (pairReads hiMessage) true hiMessage.uuid =
      [.message ((pairKeys false).toList.flatMap hexPair) [0x68, 0x69]] := by
  have connected : Connected false (Addressee (fun place => (pairPeople place).pubkey) hiMessage)
      pairWiring.InRange true := .single ⟨List.mem_singleton_self _, .inl rfl⟩
  exact typed_text_printed plain_sodium_laws rfl rfl hi_args_documented (by decide) (by decide)
    hi_typed (by decide) (by decide) (pair_reads_reachable hi_pair_delivers)
    ⟨(false, hiMessage), List.mem_singleton_self _, rfl⟩ (pair_drained hi_pair_delivers) connected

end Witness

end BitChat.CliDelivery
