import BitChat.FfiCore
import BitChat.PubKeyHex
import Mathlib.Data.List.TakeWhile

/-!
# The command line

Transcription of the hexadecimal codec and of `/msg` in `cli/main.c`; the
decoder itself is in `PubKeyHex`. The codec is exact in both directions.
`cmd_msg` takes the key by its length and skips the spaces after it, of which
there may be none: every text that follows the key at once is accepted, too.
A key keeps its value on the way from one program to the other.
-/

namespace BitChat.CommandLine

open BitChat.WireMessage BitChat.CryptoManager BitChat.MeshRouter BitChat.FfiCore
open BitChat.PubKeyHex

set_option autoImplicit false

/-- A string of C without its terminator, of a length that `strlen` can
return. -/
structure CString where
  chars : List UInt8
  nonzero : ∀ c ∈ chars, c ≠ 0
  fits : chars.length < 2 ^ 64

def CString.buffer (s : CString) : List UInt8 := s.chars ++ [0]

/-! ### The hexadecimal codec -/

/-- The table "0123456789abcdef". -/
def hexChars : List UInt8 :=
  [0x30, 0x31, 0x32, 0x33, 0x34, 0x35, 0x36, 0x37, 0x38, 0x39, 0x61, 0x62, 0x63, 0x64, 0x65, 0x66]

def hexPair (byte : UInt8) : List UInt8 :=
  [hexChars.getD ((byte >>> 4) &&& 0x0F).toNat 0, hexChars.getD (byte &&& 0x0F).toNat 0]

/-- What `bytes_to_hex` writes, with the terminator. -/
def bytesToHex (data : List UInt8) : List UInt8 := data.flatMap hexPair ++ [0]

/-- `hex_to_bytes` with its length test in `size_t`. The loop runs into the
terminator where the string is too short for it. -/
def hexToBytesSized (hex : List UInt8) (outLen : UInt64) : Option (List UInt8) :=
  let text := hex.takeWhile fun byte => byte ≠ 0
  if UInt64.ofNat text.length ≠ outLen * 2 then none else hexLoop text outLen.toNat

def lowerChar (c : UInt8) : UInt8 := if 0x41 ≤ c && c ≤ 0x5A then c + 0x20 else c

theorem byte_forall {P : UInt8 → Prop} (each : ∀ n < 256, P (UInt8.ofNat n)) (byte : UInt8) :
    P byte := by
  have result := each byte.toNat byte.toNat_lt
  rwa [UInt8.ofNat_toNat] at result

theorem hex_pair_digits (byte : UInt8) :
    ∃ high low, hexPair byte = [high, low] ∧ isHexChar high = true ∧ isHexChar low = true ∧
      high ≠ 0 ∧ low ≠ 0 ∧ UInt8.ofNat (16 * hexCharValue high + hexCharValue low) = byte := by
  refine ⟨_, _, rfl, ?_⟩
  revert byte
  apply byte_forall
  decide +kernel

theorem hex_pair_of_digits {a b : UInt8} (first : isHexChar a = true) (second : isHexChar b = true) :
    hexPair (UInt8.ofNat (16 * hexCharValue a + hexCharValue b)) = [lowerChar a, lowerChar b] := by
  have digit : ∀ c, isHexChar c = true →
      hexCharValue c < 16 ∧ hexChars.getD (hexCharValue c) 0 = lowerChar c := by
    apply byte_forall
    decide +kernel
  have halves : ∀ high < 16, ∀ low < 16,
      hexPair (UInt8.ofNat (16 * high + low)) = [hexChars.getD high 0, hexChars.getD low 0] := by
    decide +kernel
  obtain ⟨smallA, lowerA⟩ := digit a first
  obtain ⟨smallB, lowerB⟩ := digit b second
  rw [halves _ smallA _ smallB, lowerA, lowerB]

theorem buffer_text (s : CString) : (s.buffer.takeWhile fun byte => byte ≠ 0) = s.chars := by
  rw [CString.buffer, List.takeWhile_append_of_pos (by simpa using s.nonzero)]
  simp

theorem hex_to_bytes_buffer (s : CString) (n : Nat) :
    hexToBytes s.buffer n = if s.chars.length ≠ n * 2 then none else hexLoop s.chars n := by
  rw [hexToBytes, buffer_text]

theorem hex_pairs_length (data : List UInt8) : (data.flatMap hexPair).length = data.length * 2 := by
  induction data with
  | nil => rfl
  | cons byte rest ih =>
      rw [List.flatMap_cons, List.length_append, ih, List.length_cons]
      simp only [hexPair, List.length_cons, List.length_nil]
      omega

theorem hex_pairs_nonzero (data : List UInt8) : ∀ c ∈ data.flatMap hexPair, c ≠ 0 := by
  intro c member
  obtain ⟨byte, -, inPair⟩ := List.mem_flatMap.mp member
  obtain ⟨high, low, pair, -, -, highNonzero, lowNonzero, -⟩ := hex_pair_digits byte
  rw [pair] at inPair
  rcases List.mem_cons.mp inPair with isHigh | isLow
  · rw [isHigh]
    exact highNonzero
  · rw [List.mem_singleton.mp isLow]
    exact lowNonzero

theorem hex_loop_pairs (data : List UInt8) :
    hexLoop (data.flatMap hexPair) data.length = some data := by
  induction data with
  | nil => rfl
  | cons byte rest ih =>
      obtain ⟨high, low, pair, highHex, lowHex, -, -, value⟩ := hex_pair_digits byte
      rw [List.flatMap_cons, pair, List.length_cons, List.cons_append, List.cons_append,
        List.nil_append, hexLoop, highHex, lowHex, ih, value]
      rfl

theorem hex_to_bytes_of_hex (data : List UInt8) :
    hexToBytes (bytesToHex data) data.length = some data := by
  have text : ((bytesToHex data).takeWhile fun byte => byte ≠ 0) = data.flatMap hexPair := by
    rw [bytesToHex, List.takeWhile_append_of_pos (by simpa using hex_pairs_nonzero data)]
    simp
  rw [hexToBytes, text, if_neg (not_not.mpr (hex_pairs_length data)), hex_loop_pairs]

theorem hex_loop_digits (chars : List UInt8) (count : Nat) :
    chars.length = count * 2 → (∀ c ∈ chars, isHexChar c = true) →
      ∃ out, hexLoop chars count = some out ∧ out.length = count ∧
        out.flatMap hexPair = chars.map lowerChar := by
  induction chars, count using hexLoop.induct with
  | case1 chars =>
      intro size _
      rw [List.eq_nil_of_length_eq_zero (size.trans (Nat.zero_mul 2))]
      exact ⟨[], rfl, rfl, rfl⟩
  | case2 a b rest count valid ih =>
      intro size hex
      have left : rest.length = count * 2 := by
        simp only [List.length_cons] at size
        omega
      obtain ⟨firstHex, others⟩ := List.forall_mem_cons.mp hex
      obtain ⟨secondHex, later⟩ := List.forall_mem_cons.mp others
      obtain ⟨out, read, length, written⟩ := ih left later
      refine ⟨UInt8.ofNat (16 * hexCharValue a + hexCharValue b) :: out, ?_, ?_, ?_⟩
      · rw [hexLoop, if_pos valid, read]
        rfl
      · rw [List.length_cons, length]
      · rw [List.flatMap_cons, hex_pair_of_digits firstHex secondHex, written]
        rfl
  | case3 a b rest count invalid =>
      intro _ hex
      obtain ⟨firstHex, others⟩ := List.forall_mem_cons.mp hex
      have secondHex := others b List.mem_cons_self
      exact absurd (by rw [firstHex, secondHex]; rfl) invalid
  | case4 chars count short =>
      intro size _
      exfalso
      rcases chars with _ | ⟨a, _ | ⟨b, rest⟩⟩
      · simp only [List.length_nil] at size
        omega
      · simp only [List.length_cons, List.length_nil] at size
        omega
      · exact short a b rest rfl

theorem hex_loop_short (chars : List UInt8) (count : Nat) :
    chars.length < count * 2 → hexLoop chars count = none := by
  induction chars, count using hexLoop.induct with
  | case1 chars => exact fun short => absurd short (Nat.not_lt_zero _)
  | case2 a b rest count valid ih =>
      intro short
      simp only [List.length_cons] at short
      rw [hexLoop, if_pos valid, ih (by omega)]
      rfl
  | case3 a b rest count invalid =>
      intro _
      rw [hexLoop, if_neg invalid]
  | case4 chars count short =>
      intro _
      rcases chars with _ | ⟨a, _ | ⟨b, rest⟩⟩
      · rfl
      · rfl
      · exact absurd rfl (short a b rest)

/-- The length test may wrap, but then the loop runs out of characters. -/
theorem hex_to_bytes_sized (s : CString) (n : UInt64) :
    hexToBytesSized s.buffer n = hexToBytes s.buffer n.toNat := by
  have size := s.fits
  have bound := n.toNat_lt
  have compared : UInt64.ofNat s.chars.length = n * 2 ↔
      s.chars.length = n.toNat * 2 % 2 ^ 64 := by
    rw [← UInt64.toNat_inj, UInt64.toNat_ofNat_of_lt' size, UInt64.toNat_mul]
    rfl
  rw [hexToBytesSized, buffer_text, hex_to_bytes_buffer]
  simp only [ne_eq, compared]
  by_cases wraps : n.toNat * 2 < 2 ^ 64
  · rw [Nat.mod_eq_of_lt wraps]
  · rw [if_pos (show ¬ s.chars.length = n.toNat * 2 by omega)]
    split_ifs with same
    · exact hex_loop_short _ _ (by omega)
    · rfl

theorem hex_to_bytes_digits {s : CString} {n : Nat} (size : s.chars.length = n * 2)
    (hex : ∀ c ∈ s.chars, isHexChar c = true) :
    ∃ out, hexToBytes s.buffer n = some out ∧ out.length = n ∧
      bytesToHex out = s.chars.map lowerChar ++ [0] := by
  obtain ⟨out, read, length, written⟩ := hex_loop_digits s.chars n size hex
  refine ⟨out, ?_, length, by rw [bytesToHex, written]⟩
  rw [hex_to_bytes_buffer, if_neg (not_not.mpr size), read]

theorem hex_to_bytes_some {s : CString} {n : Nat} {out : List UInt8}
    (read : hexToBytes s.buffer n = some out) :
    s.chars.length = n * 2 ∧ ∀ c ∈ s.chars, isHexChar c = true := by
  rw [hex_to_bytes_buffer] at read
  split_ifs at read with size
  exact ⟨not_not.mp size, hex_loop_chars s.chars n (not_not.mp size) read⟩

/-- The codec in both directions: decoding inverts encoding; a string is
decoded exactly when it consists of two digits a byte, and encoding the result
gives it back in lower case. The length test in `size_t` changes nothing. -/
theorem hex_codec :
    (∀ data : List UInt8, hexToBytes (bytesToHex data) data.length = some data) ∧
      ∀ s : CString,
        (∀ n : Nat, ((hexToBytes s.buffer n).isSome = true ↔
            s.chars.length = 2 * n ∧ ∀ c ∈ s.chars, isHexChar c = true) ∧
          ∀ out, hexToBytes s.buffer n = some out →
            out.length = n ∧ bytesToHex out = s.chars.map lowerChar ++ [0]) ∧
        ∀ n : UInt64, hexToBytesSized s.buffer n = hexToBytes s.buffer n.toNat := by
  refine ⟨hex_to_bytes_of_hex, fun s => ⟨fun n => ?_, hex_to_bytes_sized s⟩⟩
  rw [Nat.mul_comm 2 n]
  constructor
  · constructor
    · intro accepted
      obtain ⟨out, read⟩ := Option.isSome_iff_exists.mp accepted
      exact hex_to_bytes_some read
    · rintro ⟨size, hex⟩
      obtain ⟨out, read, -⟩ := hex_to_bytes_digits size hex
      rw [read]
      rfl
  · intro out read
    obtain ⟨size, hex⟩ := hex_to_bytes_some read
    obtain ⟨other, again, rest⟩ := hex_to_bytes_digits size hex
    rw [read] at again
    rw [Option.some.inj again]
    exact rest

/-! ### The command to send a message -/

inductive Reply where
  | usage
  | invalidKey
  | emptyText
  | deriveFailed (rc : Rc)
  | outOfMemory
  | encryptionFailed (rc : Rc)
  | createFailed
  | sent
  | broadcastFailed (rc : Rc)
deriving DecidableEq

section Command

variable {Store : Type}

/-- The line printed, the message handed to `bc_router_broadcast` if any, and
the node with the effects of the broadcast. -/
structure CmdOutcome (Store : Type) where
  reply : Reply
  broadcast : Option BcMessage
  node : Node Store
  events : List Event

/-- `cmd_msg` after the key and the text are found. What it learns from the
outside is what `bitchat_send_message` learns. -/
def cmdSend (sodium : Sodium) (identity : BcIdentity) (node : Node Store) (env : SendEnv)
    (recipient : Pubkey) (text : List UInt8) : CmdOutcome Store :=
  match bcCryptoDeriveShared sodium identity.secretKey recipient with
  | .error rc => ⟨.deriveFailed rc, none, node, []⟩
  | .ok sharedKey =>
      if env.alloc 0 = false then ⟨.outOfMemory, none, node, []⟩
      else
        match bcCryptoEncrypt sodium text sharedKey env.nonce with
        | .error rc => ⟨.encryptionFailed rc, none, node, []⟩
        | .ok ciphertext =>
            match bcMessageCreate (fun k => env.alloc (k + 1)) env.uuid env.created
                identity.pubkey recipient (env.nonce.toList ++ ciphertext) with
            | none => ⟨.createFailed, none, node, []⟩
            | some msg =>
                let result := bcRouterBroadcast node env.call msg
                { reply := if result.rc = .ok then .sent else .broadcastFailed result.rc
                  broadcast := some msg
                  node := result.node
                  events := result.events }

/-- The first 64 characters are the key and what follows the spaces after it
is the text. `none` is the null pointer. -/
def cmdMsg (sodium : Sodium) (identity : BcIdentity) (node : Node Store) (env : SendEnv)
    (args : Option CString) : CmdOutcome Store :=
  match args with
  | none => ⟨.usage, none, node, []⟩
  | some args =>
      if args.chars.length < 32 * 2 + 2 then ⟨.usage, none, node, []⟩
      else
        match hexToBytes (args.chars.take (32 * 2) ++ [0]) 32 with
        | none => ⟨.invalidKey, none, node, []⟩
        | some recipient =>
            let text := (args.chars.drop (32 * 2)).dropWhile fun c => c = 0x20
            if text = [] then ⟨.emptyText, none, node, []⟩
            else
              cmdSend sodium identity node env
                ((⟨recipient, fun _ => 0⟩ : Memory).fixed 0 32) text

/-- The documented form `<hex_pubkey> <message>`: 64 digits, spaces, and a
text that does not start with one. -/
structure Documented (args : CString) (key text : List UInt8) : Prop where
  split : ∃ spaces, args.chars = key ++ spaces ++ text ∧ spaces ≠ [] ∧ ∀ c ∈ spaces, c = 0x20
  digits : key.length = 64 ∧ ∀ c ∈ key, isHexChar c = true
  text : text ≠ [] ∧ text.head? ≠ some 0x20

/-- The key is followed at once by two or more characters of which the first
is not a space. -/
def MissingSeparator (args : CString) : Prop :=
  ∃ key text, args.chars = key ++ text ∧ key.length = 64 ∧ (∀ c ∈ key, isHexChar c = true) ∧
    2 ≤ text.length ∧ text.head? ≠ some 0x20

/-- The command goes on to broadcast exactly on the documented form, and then
to the key that the digits denote, with an encryption of the very text. -/
structure AcceptsDocumented (sodium : Sodium) (identity : BcIdentity) (node : Node Store)
    (env : SendEnv) (args : CString) : Prop where
  accepted : (cmdMsg sodium identity node env (some args)).broadcast.isSome = true ↔
    ∃ key text, Documented args key text
  message : ∀ key text, Documented args key text →
    ∃ msg, (cmdMsg sodium identity node env (some args)).broadcast = some msg ∧
      bytesToHex msg.receiverPubkey.toList = key.map lowerChar ++ [0] ∧
      ∃ sharedKey ciphertext,
        bcCryptoDeriveShared sodium identity.secretKey msg.receiverPubkey = .ok sharedKey ∧
        bcCryptoEncrypt sodium text sharedKey env.nonce = .ok ciphertext ∧
        msg.payload = env.nonce.toList ++ ciphertext

/-- Key derivation and encryption succeed for this recipient and this text,
and so do the allocations. -/
structure Succeeding (sodium : Sodium) (identity : BcIdentity) (env : SendEnv)
    (recipient : Pubkey) (text : List UInt8) : Prop where
  encrypts : ∃ key ciphertext, sodium.boxBeforenm recipient identity.secretKey = some key ∧
    sodium.aeadEncrypt key env.nonce text = some ciphertext
  allocates : ∀ k, env.alloc k = true

def keyString (args : CString) : CString where
  chars := args.chars.take 64
  nonzero := fun c member => args.nonzero c (List.mem_of_mem_take member)
  fits := Nat.lt_of_le_of_lt (List.length_take_le _ _) (by decide)

def textOf (args : CString) : List UInt8 := (args.chars.drop 64).dropWhile fun c => c = 0x20

/-- They succeed for the recipient and the text of the argument, if it has a
recipient at all. -/
def SucceedsFor (sodium : Sodium) (identity : BcIdentity) (env : SendEnv) (args : CString) : Prop :=
  ∀ out, hexToBytes (keyString args).buffer 32 = some out →
    Succeeding sodium identity env ((⟨out, fun _ => 0⟩ : Memory).fixed 0 32) (textOf args)

structure Passes (args : CString) : Prop where
  length : 66 ≤ args.chars.length
  digits : ∀ c ∈ args.chars.take 64, isHexChar c = true
  text : textOf args ≠ []

theorem cmd_msg_eq (sodium : Sodium) (identity : BcIdentity) (node : Node Store) (env : SendEnv)
    (args : CString) :
    cmdMsg sodium identity node env (some args) =
      if args.chars.length < 66 then ⟨.usage, none, node, []⟩
      else
        match hexToBytes (keyString args).buffer 32 with
        | none => ⟨.invalidKey, none, node, []⟩
        | some recipient =>
            if textOf args = [] then ⟨.emptyText, none, node, []⟩
            else
              cmdSend sodium identity node env
                ((⟨recipient, fun _ => 0⟩ : Memory).fixed 0 32) (textOf args) := rfl

variable {sodium : Sodium} {identity : BcIdentity} {env : SendEnv} {args : CString}

theorem cmd_send_broadcasts (node : Node Store) {recipient : Pubkey} {text : List UInt8}
    (success : Succeeding sodium identity env recipient text) :
    ∃ msg, (cmdSend sodium identity node env recipient text).broadcast = some msg ∧
      msg.receiverPubkey = recipient ∧
      ∃ sharedKey ciphertext,
        bcCryptoDeriveShared sodium identity.secretKey recipient = .ok sharedKey ∧
        bcCryptoEncrypt sodium text sharedKey env.nonce = .ok ciphertext ∧
        msg.payload = env.nonce.toList ++ ciphertext := by
  obtain ⟨sharedKey, ciphertext, derived, encrypted⟩ := success.encrypts
  have derivedOk : bcCryptoDeriveShared sodium identity.secretKey recipient = .ok sharedKey := by
    rw [bcCryptoDeriveShared, derived]
  have encryptedOk : bcCryptoEncrypt sodium text sharedKey env.nonce = .ok ciphertext := by
    rw [bcCryptoEncrypt, encrypted]
  simp only [cmdSend, derivedOk, encryptedOk, success.allocates, Bool.true_eq_false, if_false,
    bcMessageCreate, and_false]
  exact ⟨_, rfl, rfl, sharedKey, ciphertext, rfl, encryptedOk, rfl⟩

theorem cmd_msg_of_passes (node : Node Store) (success : SucceedsFor sodium identity env args)
    (passes : Passes args) :
    ∃ msg, (cmdMsg sodium identity node env (some args)).broadcast = some msg ∧
      bytesToHex msg.receiverPubkey.toList = (args.chars.take 64).map lowerChar ++ [0] ∧
      ∃ sharedKey ciphertext,
        bcCryptoDeriveShared sodium identity.secretKey msg.receiverPubkey = .ok sharedKey ∧
        bcCryptoEncrypt sodium (textOf args) sharedKey env.nonce = .ok ciphertext ∧
        msg.payload = env.nonce.toList ++ ciphertext := by
  have size : (keyString args).chars.length = 32 * 2 :=
    List.length_take_of_le (Nat.le_trans (by decide) passes.length)
  obtain ⟨out, read, length, written⟩ := hex_to_bytes_digits size passes.digits
  have recipient : (⟨out, fun _ => 0⟩ : Memory).fixed 0 32 = ⟨out, length⟩ :=
    fixed_field [] [] ⟨out, length⟩ (by simp) rfl
  have succeeding := success out read
  rw [recipient] at succeeding
  obtain ⟨msg, broadcast, receiver, rest⟩ := cmd_send_broadcasts node succeeding
  refine ⟨msg, ?_, ?_, ?_⟩
  · rw [cmd_msg_eq, if_neg (Nat.not_lt.mpr passes.length), read]
    simp only [if_neg passes.text, recipient]
    exact broadcast
  · rw [receiver]
    exact written
  · rw [receiver]
    exact rest

theorem passes_of_broadcast {node : Node Store}
    (accepted : (cmdMsg sodium identity node env (some args)).broadcast.isSome = true) :
    Passes args := by
  rw [cmd_msg_eq] at accepted
  by_cases short : args.chars.length < 66
  · rw [if_pos short] at accepted
    cases accepted
  · rw [if_neg short] at accepted
    cases read : hexToBytes (keyString args).buffer 32 with
    | none =>
        rw [read] at accepted
        cases accepted
    | some recipient =>
        simp only [read] at accepted
        by_cases empty : textOf args = []
        · rw [if_pos empty] at accepted
          cases accepted
        · exact ⟨Nat.le_of_not_lt short, (hex_to_bytes_some read).2, empty⟩

theorem skip_no_spaces {text : List UInt8} (notSpace : text.head? ≠ some 0x20) :
    (text.dropWhile fun c => c = 0x20) = text := by
  cases text with
  | nil => rfl
  | cons first rest =>
      have other : first ≠ 0x20 := fun same => notSpace (by rw [same]; rfl)
      rw [List.dropWhile_cons_of_neg (by simpa using other)]

theorem Documented.parts {key text : List UInt8} (form : Documented args key text) :
    args.chars.take 64 = key ∧ textOf args = text := by
  obtain ⟨spaces, split, -, blank⟩ := form.split
  rw [List.append_assoc] at split
  refine ⟨by rw [split, List.take_left' form.digits.1], ?_⟩
  rw [textOf, split, List.drop_left' form.digits.1,
    List.dropWhile_append_of_pos (by simpa using blank), skip_no_spaces form.text.2]

theorem Documented.passes {key text : List UInt8} (form : Documented args key text) :
    Passes args := by
  obtain ⟨keyChars, textChars⟩ := form.parts
  obtain ⟨spaces, split, nonempty, -⟩ := form.split
  have spacesLength : 0 < spaces.length := List.length_pos_of_ne_nil nonempty
  have textLength : 0 < text.length := List.length_pos_of_ne_nil form.text.1
  have keyLength := form.digits.1
  refine ⟨?_, ?_, ?_⟩
  · rw [split, List.length_append, List.length_append]
    omega
  · rw [keyChars]
    exact form.digits.2
  · rw [textChars]
    exact form.text.1

theorem Passes.documented_or_missing (passes : Passes args) :
    (∃ key text, Documented args key text) ∨ MissingSeparator args := by
  have split : args.chars = args.chars.take 64 ++ args.chars.drop 64 :=
    (List.take_append_drop 64 args.chars).symm
  have keyLength : (args.chars.take 64).length = 64 :=
    List.length_take_of_le (Nat.le_trans (by decide) passes.length)
  by_cases spaced : (args.chars.drop 64).head? = some 0x20
  · refine .inl ⟨args.chars.take 64, textOf args,
      ⟨(args.chars.drop 64).takeWhile fun c => c = 0x20, ?_, ?_, ?_⟩,
      ⟨keyLength, passes.digits⟩, passes.text, ?_⟩
    · rw [textOf, List.append_assoc, List.takeWhile_append_dropWhile]
      exact split
    · obtain ⟨rest, begins⟩ := List.head?_eq_some_iff.mp spaced
      rw [begins]
      simp
    · intro c member
      simpa using List.mem_takeWhile_imp member
    · intro starts
      have kept := List.head?_dropWhile_not (fun c : UInt8 => decide (c = 0x20)) (args.chars.drop 64)
      rw [textOf] at starts
      rw [starts] at kept
      simp at kept
  · refine .inr ⟨args.chars.take 64, args.chars.drop 64, split, keyLength, passes.digits, ?_, spaced⟩
    have length := passes.length
    rw [List.length_drop]
    omega

theorem not_documented_of_missing (missing : MissingSeparator args) :
    ¬ ∃ key text, Documented args key text := by
  rintro ⟨key, text, form⟩
  obtain ⟨otherKey, rest, otherSplit, otherLength, -, -, notSpace⟩ := missing
  obtain ⟨spaces, split, nonempty, blank⟩ := form.split
  have behind : args.chars.drop 64 = spaces ++ text := by
    rw [split, List.append_assoc, List.drop_left' form.digits.1]
  rw [otherSplit, List.drop_left' otherLength] at behind
  obtain ⟨first, more, begins⟩ := List.exists_cons_of_ne_nil nonempty
  have space : first = 0x20 := blank first (by rw [begins]; exact List.mem_cons_self)
  rw [behind, begins, space] at notSpace
  exact notSpace rfl

theorem passes_of_missing (missing : MissingSeparator args) : Passes args := by
  obtain ⟨key, text, split, keyLength, digits, textLength, notSpace⟩ := missing
  have keyChars : args.chars.take 64 = key := by rw [split, List.take_left' keyLength]
  have textChars : textOf args = text := by
    rw [textOf, split, List.drop_left' keyLength, skip_no_spaces notSpace]
  refine ⟨?_, ?_, ?_⟩
  · rw [split, List.length_append]
    omega
  · rw [keyChars]
    exact digits
  · rw [textChars]
    exact List.ne_nil_of_length_pos (by omega)

theorem message_of_documented (node : Node Store) (success : SucceedsFor sodium identity env args)
    {key text : List UInt8} (form : Documented args key text) :
    ∃ msg, (cmdMsg sodium identity node env (some args)).broadcast = some msg ∧
      bytesToHex msg.receiverPubkey.toList = key.map lowerChar ++ [0] ∧
      ∃ sharedKey ciphertext,
        bcCryptoDeriveShared sodium identity.secretKey msg.receiverPubkey = .ok sharedKey ∧
        bcCryptoEncrypt sodium text sharedKey env.nonce = .ok ciphertext ∧
        msg.payload = env.nonce.toList ++ ciphertext := by
  obtain ⟨keyChars, textChars⟩ := form.parts
  have sent := cmd_msg_of_passes node success form.passes
  rw [keyChars, textChars] at sent
  exact sent

/-- The command accepts exactly its documented form on every argument but
those where the key is followed at once by something else than a space. -/
theorem accepts_documented_iff (node : Node Store) (args : CString)
    (success : SucceedsFor sodium identity env args) :
    AcceptsDocumented sodium identity node env args ↔ ¬ MissingSeparator args := by
  constructor
  · intro accepts missing
    obtain ⟨msg, broadcast, -⟩ := cmd_msg_of_passes node success (passes_of_missing missing)
    have accepted : (cmdMsg sodium identity node env (some args)).broadcast.isSome = true := by
      rw [broadcast]
      rfl
    exact not_documented_of_missing missing (accepts.accepted.mp accepted)
  · intro separated
    refine ⟨⟨?_, ?_⟩, fun key text form => message_of_documented node success form⟩
    · intro accepted
      rcases (passes_of_broadcast accepted).documented_or_missing with form | missing
      · exact form
      · exact absurd missing separated
    · rintro ⟨key, text, form⟩
      obtain ⟨msg, broadcast, -⟩ := message_of_documented node success form
      rw [broadcast]
      rfl

end Command

def keyAndMore (more : List UInt8) (nonzero : (more.all fun c => c ≠ 0) = true)
    (fits : more.length ≤ 100) : CString where
  chars := List.replicate 64 0x61 ++ more
  nonzero := by
    intro c member
    rcases List.mem_append.mp member with inKey | inMore
    · rw [List.eq_of_mem_replicate inKey]
      decide
    · simpa using List.all_eq_true.mp nonzero c inMore
  fits := by
    rw [List.length_append, List.length_replicate]
    omega

def cliEnv : SendEnv where
  nonce := List.Vector.replicate 24 0
  uuid := List.Vector.replicate 16 1
  created := 0
  alloc := allocates
  call := quietEnv 0

def cliNode : Node Unit where
  router :=
    { transport := none
      storage := none
      config := bcDefaultConfig
      localPubkey := List.Vector.replicate 32 1
      dedupTable := DedupTable.emptyTable
      dedupCap := 2
      peers := []
      onMessage := true
      lastSfTick := 0 }
  store := ()

def cliIdentity : BcIdentity := ⟨List.Vector.replicate 32 1, List.Vector.replicate 32 1⟩

theorem cli_succeeding (recipient : Pubkey) (text : List UInt8) :
    Succeeding plainSodium cliIdentity cliEnv recipient text :=
  ⟨⟨_, _, rfl, rfl⟩, fun _ => rfl⟩

theorem separated_text_accepted :
    AcceptsDocumented plainSodium cliIdentity cliNode cliEnv
      (keyAndMore [0x20, 0x68, 0x69] rfl (by decide)) := by
  apply (accepts_documented_iff cliNode _ fun _ _ => cli_succeeding _ _).mpr
  rintro ⟨key, text, split, keyLength, -, -, notSpace⟩
  have behind := congrArg (List.drop 64) split
  rw [List.drop_left' keyLength] at behind
  rw [← behind] at notSpace
  exact notSpace rfl

/-- The key and "hi" without a space: the text is sent all the same. -/
theorem unseparated_text_sent :
    ¬ AcceptsDocumented plainSodium cliIdentity cliNode cliEnv
        (keyAndMore [0x68, 0x69] rfl (by decide)) ∧
      (cmdMsg plainSodium cliIdentity cliNode cliEnv
        (some (keyAndMore [0x68, 0x69] rfl (by decide)))).reply = .sent := by
  have sent : (cmdMsg plainSodium cliIdentity cliNode cliEnv
      (some (keyAndMore [0x68, 0x69] rfl (by decide)))).reply = .sent := by
    decide +kernel
  have accepted : (cmdMsg plainSodium cliIdentity cliNode cliEnv
      (some (keyAndMore [0x68, 0x69] rfl (by decide)))).broadcast.isSome = true := by
    decide +kernel
  refine ⟨?_, sent⟩
  intro accepts
  apply not_documented_of_missing _ (accepts.accepted.mp accepted)
  refine ⟨List.replicate 64 0x61, [0x68, 0x69], rfl, rfl, ?_, by decide, by decide⟩
  intro c member
  rw [List.eq_of_mem_replicate member]
  rfl

/-! ### A key carried from one program to the other -/

section KeyText

open BitChat.KotlinText

variable {Store : Type}

theorem hex_pair_written (byte : UInt8) : (toHex [byte]).map UInt16.toUInt8 = hexPair byte := by
  revert byte
  apply byte_forall
  decide +kernel

theorem hex_unit_ascii {value : Nat} (small : value < 16) : AsciiHex (hexUnit value) := by
  have table : ∀ a < 16, AsciiHex (hexUnit a) := by decide
  exact table value small

theorem hex_pair_lower (byte : UInt8) : (hexPair byte).map lowerChar = hexPair byte := by
  revert byte
  apply byte_forall
  decide +kernel

theorem to_hex_digits (key : List UInt8) : ∀ c ∈ toHex key, AsciiHex c := by
  intro c member
  obtain ⟨byte, -, inPair⟩ := List.mem_flatMap.mp member
  have bound := byte.toNat_lt
  rcases List.mem_cons.mp inPair with isHigh | isLow
  · rw [isHigh]
    exact hex_unit_ascii (by omega)
  · rw [List.mem_singleton.mp isLow]
    exact hex_unit_ascii (by omega)

theorem to_hex_pairs (key : List UInt8) :
    (toHex key).map UInt16.toUInt8 = key.flatMap hexPair := by
  induction key with
  | nil => rfl
  | cons byte rest ih =>
      rw [to_hex_cons, List.map_append, hex_pair_written byte, ih, List.flatMap_cons]

theorem utf8_digits {digits : KotlinString} (hex : ∀ c ∈ digits, AsciiHex c)
    (rest : KotlinString) :
    utf8 (digits ++ rest) = digits.map UInt16.toUInt8 ++ utf8 rest := by
  induction digits with
  | nil => rfl
  | cons c more ih =>
      obtain ⟨here, later⟩ := List.forall_mem_cons.mp hex
      rw [List.cons_append, utf8_ascii _ here.1, ih later, List.map_cons, List.cons_append]

theorem utf8_to_hex (key : List UInt8) : utf8 (toHex key) = key.flatMap hexPair := by
  have written := utf8_digits (to_hex_digits key) []
  rw [List.append_nil, to_hex_pairs, show utf8 [] = [] from rfl, List.append_nil] at written
  exact written

/-- The pairs of digits have no zero among them, so a C program reads on to
their end. -/
theorem hex_to_bytes_pairs (data : List UInt8) :
    hexToBytes (data.flatMap hexPair) data.length = some data := by
  have text : ((data.flatMap hexPair).takeWhile fun byte => byte ≠ 0) = data.flatMap hexPair :=
    List.takeWhile_eq_self_iff.mpr (by simpa using hex_pairs_nonzero data)
  rw [hexToBytes, text, if_neg (not_not.mpr (hex_pairs_length data)), hex_loop_pairs]

theorem bytes_to_hex_injective {a b : List UInt8} (size : a.length = b.length)
    (same : bytesToHex a = bytesToHex b) : a = b := by
  have back := hex_to_bytes_of_hex a
  rw [same, size, hex_to_bytes_of_hex] at back
  exact (Option.some.inj back).symm

theorem digits_of_text {s : KotlinString} (nonzero : ∀ byte ∈ utf8 s, byte ≠ 0)
    (accepted : (hexToBytes (utf8 s) 32).isSome = true) :
    s.length = 64 ∧ ∀ c ∈ s, AsciiHex c := by
  obtain ⟨digits, ⟨hex, same | ⟨rest, longer⟩⟩, count⟩ := (hex_to_bytes_iff s).mp accepted
  · rw [same]
    exact ⟨count, hex⟩
  · -- A zero behind the digits would be among the bytes.
    have zero : (0 : UInt8) ∈ utf8 s := by
      rw [longer, utf8_digits hex, utf8_ascii rest (by decide)]
      exact List.mem_append_right _ List.mem_cons_self
    exact absurd rfl (nonzero 0 zero)

/-- What `generateQrBitmap` encodes. -/
def qrContent (content : KotlinString) : KotlinString := qrScheme ++ content

theorem succeeds_for_pasted {sodium : Sodium} {identity : BcIdentity} {env : SendEnv}
    {key : Pubkey} {args : CString} {text : List UInt8}
    (form : Documented args (utf8 (toHex key.toList)) text)
    (succeeding : Succeeding sodium identity env key text) :
    SucceedsFor sodium identity env args := by
  obtain ⟨keyChars, textChars⟩ := form.parts
  intro out read
  have buffer : args.chars.take 64 ++ [0] = bytesToHex key.toList := by
    rw [keyChars, utf8_to_hex, bytesToHex]
  have same : out = key.toList := by
    have back := hex_to_bytes_of_hex key.toList
    rw [key.toList_length, ← buffer] at back
    exact Option.some.inj (read.symm.trans back)
  have recipient : (⟨out, fun _ => 0⟩ : Memory).fixed 0 32 = key :=
    fixed_field [] [] key (by rw [same]; simp) rfl
  rw [recipient, textChars]
  exact succeeding

/-- However a key gets from one program to the other, it is the same key there:
the text of the command line typed into the app, the code of the app scanned by
another, and, where the cryptography accepts it, the text of the app given to
`/msg`. -/
theorem exchanged_key_kept (sodium : Sodium) (identity : BcIdentity) (env : SendEnv)
    (node : Node Store) (key : Pubkey) :
    utf8 (toHex key.toList) ++ [0] = bytesToHex key.toList ∧
    (∀ shown, utf8 shown ++ [0] = bytesToHex key.toList → addContact shown = some key.toList) ∧
    (parseQrContent (qrContent (toHex key.toList))).bind fromHex = some key.toList ∧
    ∀ args text, Documented args (utf8 (toHex key.toList)) text →
      Succeeding sodium identity env key text →
      ∃ msg, (cmdMsg sodium identity node env (some args)).broadcast = some msg ∧
        msg.receiverPubkey = key := by
  have size : key.toList.length = 32 := key.toList_length
  have read : hexToBytes (key.toList.flatMap hexPair) 32 = some key.toList := by
    have back := hex_to_bytes_pairs key.toList
    rwa [size] at back
  -- Any text with these bytes is read back by the app.
  have parsed : ∀ shown, utf8 shown = key.toList.flatMap hexPair →
      parseQrContent (qrScheme ++ shown) = some shown ∧ fromHex shown = some key.toList ∧
        addContact shown = some key.toList := by
    intro shown bytes
    have readShown : hexToBytes (utf8 shown) 32 = some key.toList := by rw [bytes, read]
    obtain ⟨length, hex⟩ := digits_of_text (by rw [bytes]; exact hex_pairs_nonzero key.toList)
      (by rw [readShown]; rfl)
    obtain ⟨scanned, app, added, -, -⟩ := same_key_of_digits length hex key.toList readShown
    exact ⟨scanned, app, added⟩
  refine ⟨by rw [utf8_to_hex, bytesToHex], ?_, ?_, ?_⟩
  · intro shown printed
    exact (parsed shown (List.append_cancel_right printed)).2.2
  · obtain ⟨scanned, app, -⟩ := parsed _ (utf8_to_hex key.toList)
    rw [qrContent, scanned, Option.bind_some, app]
  · intro args text form succeeding
    obtain ⟨msg, broadcast, written, -⟩ :=
      message_of_documented node (succeeds_for_pasted form succeeding) form
    refine ⟨msg, broadcast, ?_⟩
    have lower : (utf8 (toHex key.toList)).map lowerChar = key.toList.flatMap hexPair := by
      rw [utf8_to_hex, List.map_flatMap]
      exact List.flatMap_congr fun byte _ => hex_pair_lower byte
    rw [lower, ← bytesToHex] at written
    exact List.Vector.toList_injective (bytes_to_hex_injective (by simp) written)

theorem pasted_key_addressed :
    ∃ msg, (cmdMsg plainSodium cliIdentity cliNode cliEnv
        (some (keyAndMore [0x20, 0x68, 0x69] rfl (by decide)))).broadcast = some msg ∧
      msg.receiverPubkey = List.Vector.replicate 32 0xAA := by
  apply (exchanged_key_kept plainSodium cliIdentity cliEnv cliNode
    (List.Vector.replicate 32 0xAA)).2.2.2 _ [0x68, 0x69] _ (cli_succeeding _ _)
  have text : utf8 (toHex (List.Vector.replicate 32 0xAA).toList) = List.replicate 64 0x61 := by
    decide +kernel
  rw [text]
  refine ⟨⟨[0x20], rfl, by decide, ?_⟩, ⟨List.length_replicate, ?_⟩, by decide, by decide⟩
  · intro c member
    exact List.mem_singleton.mp member
  · intro c member
    rw [List.eq_of_mem_replicate member]
    rfl

end KeyText

end BitChat.CommandLine
