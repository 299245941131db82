import BitChat.Library.BigEndian
import Mathlib.Data.Vector.Basic

/-!
# The message entity and its wire format

A direct transcription of `domain/message.c` with the status codes of
`error.h`. Reads go through a `Memory`: the received object together with
whatever the process has mapped after it, so that a copy past the end of the
object yields bytes of the latter instead of being cut short. Every
allocation asks an oracle. Sizes are exact naturals where the source adds
`size_t` values of live objects, which stay far below `2 ^ 64`; the one sum
that the source computes in `uint32_t` is kept in `UInt32`.
-/

namespace BitChat.WireMessage

set_option autoImplicit false

inductive Rc where
  | ok
  | err
  | nomem
  | invalid
  | duplicate
  | ttlExpired
  | crypto
  | storage
  | transport
  | notImplemented
  | bufferTooSmall
deriving DecidableEq, Repr

abbrev Uuid := List.Vector UInt8 16

abbrev Pubkey := List.Vector UInt8 32

def bcDefaultTtl : UInt8 := 10
def bcMessageHeaderSize : Nat := 16 + 1 + 32 * 2 + 8 + 4

/-- `payload_len` is the length of the payload list; the source keeps the
payload pointer `NULL` exactly for the empty payload. -/
structure BcMessage where
  uuid : Uuid
  ttl : UInt8
  senderPubkey : Pubkey
  receiverPubkey : Pubkey
  timestamp : UInt64
  payload : List UInt8
deriving DecidableEq

structure Memory where
  data : List UInt8
  beyond : Nat → UInt8

namespace Memory

def byteAt (mem : Memory) (offset : Nat) : UInt8 :=
  mem.data.getD offset (mem.beyond (offset - mem.data.length))

/-- The bytes that `memcpy(_, data + offset, count)` copies. -/
def read (mem : Memory) (offset count : Nat) : List UInt8 :=
  (List.range count).map fun index => mem.byteAt (offset + index)

def fixed (mem : Memory) (offset count : Nat) : List.Vector UInt8 count :=
  ⟨mem.read offset count, by simp [read]⟩

theorem byte_at_outside (mem : Memory) {offset : Nat} (outside : mem.data.length ≤ offset) :
    mem.byteAt offset = mem.beyond (offset - mem.data.length) := by
  simp [byteAt, outside]

theorem read_length (mem : Memory) (offset count : Nat) :
    (mem.read offset count).length = count := by
  simp [read]

theorem read_inside (mem : Memory) (offset count : Nat)
    (inside : offset + count ≤ mem.data.length) :
    mem.read offset count = (mem.data.drop offset).take count := by
  apply List.ext_getElem
  · rw [read_length, List.length_take, List.length_drop]
    omega
  · intro index left right
    have indexBound : offset + index < mem.data.length := by
      rw [read_length] at left
      omega
    simp [read, byteAt, indexBound]

theorem read_take (mem : Memory) (offset : Nat) {count k : Nat} (bound : k ≤ count) :
    (mem.read offset count).take k = mem.read offset k := by
  rw [read, read, ← List.map_take, List.take_range, Nat.min_eq_left bound]

theorem read_getElem? (mem : Memory) (offset : Nat) {count i : Nat} (bound : i < count) :
    (mem.read offset count)[i]? = some (mem.byteAt (offset + i)) := by
  simp [read, bound]

theorem read_append (mem : Memory) (offset first second : Nat) :
    mem.read offset (first + second) =
      mem.read offset first ++ mem.read (offset + first) second := by
  simp only [read, List.range_add, List.map_append, List.map_map, Nat.add_assoc]
  rfl

theorem read_field {mem : Memory} {field : List UInt8} {offset count : Nat}
    (before after : List UInt8)
    (layout : mem.data = before ++ (field ++ after))
    (start : before.length = offset) (size : field.length = count) :
    mem.read offset count = field := by
  have inside : offset + count ≤ mem.data.length := by
    simp only [layout, List.length_append]
    omega
  rw [read_inside mem offset count inside, layout, ← start, List.drop_left, ← size,
    List.take_left]

end Memory

def writeU32Be (val : UInt32) : List UInt8 :=
  [(val >>> 24).toUInt8, (val >>> 16).toUInt8, (val >>> 8).toUInt8, val.toUInt8]

def readU32Be (mem : Memory) (src : Nat) : UInt32 :=
  (mem.byteAt src).toUInt32 <<< 24 |||
    (mem.byteAt (src + 1)).toUInt32 <<< 16 |||
    (mem.byteAt (src + 2)).toUInt32 <<< 8 |||
    (mem.byteAt (src + 3)).toUInt32

def writeU64Be (val : UInt64) : List UInt8 :=
  [(val >>> 56).toUInt8, (val >>> 48).toUInt8, (val >>> 40).toUInt8, (val >>> 32).toUInt8,
    (val >>> 24).toUInt8, (val >>> 16).toUInt8, (val >>> 8).toUInt8, val.toUInt8]

def readU64Be (mem : Memory) (src : Nat) : UInt64 :=
  (mem.byteAt src).toUInt64 <<< 56 |||
    (mem.byteAt (src + 1)).toUInt64 <<< 48 |||
    (mem.byteAt (src + 2)).toUInt64 <<< 40 |||
    (mem.byteAt (src + 3)).toUInt64 <<< 32 |||
    (mem.byteAt (src + 4)).toUInt64 <<< 24 |||
    (mem.byteAt (src + 5)).toUInt64 <<< 16 |||
    (mem.byteAt (src + 6)).toUInt64 <<< 8 |||
    (mem.byteAt (src + 7)).toUInt64

theorem read_u32_be_value (mem : Memory) (src : Nat) :
    (readU32Be mem src).toNat = BigEndian.decode (mem.read src 4) := by
  simp only [readU32Be, UInt32.toNat_or, UInt32.toNat_shiftLeft, UInt8.toNat_toUInt32,
    Nat.reduceMod, UInt32.reduceToNat]
  rw [BigEndian.shifted_byte_fits _ 24 32 (by decide),
    BigEndian.shifted_byte_fits _ 16 32 (by decide),
    BigEndian.shifted_byte_fits _ 8 32 (by decide), BigEndian.or_of_four_bytes]
  rfl

theorem read_u64_be_value (mem : Memory) (src : Nat) :
    (readU64Be mem src).toNat = BigEndian.decode (mem.read src 8) := by
  simp only [readU64Be, UInt64.toNat_or, UInt64.toNat_shiftLeft, UInt8.toNat_toUInt64,
    Nat.reduceMod, UInt64.reduceToNat]
  rw [BigEndian.shifted_byte_fits _ 56 64 (by decide),
    BigEndian.shifted_byte_fits _ 48 64 (by decide),
    BigEndian.shifted_byte_fits _ 40 64 (by decide),
    BigEndian.shifted_byte_fits _ 32 64 (by decide),
    BigEndian.shifted_byte_fits _ 24 64 (by decide),
    BigEndian.shifted_byte_fits _ 16 64 (by decide),
    BigEndian.shifted_byte_fits _ 8 64 (by decide), BigEndian.or_of_eight_bytes]
  rfl

theorem write_u32_be_bytes (val : UInt32) :
    writeU32Be val = BigEndian.encode 4 val.toNat := by
  simp only [writeU32Be, BigEndian.encode, List.cons.injEq, ← UInt8.toNat_inj,
    UInt32.toNat_toUInt8, UInt32.toNat_shiftRight, UInt8.toNat_ofNat', UInt32.reduceToNat,
    Nat.shiftRight_eq_div_pow]
  norm_num

theorem write_u64_be_bytes (val : UInt64) :
    writeU64Be val = BigEndian.encode 8 val.toNat := by
  simp only [writeU64Be, BigEndian.encode, List.cons.injEq, ← UInt8.toNat_inj,
    UInt64.toNat_toUInt8, UInt64.toNat_shiftRight, UInt8.toNat_ofNat', UInt64.reduceToNat,
    Nat.shiftRight_eq_div_pow]
  norm_num

theorem write_read_u32 (mem : Memory) (src : Nat) :
    writeU32Be (readU32Be mem src) = mem.read src 4 := by
  rw [write_u32_be_bytes, read_u32_be_value]
  exact BigEndian.encode_decode (mem.read src 4)

theorem write_read_u64 (mem : Memory) (src : Nat) :
    writeU64Be (readU64Be mem src) = mem.read src 8 := by
  rw [write_u64_be_bytes, read_u64_be_value]
  exact BigEndian.encode_decode (mem.read src 8)

/-- The bytes `bc_message_serialize` lays out in its buffer. -/
def wireBytes (msg : BcMessage) : List UInt8 :=
  msg.uuid.toList ++ [msg.ttl] ++ msg.senderPubkey.toList ++ msg.receiverPubkey.toList ++
    writeU64Be msg.timestamp ++ writeU32Be (UInt32.ofNat msg.payload.length) ++ msg.payload

/-- `bc_message_create`: the random uuid and the clock reading are arguments,
and `alloc 0` and `alloc 1` are its two allocations. -/
def bcMessageCreate (alloc : Nat → Bool) (uuid : Uuid) (now : UInt64) (sender receiver : Pubkey)
    (payload : List UInt8) : Option BcMessage :=
  if alloc 0 = false then none
  else if 0 < payload.length ∧ alloc 1 = false then none
  else some
    { uuid := uuid
      ttl := bcDefaultTtl
      senderPubkey := sender
      receiverPubkey := receiver
      timestamp := now
      payload := payload }

structure SerializeResult where
  rc : Rc
  outLen : Nat
  written : List UInt8
deriving DecidableEq

def bcMessageSerialize (msg : BcMessage) (bufLen : Nat) : SerializeResult :=
  let needed := bcMessageHeaderSize + msg.payload.length
  if bufLen < needed then
    { rc := .bufferTooSmall, outLen := needed, written := [] }
  else
    { rc := .ok, outLen := (wireBytes msg).length, written := wireBytes msg }

/-- The record that the pointer walk of `bc_message_deserialize` fills in. -/
def messageAt (mem : Memory) : BcMessage where
  uuid := mem.fixed 0 16
  ttl := mem.byteAt 16
  senderPubkey := mem.fixed 17 32
  receiverPubkey := mem.fixed 49 32
  timestamp := readU64Be mem 81
  payload := mem.read 93 (readU32Be mem 89).toNat

/-- `alloc k` tells whether the k-th allocation of the call succeeds. -/
def bcMessageDeserialize (alloc : Nat → Bool) (mem : Memory) : Option BcMessage :=
  let payloadLen := readU32Be mem 89
  if mem.data.length < bcMessageHeaderSize then none
  -- `int + uint32_t` is a `uint32_t` in C, and only the comparison is in `size_t`.
  else if mem.data.length < (UInt32.ofNat bcMessageHeaderSize + payloadLen).toNat then none
  else if alloc 0 = false then none
  else if 0 < payloadLen.toNat ∧ alloc 1 = false then none
  else some (messageAt mem)

def allocates : Nat → Bool := fun _ => true

theorem wire_bytes_length (msg : BcMessage) :
    (wireBytes msg).length = bcMessageHeaderSize + msg.payload.length := by
  simp only [wireBytes, writeU64Be, writeU32Be, List.length_append, List.length_cons,
    List.length_nil, List.Vector.toList_length]
  rfl

theorem wire_bytes_take (msg : BcMessage) : (wireBytes msg).take 16 = msg.uuid.toList := by
  simp only [wireBytes, List.append_assoc]
  exact List.take_left' (List.Vector.toList_length msg.uuid)

theorem wire_bytes_uuid {msg other : BcMessage} (same : wireBytes msg = wireBytes other) :
    msg.uuid = other.uuid := by
  have first := congrArg (List.take 16) same
  rw [wire_bytes_take, wire_bytes_take] at first
  exact List.Vector.toList_injective first

theorem serialize_fits (msg : BcMessage) :
    bcMessageSerialize msg (bcMessageHeaderSize + msg.payload.length) =
      { rc := .ok
        outLen := bcMessageHeaderSize + msg.payload.length
        written := wireBytes msg } := by
  simp [bcMessageSerialize, wire_bytes_length]

/-- The length check of the decoder in exact arithmetic: the sum is reduced
modulo `2 ^ 32` before it is compared. -/
theorem deserialize_eq_some_iff (alloc : Nat → Bool) (mem : Memory) (msg : BcMessage) :
    bcMessageDeserialize alloc mem = some msg ↔
      bcMessageHeaderSize ≤ mem.data.length ∧
      (bcMessageHeaderSize + (readU32Be mem 89).toNat) % 2 ^ 32 ≤ mem.data.length ∧
      alloc 0 = true ∧ (0 < (readU32Be mem 89).toNat → alloc 1 = true) ∧
      messageAt mem = msg := by
  have sum : (UInt32.ofNat bcMessageHeaderSize + readU32Be mem 89).toNat =
      (bcMessageHeaderSize + (readU32Be mem 89).toNat) % 2 ^ 32 := by
    rw [UInt32.toNat_add]
    rfl
  unfold bcMessageDeserialize
  simp only [sum]
  split_ifs with short shortBody noMessage noPayload
  · simp [Nat.not_le.mpr short]
  · simp only [Nat.not_le.mpr shortBody, false_and, and_false]
  · simp [noMessage]
  · simp [noPayload.1, noPayload.2]
  · have payloadAllocated : 0 < (readU32Be mem 89).toNat → alloc 1 = true := by
      intro positive
      simpa [positive] using noPayload
    simp only [Option.some.injEq]
    exact ⟨fun same => ⟨Nat.le_of_not_lt short, Nat.le_of_not_lt shortBody,
      by simpa using noMessage, payloadAllocated, same⟩, fun all => all.2.2.2.2⟩

theorem fixed_field {mem : Memory} {offset count : Nat} (before after : List UInt8)
    (field : List.Vector UInt8 count) (layout : mem.data = before ++ (field.toList ++ after))
    (start : before.length = offset) : mem.fixed offset count = field := by
  apply List.Vector.toList_injective
  exact Memory.read_field before after layout start field.toList_length

def headerBytes (msg : BcMessage) : List UInt8 :=
  msg.uuid.toList ++ [msg.ttl] ++ msg.senderPubkey.toList ++ msg.receiverPubkey.toList ++
    writeU64Be msg.timestamp ++ writeU32Be (UInt32.ofNat msg.payload.length)

theorem wire_bytes_header (msg : BcMessage) : wireBytes msg = headerBytes msg ++ msg.payload := rfl

theorem header_bytes_length (msg : BcMessage) :
    (headerBytes msg).length = bcMessageHeaderSize := by
  simp only [headerBytes, writeU64Be, writeU32Be, List.length_append, List.length_cons,
    List.length_nil, List.Vector.toList_length]
  rfl

theorem header_length_field (msg : BcMessage) (rest : List UInt8) (beyond : Nat → UInt8) :
    (readU32Be ⟨headerBytes msg ++ rest, beyond⟩ 89).toNat = msg.payload.length % 2 ^ 32 := by
  let upToLength := msg.uuid.toList ++ [msg.ttl] ++ msg.senderPubkey.toList ++
    msg.receiverPubkey.toList ++ writeU64Be msg.timestamp
  let lengthBytes := writeU32Be (UInt32.ofNat msg.payload.length)
  have lengthRead : (⟨headerBytes msg ++ rest, beyond⟩ : Memory).read 89 4 = lengthBytes :=
    Memory.read_field upToLength rest (by simp [upToLength, lengthBytes, headerBytes])
      (by simp [upToLength, writeU64Be]) rfl
  rw [read_u32_be_value, lengthRead, show lengthBytes = _ from write_u32_be_bytes _,
    BigEndian.decode_encode]
  simp

theorem message_at_header (msg : BcMessage) (rest : List UInt8) (beyond : Nat → UInt8) :
    messageAt ⟨headerBytes msg ++ rest, beyond⟩ =
      { msg with
        payload := (⟨headerBytes msg ++ rest, beyond⟩ : Memory).read bcMessageHeaderSize
          (msg.payload.length % 2 ^ 32) } := by
  let mem : Memory := ⟨headerBytes msg ++ rest, beyond⟩
  let upToSender := msg.uuid.toList ++ [msg.ttl]
  let upToReceiver := upToSender ++ msg.senderPubkey.toList
  let upToTimestamp := upToReceiver ++ msg.receiverPubkey.toList
  have uuid : mem.fixed 0 16 = msg.uuid :=
    fixed_field [] _ msg.uuid (by simp [mem, headerBytes]; rfl) rfl
  have ttl : mem.read 16 1 = [msg.ttl] :=
    Memory.read_field msg.uuid.toList _ (by simp [mem, headerBytes]; rfl)
      (by simp) rfl
  have sender : mem.fixed 17 32 = msg.senderPubkey :=
    fixed_field upToSender _ msg.senderPubkey
      (by simp [mem, upToSender, headerBytes]; rfl) (by simp [upToSender])
  have receiver : mem.fixed 49 32 = msg.receiverPubkey :=
    fixed_field upToReceiver _ msg.receiverPubkey
      (by simp [mem, upToReceiver, upToSender, headerBytes]; rfl)
      (by simp [upToReceiver, upToSender])
  have timestampBytes : mem.read 81 8 = writeU64Be msg.timestamp :=
    Memory.read_field upToTimestamp _
      (by simp [mem, upToTimestamp, upToReceiver, upToSender, headerBytes]; rfl)
      (by simp [upToTimestamp, upToReceiver, upToSender]) rfl
  have timestamp : readU64Be mem 81 = msg.timestamp := by
    apply UInt64.toNat_inj.mp
    rw [read_u64_be_value, timestampBytes, write_u64_be_bytes, BigEndian.decode_encode]
    exact Nat.mod_eq_of_lt msg.timestamp.toNat_lt
  have ttlByte : mem.byteAt 16 = msg.ttl := by simpa [Memory.read] using ttl
  change BcMessage.mk (mem.fixed 0 16) (mem.byteAt 16) (mem.fixed 17 32)
    (mem.fixed 49 32) (readU64Be mem 81) (mem.read 93 (readU32Be mem 89).toNat) = _
  rw [uuid, ttlByte, sender, receiver, timestamp, header_length_field]
  rfl

theorem message_at_wire (msg : BcMessage) (trailing : List UInt8) (beyond : Nat → UInt8)
    (size : msg.payload.length < 2 ^ 32) :
    messageAt ⟨wireBytes msg ++ trailing, beyond⟩ = msg := by
  have payload : (⟨headerBytes msg ++ (msg.payload ++ trailing), beyond⟩ : Memory).read
      bcMessageHeaderSize (msg.payload.length % 2 ^ 32) = msg.payload :=
    Memory.read_field (headerBytes msg) trailing rfl (header_bytes_length msg)
      (Nat.mod_eq_of_lt size).symm
  rw [wire_bytes_header, List.append_assoc, message_at_header, payload]

theorem wire_length_field (msg : BcMessage) (trailing : List UInt8) (beyond : Nat → UInt8)
    (size : msg.payload.length < 2 ^ 32) :
    (readU32Be ⟨wireBytes msg ++ trailing, beyond⟩ 89).toNat = msg.payload.length := by
  rw [wire_bytes_header, List.append_assoc, header_length_field, Nat.mod_eq_of_lt size]

/-- A datagram cut to `limit` bytes, at least the header, is dropped unless
nothing was cut, as long as the length check of the decoder does not wrap. -/
theorem deserialize_cut {alloc : Nat → Bool} {msg parsed : BcMessage} {limit : Nat}
    {beyond : Nat → UInt8} (room : bcMessageHeaderSize ≤ limit)
    (size : bcMessageHeaderSize + msg.payload.length < 2 ^ 32)
    (accepted : bcMessageDeserialize alloc ⟨(wireBytes msg).take limit, beyond⟩ = some parsed) :
    parsed = msg ∧ (wireBytes msg).length ≤ limit := by
  have small : msg.payload.length < 2 ^ 32 := by omega
  have cut : (wireBytes msg).take limit =
      headerBytes msg ++ msg.payload.take (limit - bcMessageHeaderSize) := by
    rw [wire_bytes_header, List.take_append, header_bytes_length,
      List.take_of_length_le (by rw [header_bytes_length]; exact room)]
  obtain ⟨-, body, -, -, same⟩ := (deserialize_eq_some_iff _ _ _).mp accepted
  have fits : (wireBytes msg).length ≤ limit := by
    rw [wire_bytes_length]
    simp only [cut, header_length_field, Nat.mod_eq_of_lt small, Nat.mod_eq_of_lt size,
      List.length_append, header_bytes_length, List.length_take] at body
    omega
  refine ⟨?_, fits⟩
  have whole := message_at_wire msg [] beyond small
  rw [List.append_nil] at whole
  rw [← same, List.take_of_length_le fits, whole]

theorem deserialize_wire (alloc : Nat → Bool) (msg : BcMessage) (trailing : List UInt8)
    (beyond : Nat → UInt8) (size : msg.payload.length < 2 ^ 32)
    (messageAllocated : alloc 0 = true) (payloadAllocated : alloc 1 = true) :
    bcMessageDeserialize alloc ⟨wireBytes msg ++ trailing, beyond⟩ = some msg := by
  have length := wire_bytes_length msg
  rw [deserialize_eq_some_iff, wire_length_field msg trailing beyond size]
  refine ⟨?_, ?_, messageAllocated, fun _ => payloadAllocated,
    message_at_wire msg trailing beyond size⟩
  · simp only [List.length_append]
    omega
  · apply (Nat.mod_le _ _).trans
    simp only [List.length_append]
    omega

/-- Into a buffer that is large enough a message is written whole, and the
bytes read back as the message whatever follows them; into a smaller one
nothing is written and the size is reported. -/
theorem serialize_round_trip (msg : BcMessage) (size : msg.payload.length < 2 ^ 32)
    (bufLen : Nat) :
    (93 + msg.payload.length ≤ bufLen →
      (bcMessageSerialize msg bufLen).rc = .ok ∧
      (bcMessageSerialize msg bufLen).outLen = 93 + msg.payload.length ∧
      (bcMessageSerialize msg bufLen).written.length = 93 + msg.payload.length ∧
      ∀ (trailing : List UInt8) (beyond : Nat → UInt8),
        bcMessageDeserialize allocates
          ⟨(bcMessageSerialize msg bufLen).written ++ trailing, beyond⟩ = some msg) ∧
    (bufLen < 93 + msg.payload.length →
      bcMessageSerialize msg bufLen = ⟨.bufferTooSmall, 93 + msg.payload.length, []⟩) := by
  constructor
  · intro fits
    have written : bcMessageSerialize msg bufLen =
        ⟨.ok, (wireBytes msg).length, wireBytes msg⟩ :=
      if_neg (Nat.not_lt.mpr fits)
    rw [written]
    refine ⟨rfl, wire_bytes_length msg, wire_bytes_length msg, ?_⟩
    intro trailing beyond
    exact deserialize_wire allocates msg trailing beyond size rfl rfl
  · intro small
    exact if_pos small

def shortMessage : BcMessage where
  uuid := List.Vector.replicate 16 1
  ttl := 10
  senderPubkey := List.Vector.replicate 32 2
  receiverPubkey := List.Vector.replicate 32 3
  timestamp := 1700000000
  payload := [104, 105]

theorem short_message_round_trip :
    (bcMessageSerialize shortMessage 95).rc = .ok ∧
      bcMessageDeserialize allocates
        ⟨(bcMessageSerialize shortMessage 95).written ++ [0], fun _ => 0⟩ = some shortMessage ∧
      bcMessageSerialize shortMessage 94 = ⟨.bufferTooSmall, 95, []⟩ := by
  have size : shortMessage.payload.length < 2 ^ 32 := by decide
  obtain ⟨rc, -, -, readBack⟩ := (serialize_round_trip shortMessage size 95).1 (by decide)
  have refused := (serialize_round_trip shortMessage size 94).2 (by decide)
  exact ⟨rc, readBack [0] fun _ => 0, refused⟩

def declaredLength (data : List UInt8) : Nat :=
  BigEndian.decode ((data.drop 89).take 4)

theorem declared_length_field (data : List UInt8) (beyond : Nat → UInt8)
    (header : bcMessageHeaderSize ≤ data.length) :
    (readU32Be ⟨data, beyond⟩ 89).toNat = declaredLength data := by
  rw [read_u32_be_value, Memory.read_inside _ _ _ header, declaredLength]

theorem message_at_data_only (data : List UInt8) (beyond elsewhere : Nat → UInt8)
    (header : bcMessageHeaderSize ≤ data.length)
    (inside : bcMessageHeaderSize + declaredLength data ≤ data.length) :
    messageAt ⟨data, beyond⟩ = messageAt ⟨data, elsewhere⟩ := by
  have sameRead : ∀ offset count, offset + count ≤ data.length →
      (⟨data, beyond⟩ : Memory).read offset count = (⟨data, elsewhere⟩ : Memory).read offset count := by
    intro offset count bound
    rw [Memory.read_inside _ _ _ bound, Memory.read_inside _ _ _ bound]
  have sameFixed : ∀ offset count, offset + count ≤ data.length →
      (⟨data, beyond⟩ : Memory).fixed offset count =
        (⟨data, elsewhere⟩ : Memory).fixed offset count := by
    intro offset count bound
    exact Subtype.ext (sameRead offset count bound)
  have headerBound : 93 ≤ data.length := header
  have ttl : (⟨data, beyond⟩ : Memory).byteAt 16 = (⟨data, elsewhere⟩ : Memory).byteAt 16 := by
    simpa [Memory.read] using sameRead 16 1 (by omega)
  have timestamp : readU64Be ⟨data, beyond⟩ 81 = readU64Be ⟨data, elsewhere⟩ 81 := by
    apply UInt64.toNat_inj.mp
    rw [read_u64_be_value, read_u64_be_value, sameRead 81 8 (by omega)]
  have payload := sameRead 93 (declaredLength data) inside
  simp only [messageAt, declared_length_field data _ header, ttl, timestamp, payload,
    sameFixed 0 16 (by omega), sameFixed 17 32 (by omega), sameFixed 49 32 (by omega)]

theorem wire_bytes_message_at (mem : Memory) :
    wireBytes (messageAt mem) =
      mem.read 0 (bcMessageHeaderSize + (readU32Be mem 89).toNat) := by
  have size : bcMessageHeaderSize + (readU32Be mem 89).toNat =
      16 + (1 + (32 + (32 + (8 + (4 + (readU32Be mem 89).toNat))))) := by
    simp only [bcMessageHeaderSize]
    omega
  have payload : (messageAt mem).payload.length = (readU32Be mem 89).toNat :=
    Memory.read_length mem 93 _
  have timestamp : writeU64Be (messageAt mem).timestamp = mem.read 81 8 := write_read_u64 mem 81
  have length : writeU32Be (UInt32.ofNat (messageAt mem).payload.length) = mem.read 89 4 := by
    rw [payload, UInt32.ofNat_toNat, write_read_u32]
  rw [wireBytes, timestamp, length, size]
  simp only [Memory.read_append, List.append_assoc, Nat.zero_add, Nat.reduceAdd]
  rfl

theorem wire_bytes_of_datagram (data : List UInt8) (beyond : Nat → UInt8)
    (inside : bcMessageHeaderSize + declaredLength data ≤ data.length) :
    wireBytes (messageAt ⟨data, beyond⟩) =
      data.take (bcMessageHeaderSize + declaredLength data) := by
  have header : bcMessageHeaderSize ≤ data.length := Nat.le_of_add_right_le inside
  rw [wire_bytes_message_at, declared_length_field data beyond header,
    Memory.read_inside _ _ _ (by simpa using inside), List.drop_zero]

theorem wire_bytes_ttl (msg : BcMessage) (ttl : UInt8) :
    wireBytes { msg with ttl := ttl } = (wireBytes msg).set 16 ttl := by
  have uuid : msg.uuid.toList.length = 16 := msg.uuid.toList_length
  simp only [wireBytes, List.append_assoc]
  rw [List.set_append_right 16 ttl (Nat.le_of_eq uuid), uuid]
  rfl

theorem deserialize_is_some_iff (data : List UInt8) (beyond : Nat → UInt8) :
    (bcMessageDeserialize allocates ⟨data, beyond⟩).isSome = true ↔
      bcMessageHeaderSize ≤ data.length ∧
      (bcMessageHeaderSize + declaredLength data) % 2 ^ 32 ≤ data.length := by
  rw [Option.isSome_iff_exists]
  constructor
  · rintro ⟨msg, accepted⟩
    obtain ⟨header, body, -⟩ := (deserialize_eq_some_iff _ _ _).mp accepted
    rw [declared_length_field data beyond header] at body
    exact ⟨header, body⟩
  · rintro ⟨header, body⟩
    refine ⟨messageAt ⟨data, beyond⟩, (deserialize_eq_some_iff _ _ _).mpr ?_⟩
    rw [declared_length_field data beyond header]
    exact ⟨header, body, rfl, fun _ => rfl, rfl⟩

/-- The decoder accepts exactly the datagrams that hold the payload they
declare, returns that payload, and returns the same message whatever lies in
memory after the datagram. -/
def ExactAcceptance (data : List UInt8) : Prop :=
  ∀ beyond : Nat → UInt8,
    ((bcMessageDeserialize allocates ⟨data, beyond⟩).isSome = true ↔
      bcMessageHeaderSize ≤ data.length ∧
        bcMessageHeaderSize + declaredLength data ≤ data.length) ∧
    ∀ msg, bcMessageDeserialize allocates ⟨data, beyond⟩ = some msg →
      msg.payload = (data.drop bcMessageHeaderSize).take (declaredLength data) ∧
        ∀ elsewhere : Nat → UInt8,
          bcMessageDeserialize allocates ⟨data, elsewhere⟩ = some msg

/-- The bounds check is right unless the 32-bit sum wraps on a datagram that
does not hold its payload: a wrapped sum is below the header size, so every
such datagram is accepted and read past its end. -/
theorem exact_acceptance_iff (data : List UInt8) :
    ExactAcceptance data ↔
      data.length < bcMessageHeaderSize ∨
      bcMessageHeaderSize + declaredLength data < 2 ^ 32 ∨
      bcMessageHeaderSize + declaredLength data ≤ data.length := by
  constructor
  · intro exact
    by_contra outside
    push Not at outside
    obtain ⟨header, wraps, short⟩ := outside
    have declared : declaredLength data < 2 ^ 32 := by
      have bound := BigEndian.decode_lt ((data.drop 89).take 4)
      have size : ((data.drop 89).take 4).length ≤ 4 := List.length_take_le _ _
      exact lt_of_lt_of_le bound (Nat.pow_le_pow_right (by decide) size)
    have accepted := (deserialize_is_some_iff data (fun _ => 0)).mpr
      ⟨header, by
        rw [Nat.mod_eq_sub_mod wraps, Nat.mod_eq_of_lt (by simp [bcMessageHeaderSize]; omega)]
        simp only [bcMessageHeaderSize] at header ⊢
        omega⟩
    have held := ((exact (fun _ => 0)).1.mp accepted).2
    omega
  · intro condition beyond
    have check : bcMessageHeaderSize ≤ data.length →
        ((bcMessageHeaderSize + declaredLength data) % 2 ^ 32 ≤ data.length ↔
          bcMessageHeaderSize + declaredLength data ≤ data.length) := by
      intro header
      rcases condition with short | fits | held
      · omega
      · rw [Nat.mod_eq_of_lt fits]
      · exact ⟨fun _ => held, fun _ => (Nat.mod_le _ _).trans held⟩
    have accepts : (bcMessageDeserialize allocates ⟨data, beyond⟩).isSome = true ↔
        bcMessageHeaderSize ≤ data.length ∧
          bcMessageHeaderSize + declaredLength data ≤ data.length := by
      rw [deserialize_is_some_iff]
      exact ⟨fun both => ⟨both.1, (check both.1).mp both.2⟩,
        fun both => ⟨both.1, (check both.1).mpr both.2⟩⟩
    refine ⟨accepts, ?_⟩
    intro msg accepted
    obtain ⟨header, inside⟩ := accepts.mp (Option.isSome_iff_exists.mpr ⟨msg, accepted⟩)
    have parsed := (deserialize_eq_some_iff _ _ _).mp accepted
    have same : messageAt ⟨data, beyond⟩ = msg := parsed.2.2.2.2
    constructor
    · rw [← same]
      change (⟨data, beyond⟩ : Memory).read 93 (readU32Be ⟨data, beyond⟩ 89).toNat = _
      rw [declared_length_field data beyond header, Memory.read_inside _ _ _ inside]
      rfl
    · intro elsewhere
      rw [deserialize_eq_some_iff, declared_length_field data elsewhere header]
      refine ⟨header, (check header).mpr inside, rfl, fun _ => rfl, ?_⟩
      rw [message_at_data_only data elsewhere beyond header inside, same]

/-- A bare header that declares `2 ^ 32 - 1` payload bytes. -/
def wrappingHeader : List UInt8 := List.replicate 89 0 ++ List.replicate 4 255

theorem wrapping_header_accepted : ¬ ExactAcceptance wrappingHeader := by
  intro exact
  have accepted : (bcMessageDeserialize allocates ⟨wrappingHeader, fun _ => 0⟩).isSome = true := by
    decide
  have held := ((exact (fun _ => 0)).1.mp accepted).2
  exact absurd held (by decide)

end BitChat.WireMessage
