import BitChat.PubKeyHex
import BitChat.WireMessage
import Mathlib.Data.List.GetD

/-!
# What the screens show of a key

Transcription of `PubKeyUtils.generateDisplayName` and `shortHex`. A contact
without a name of its own appears under an adjective, an animal and four
digits, and next to it stand the ends of its key. Name and ends together tell
six of the 32 bytes. The colour of the avatar, computed in floating point from
three bytes of which one is not among the six, is left out.
-/

namespace BitChat.DisplayName

open BitChat.WireMessage BitChat.KotlinText BitChat.PubKeyHex

set_option autoImplicit false

def kotlin (text : String) : KotlinString := text.toList.map fun c => UInt16.ofNat c.toNat

def adjectives : List KotlinString :=
  ["Brave", "Calm", "Bold", "Keen", "Swift",
    "Noble", "Wise", "Pale", "Dark", "Warm",
    "Bright", "Cool", "Fierce", "Gentle", "Quiet",
    "Vivid", "Steady", "Grand", "Stout", "Agile",
    "Lucky", "Witty", "Proud", "Merry", "Clear",
    "Solid", "Fresh", "Brisk", "Loyal", "Quick",
    "Sharp", "Smart", "Tough", "Deft", "Eager",
    "Fair", "Firm", "Glad", "Hardy", "Kind",
    "Light", "Neat", "Prime", "Rare", "Safe",
    "Sleek", "True", "Vast", "Wild", "Young",
    "Amber", "Azure", "Coral", "Ivory", "Jade",
    "Rusty", "Sandy", "Storm", "Tidal", "Lunar",
    "Solar", "Polar", "Misty", "Frosty"].map kotlin

def animals : List KotlinString :=
  ["Fox", "Wolf", "Bear", "Hawk", "Lynx",
    "Deer", "Hare", "Crow", "Seal", "Wren",
    "Otter", "Eagle", "Badger", "Falcon", "Raven",
    "Tiger", "Crane", "Panda", "Whale", "Bison",
    "Heron", "Robin", "Finch", "Dingo", "Koala",
    "Moose", "Eland", "Gecko", "Newt", "Shrew",
    "Viper", "Perch", "Trout", "Pike", "Ibis",
    "Kiwi", "Lark", "Moth", "Wasp", "Crab",
    "Dove", "Frog", "Goat", "Mink", "Puma",
    "Swan", "Toad", "Yak", "Mule", "Owl",
    "Colt", "Lamb", "Stag", "Boar", "Hound",
    "Shark", "Squid", "Lemur", "Stoat", "Quail",
    "Snipe", "Egret", "Swift", "Marten"].map kotlin

/-- A digit of `%02X`. -/
def upperUnit (value : Nat) : UInt16 :=
  if value < 10 then 0x30 + UInt16.ofNat value else 0x37 + UInt16.ofNat value

def toUpperHex (bytes : List UInt8) : KotlinString :=
  bytes.flatMap fun byte => [upperUnit (byte.toNat / 16), upperUnit (byte.toNat % 16)]

def takeLast (n : Nat) (s : KotlinString) : KotlinString := s.drop (s.length - n)

def wordOf (words : List KotlinString) (byte : UInt8) : KotlinString :=
  words.getD (byte.toNat % words.length) []

def generateDisplayName (pubKey : Pubkey) : KotlinString :=
  wordOf adjectives (pubKey.get 0) ++ wordOf animals (pubKey.get 1) ++ kotlin "-" ++
    takeLast 4 (toUpperHex (pubKey.toList.take 4))

def shortHex (pubKey : Pubkey) : KotlinString :=
  let hex := toHex pubKey.toList
  hex.take 4 ++ kotlin "..." ++ takeLast 4 hex

/-! ### Reading a name -/

def isLower (c : UInt16) : Bool := 0x61 ≤ c && c ≤ 0x7A

def isCapitalized (word : KotlinString) : Bool :=
  match word with
  | [] => false
  | first :: others => !isLower first && others.all isLower

theorem adjectives_capitalized : adjectives.all isCapitalized = true := by decide +kernel

theorem animals_capitalized : animals.all isCapitalized = true := by decide +kernel

theorem adjectives_distinct : adjectives.Nodup := by decide +kernel

theorem animals_distinct : animals.Nodup := by decide +kernel

theorem word_of_member {words : List KotlinString} (nonempty : words ≠ []) (byte : UInt8) :
    wordOf words byte ∈ words := by
  have bound : byte.toNat % words.length < words.length :=
    Nat.mod_lt _ (List.length_pos_of_ne_nil nonempty)
  rw [wordOf, List.getD_eq_getElem _ _ bound]
  exact List.getElem_mem bound

theorem word_of_injective {words : List KotlinString} (nonempty : words ≠ [])
    (distinct : words.Nodup) {first second : UInt8} :
    wordOf words first = wordOf words second ↔
      first.toNat % words.length = second.toNat % words.length := by
  have bound : ∀ byte : UInt8, byte.toNat % words.length < words.length :=
    fun byte => Nat.mod_lt _ (List.length_pos_of_ne_nil nonempty)
  rw [wordOf, wordOf, List.getD_eq_getElem _ _ (bound first),
    List.getD_eq_getElem _ _ (bound second)]
  exact distinct.getElem_inj_iff

def Stops (rest : KotlinString) : Prop := (rest.takeWhile isLower) = []

theorem lower_part {word rest : KotlinString} (lower : word.all isLower = true)
    (stops : Stops rest) : (word ++ rest).takeWhile isLower = word := by
  rw [List.takeWhile_append_of_pos (List.all_eq_true.mp lower), stops, List.append_nil]

theorem capitalized_stops {word : KotlinString} (isWord : isCapitalized word = true)
    (rest : KotlinString) : Stops (word ++ rest) := by
  cases word with
  | nil => cases isWord
  | cons first others =>
      rw [isCapitalized, Bool.and_eq_true, Bool.not_eq_true'] at isWord
      rw [Stops, List.cons_append, List.takeWhile_cons_of_neg (by rw [isWord.1]; decide)]

theorem word_split {word other rest others : KotlinString} (isWord : isCapitalized word = true)
    (isOther : isCapitalized other = true) (stops : Stops rest) (alsoStops : Stops others) :
    word ++ rest = other ++ others ↔ word = other ∧ rest = others := by
  constructor
  · intro same
    cases word with
    | nil => cases isWord
    | cons first lower =>
        cases other with
        | nil => cases isOther
        | cons second alsoLower =>
            rw [isCapitalized, Bool.and_eq_true] at isWord isOther
            rw [List.cons_append, List.cons_append, List.cons.injEq] at same
            obtain ⟨sameFirst, later⟩ := same
            have sameLower : lower = alsoLower := by
              rw [← lower_part isWord.2 stops, later, lower_part isOther.2 alsoStops]
            rw [sameFirst, sameLower]
            rw [sameLower] at later
            exact ⟨rfl, List.append_cancel_left later⟩
  · rintro ⟨sameWord, sameRest⟩
    rw [sameWord, sameRest]

/-! ### What is shown -/

theorem to_upper_hex_injective {first second : List UInt8}
    (same : toUpperHex first = toUpperHex second) : first = second := by
  have distinct : ∀ a < 16, ∀ b < 16, upperUnit a = upperUnit b → a = b := by decide
  exact digits_injective distinct same

theorem take_last_append {s last : KotlinString} {n : Nat} (size : last.length = n) :
    takeLast n (s ++ last) = last := by
  rw [takeLast, List.length_append, size, Nat.add_sub_cancel, List.drop_left]

theorem to_hex_append (first second : List UInt8) :
    toHex (first ++ second) = toHex first ++ toHex second := List.flatMap_append

theorem to_hex_length (bytes : List UInt8) : (toHex bytes).length = bytes.length * 2 := by
  simp [toHex]

theorem to_upper_hex_append (first second : List UInt8) :
    toUpperHex (first ++ second) = toUpperHex first ++ toUpperHex second := List.flatMap_append

theorem to_upper_hex_length (bytes : List UInt8) :
    (toUpperHex bytes).length = bytes.length * 2 := by
  simp [toUpperHex]

theorem name_suffix (pubKey : Pubkey) :
    takeLast 4 (toUpperHex (pubKey.toList.take 4)) =
      toUpperHex ((pubKey.toList.take 4).drop 2) := by
  have size : (toUpperHex ((pubKey.toList.take 4).drop 2)).length = 4 := by
    rw [to_upper_hex_length, List.length_drop, List.length_take, pubKey.toList_length]
    rfl
  conv_lhs => rw [← List.take_append_drop 2 (pubKey.toList.take 4), to_upper_hex_append]
  exact take_last_append size

theorem short_hex_eq (pubKey : Pubkey) :
    shortHex pubKey = toHex (pubKey.toList.take 2) ++ kotlin "..." ++
      toHex (pubKey.toList.drop 30) := by
  have front : (toHex pubKey.toList).take 4 = toHex (pubKey.toList.take 2) := by
    conv_lhs => rw [← List.take_append_drop 2 pubKey.toList, to_hex_append]
    apply List.take_left'
    rw [to_hex_length, List.length_take, pubKey.toList_length]
    rfl
  have back : takeLast 4 (toHex pubKey.toList) = toHex (pubKey.toList.drop 30) := by
    conv_lhs => rw [← List.take_append_drop 30 pubKey.toList, to_hex_append]
    apply take_last_append
    rw [to_hex_length, List.length_drop, pubKey.toList_length]
  simp only [shortHex, front, back]

theorem short_hex_iff (a b : Pubkey) :
    shortHex a = shortHex b ↔
      a.toList.take 2 = b.toList.take 2 ∧ a.toList.drop 30 = b.toList.drop 30 := by
  rw [short_hex_eq, short_hex_eq]
  constructor
  · intro same
    have fronts : (toHex (a.toList.take 2)).length = (toHex (b.toList.take 2)).length := by
      simp only [to_hex_length, List.length_take, List.Vector.toList_length]
    rw [List.append_assoc, List.append_assoc] at same
    obtain ⟨front, rest⟩ := List.append_inj same fronts
    exact ⟨to_hex_injective front, to_hex_injective (List.append_cancel_left rest)⟩
  · rintro ⟨front, back⟩
    rw [front, back]

/-- No two pairs of adjective and animal run together into one text. -/
theorem words_split {adjective other animal beast : KotlinString}
    (isAdjective : adjective ∈ adjectives) (isOther : other ∈ adjectives)
    (isAnimal : animal ∈ animals) (isBeast : beast ∈ animals)
    (same : adjective ++ animal = other ++ beast) : adjective = other ∧ animal = beast := by
  have capitalAdjective := List.all_eq_true.mp adjectives_capitalized
  have capitalAnimal := List.all_eq_true.mp animals_capitalized
  have stops : ∀ word ∈ animals, Stops word := by
    intro word member
    have alone := capitalized_stops (capitalAnimal word member) []
    rwa [List.append_nil] at alone
  exact (word_split (capitalAdjective _ isAdjective) (capitalAdjective _ isOther)
    (stops _ isAnimal) (stops _ isBeast)).mp same

/-- Two keys get the same name exactly when their first two bytes agree modulo
64 and the next two agree. -/
theorem same_name_iff (a b : Pubkey) :
    generateDisplayName a = generateDisplayName b ↔
      (a.get 0).toNat % 64 = (b.get 0).toNat % 64 ∧ (a.get 1).toNat % 64 = (b.get 1).toNat % 64 ∧
        (a.toList.take 4).drop 2 = (b.toList.take 4).drop 2 := by
  have adjective : ∀ byte, isCapitalized (wordOf adjectives byte) = true := fun byte =>
    List.all_eq_true.mp adjectives_capitalized _ (word_of_member (by decide) byte)
  have animal : ∀ byte, isCapitalized (wordOf animals byte) = true := fun byte =>
    List.all_eq_true.mp animals_capitalized _ (word_of_member (by decide) byte)
  have dash : ∀ rest, Stops (kotlin "-" ++ rest) := fun _ => rfl
  rw [generateDisplayName, generateDisplayName, name_suffix, name_suffix]
  simp only [List.append_assoc]
  rw [word_split (adjective _) (adjective _) (capitalized_stops (animal _) _)
      (capitalized_stops (animal _) _),
    word_split (animal _) (animal _) (dash _) (dash _),
    word_of_injective (by decide) adjectives_distinct,
    word_of_injective (by decide) animals_distinct, List.append_cancel_left_eq]
  have sizes : adjectives.length = 64 ∧ animals.length = 64 := by decide
  rw [sizes.1, sizes.2]
  constructor
  · rintro ⟨first, second, digits⟩
    exact ⟨first, second, to_upper_hex_injective digits⟩
  · rintro ⟨first, second, bytes⟩
    exact ⟨first, second, by rw [bytes]⟩

theorem get_of_take {a b : Pubkey} {n : Nat} (same : a.toList.take n = b.toList.take n)
    {i : Fin 32} (early : i.val < n) : a.get i = b.get i := by
  have taken : (a.toList.take n)[i.val]? = (b.toList.take n)[i.val]? := by rw [same]
  rw [List.getElem?_take_of_lt early, List.getElem?_take_of_lt early,
    List.getElem?_eq_getElem (by simp), List.getElem?_eq_getElem (by simp)] at taken
  rw [List.Vector.get_eq_get_toList, List.Vector.get_eq_get_toList]
  exact Option.some.inj taken

theorem same_name_and_ends_iff (a b : Pubkey) :
    generateDisplayName a = generateDisplayName b ∧ shortHex a = shortHex b ↔
      a.toList.take 4 = b.toList.take 4 ∧ a.toList.drop 30 = b.toList.drop 30 := by
  have halves : ∀ key : Pubkey,
      key.toList.take 4 = key.toList.take 2 ++ (key.toList.take 4).drop 2 := by
    intro key
    conv_lhs => rw [← List.take_append_drop 2 (key.toList.take 4), List.take_take]
    rfl
  rw [same_name_iff, short_hex_iff]
  constructor
  · rintro ⟨⟨-, -, middle⟩, front, back⟩
    refine ⟨?_, back⟩
    rw [halves a, halves b, front, middle]
  · rintro ⟨front, back⟩
    have first : a.get 0 = b.get 0 := get_of_take front (by decide)
    have second : a.get 1 = b.get 1 := get_of_take front (by decide)
    have start : a.toList.take 2 = b.toList.take 2 := by
      have taken := congrArg (List.take 2) front
      rwa [List.take_take, List.take_take] at taken
    exact ⟨⟨by rw [first], by rw [second], by rw [front]⟩, start, back⟩

/-- What a generated name tells: since no two pairs of words run together, the
first two bytes modulo 64 and the next two. With the short form it tells the
first four and the last two bytes. -/
theorem shown_alike_iff (a b : Pubkey) :
    (∀ adjective ∈ adjectives, ∀ other ∈ adjectives, ∀ animal ∈ animals, ∀ beast ∈ animals,
      adjective ++ animal = other ++ beast → adjective = other ∧ animal = beast) ∧
    (generateDisplayName a = generateDisplayName b ↔
      (a.get 0).toNat % 64 = (b.get 0).toNat % 64 ∧ (a.get 1).toNat % 64 = (b.get 1).toNat % 64 ∧
        (a.toList.take 4).drop 2 = (b.toList.take 4).drop 2) ∧
    (generateDisplayName a = generateDisplayName b ∧ shortHex a = shortHex b ↔
      a.toList.take 4 = b.toList.take 4 ∧ a.toList.drop 30 = b.toList.drop 30) :=
  ⟨fun _ isAdjective _ isOther _ isAnimal _ isBeast =>
    words_split isAdjective isOther isAnimal isBeast, same_name_iff a b,
    same_name_and_ends_iff a b⟩

end BitChat.DisplayName
