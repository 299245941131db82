import BitChat.CommandLine
import Mathlib.Data.List.TakeDrop

/-!
# A session of the command line client

Transcription of the input loop of `cli/main.c`, of its start with the key
file and of what it prints for a message. `fgets` reads at most 4095
characters at a time, so a line that was typed is read whole if it is short
enough, and in pieces that are commands of their own if it is not.
-/

namespace BitChat.CliSession

open BitChat.WireMessage BitChat.CryptoManager BitChat.FfiCore BitChat.CommandLine
open BitChat.PubKeyHex

set_option autoImplicit false

/-! ### Input -/

/-- What `fgets` with room for `room` characters takes from the input, the
newline included, and what it leaves. -/
def takeLine : Nat → List UInt8 → List UInt8 × List UInt8
  | 0, input => ([], input)
  | _ + 1, [] => ([], [])
  | room + 1, c :: rest =>
      if c = 0x0A then ([c], rest)
      else (c :: (takeLine room rest).1, (takeLine room rest).2)

theorem take_line_append (room : Nat) (input : List UInt8) :
    (takeLine room input).1 ++ (takeLine room input).2 = input := by
  induction room, input using takeLine.induct with
  | case1 input => rfl
  | case2 room => rfl
  | case3 room rest => simp [takeLine]
  | case4 room c rest other ih => simp [takeLine, other, ih]

theorem take_line_length (room : Nat) (input : List UInt8) :
    (takeLine room input).1.length ≤ room := by
  induction room, input using takeLine.induct with
  | case1 input => exact Nat.le_refl 0
  | case2 room => exact Nat.zero_le _
  | case3 room rest => simp [takeLine]
  | case4 room c rest other ih => simpa [takeLine, other] using ih

/-- The string in the buffer after `fgets` and the removal of the newline. -/
structure Line where
  chars : List UInt8
  nonzero : ∀ c ∈ chars, c ≠ 0
  short : chars.length < 4096

/-- `strlen` stops at a zero byte of the input, if there is one. -/
def stripNewline (line : List UInt8) : List UInt8 :=
  let text := line.takeWhile fun c => c ≠ 0
  if text.getLast? = some 0x0A then text.dropLast else text

theorem mem_strip_newline {line : List UInt8} {c : UInt8} (member : c ∈ stripNewline line) :
    c ∈ line.takeWhile fun c => c ≠ 0 := by
  unfold stripNewline at member
  simp only at member
  split_ifs at member
  · exact (List.dropLast_sublist _).subset member
  · exact member

theorem strip_newline_length (line : List UInt8) : (stripNewline line).length ≤ line.length := by
  have shorter : (line.takeWhile fun c => c ≠ 0).length ≤ line.length :=
    (List.takeWhile_sublist _).length_le
  unfold stripNewline
  simp only
  split_ifs
  · rw [List.length_dropLast]
    omega
  · exact shorter

def lineOf (input : List UInt8) : Line where
  chars := stripNewline (takeLine 4095 input).1
  nonzero := by
    intro c member
    simpa using List.mem_takeWhile_imp (mem_strip_newline member)
  short := by
    have bound := take_line_length 4095 input
    have shorter := strip_newline_length (takeLine 4095 input).1
    omega

theorem take_line_progress (c : UInt8) (rest : List UInt8) :
    (takeLine 4095 (c :: rest)).2.length < (c :: rest).length := by
  have whole := congrArg List.length (take_line_append 4095 (c :: rest))
  have taken : 0 < (takeLine 4095 (c :: rest)).1.length := by
    rw [takeLine]
    split_ifs <;> simp
  rw [List.length_append] at whole
  omega

def inputLines (input : List UInt8) : List Line :=
  match input with
  | [] => []
  | c :: rest => lineOf (c :: rest) :: inputLines (takeLine 4095 (c :: rest)).2
termination_by input.length
decreasing_by exact take_line_progress c rest

inductive Command where
  | info
  | peers
  | msg (args : CString)
  | quit
  | unknown

def infoText : List UInt8 := [0x2F, 0x69, 0x6E, 0x66, 0x6F]
def peersText : List UInt8 := [0x2F, 0x70, 0x65, 0x65, 0x72, 0x73]
def msgText : List UInt8 := [0x2F, 0x6D, 0x73, 0x67, 0x20]
def quitText : List UInt8 := [0x2F, 0x71, 0x75, 0x69, 0x74]

def Line.args (line : Line) : CString where
  chars := line.chars.drop 5
  nonzero := fun c member => line.nonzero c (List.mem_of_mem_drop member)
  fits := by
    have short := line.short
    rw [List.length_drop]
    omega

/-- The comparisons of the loop in their order; an empty line is skipped. -/
def dispatch (line : Line) : Option Command :=
  if line.chars.length = 0 then none
  else if line.chars = infoText then some .info
  else if line.chars = peersText then some .peers
  else if line.chars.take 5 = msgText then some (.msg line.args)
  else if line.chars = quitText then some .quit
  else some .unknown

/-- The commands that are carried out, up to the first `/quit`. At the end of
the input the client goes on as a relay. -/
def runLines : List Line → List Command
  | [] => []
  | line :: rest =>
      match dispatch line with
      | none => runLines rest
      | some .quit => [.quit]
      | some command => command :: runLines rest

def mainLoop (input : List UInt8) : List Command := runLines (inputLines input)

theorem take_line_typed (typed rest : List UInt8) (single : ∀ c ∈ typed, c ≠ 0x0A) :
    ∀ room, typed.length < room →
      takeLine room (typed ++ 0x0A :: rest) = (typed ++ [0x0A], rest) := by
  induction typed with
  | nil =>
      intro room fits
      obtain ⟨less, rfl⟩ : ∃ less, room = less + 1 := ⟨room - 1, by simp at fits; omega⟩
      rfl
  | cons c later ih =>
      intro room fits
      obtain ⟨less, rfl⟩ : ∃ less, room = less + 1 := ⟨room - 1, by simp at fits; omega⟩
      have here : c ≠ 0x0A := single c List.mem_cons_self
      have others := ih (fun c member => single c (List.mem_cons_of_mem _ member)) less
        (by simp only [List.length_cons] at fits; omega)
      simp only [List.cons_append, takeLine, if_neg here, others]

theorem strip_newline_typed {typed : List UInt8} (nonzero : ∀ c ∈ typed, c ≠ 0) :
    stripNewline (typed ++ [0x0A]) = typed := by
  have all : ((typed ++ [0x0A]).takeWhile fun c => c ≠ 0) = typed ++ [0x0A] := by
    apply List.takeWhile_eq_self_iff.mpr
    intro c member
    rcases List.mem_append.mp member with inTyped | newline
    · simpa using nonzero c inTyped
    · rw [List.mem_singleton.mp newline]
      rfl
  simp only [stripNewline, all]
  simp

/-- A line as it is typed: it fits into the buffer together with its newline. -/
structure Typed (line : Line) : Prop where
  single : ∀ c ∈ line.chars, c ≠ 0x0A
  fits : line.chars.length < 4095

def typedBytes (lines : List Line) : List UInt8 := lines.flatMap fun line => line.chars ++ [0x0A]

theorem input_lines_typed (lines : List Line) (rest : List UInt8)
    (typed : ∀ line ∈ lines, Typed line) :
    inputLines (typedBytes lines ++ rest) = lines ++ inputLines rest := by
  induction lines with
  | nil => rfl
  | cons line later ih =>
      have here := typed line List.mem_cons_self
      have others := ih fun other member => typed other (List.mem_cons_of_mem _ member)
      have split : typedBytes (line :: later) ++ rest =
          line.chars ++ 0x0A :: (typedBytes later ++ rest) := by
        simp [typedBytes]
      have taken := take_line_typed line.chars (typedBytes later ++ rest) here.single 4095 here.fits
      have first : lineOf (line.chars ++ 0x0A :: (typedBytes later ++ rest)) = line := by
        obtain ⟨chars, nonzero, short⟩ := line
        simp only [lineOf, taken, strip_newline_typed nonzero]
      obtain ⟨c, more, begins⟩ : ∃ c more, line.chars ++ 0x0A :: (typedBytes later ++ rest) =
          c :: more := List.exists_cons_of_ne_nil (by simp)
      rw [split]
      rw [begins] at first taken ⊢
      rw [inputLines, first, taken, others]
      rfl

theorem input_lines_full (piece : Line) (rest : List UInt8) (single : ∀ c ∈ piece.chars, c ≠ 0x0A)
    (full : piece.chars.length = 4095) :
    inputLines (piece.chars ++ rest) = piece :: inputLines rest := by
  have taken : ∀ chars : List UInt8, (∀ c ∈ chars, c ≠ 0x0A) →
      takeLine chars.length (chars ++ rest) = (chars, rest) := by
    intro chars
    induction chars with
    | nil => exact fun _ => by cases rest <;> rfl
    | cons c later ih =>
        intro other
        have here : c ≠ 0x0A := other c List.mem_cons_self
        simp only [List.length_cons, List.cons_append, takeLine, if_neg here,
          ih fun c member => other c (List.mem_cons_of_mem _ member)]
  have whole := taken piece.chars single
  rw [full] at whole
  have first : lineOf (piece.chars ++ rest) = piece := by
    obtain ⟨chars, nonzero, short⟩ := piece
    have all : (chars.takeWhile fun c => c ≠ 0) = chars := by
      apply List.takeWhile_eq_self_iff.mpr
      exact fun c member => by simpa using nonzero c member
    have last : chars.getLast? ≠ some 0x0A :=
      fun ends => single 0x0A (List.mem_of_getLast? ends) rfl
    simp only [lineOf, whole, stripNewline, all, if_neg last]
  obtain ⟨c, more, begins⟩ : ∃ c more, piece.chars ++ rest = c :: more :=
    List.exists_cons_of_length_pos (by rw [List.length_append]; omega)
  rw [begins] at first whole ⊢
  rw [inputLines, first, whole]

theorem run_lines_append (lines rest : List Line) (running : ∀ line ∈ lines, dispatch line ≠ some .quit) :
    runLines (lines ++ rest) = lines.filterMap dispatch ++ runLines rest := by
  induction lines with
  | nil => rfl
  | cons line later ih =>
      have others := ih fun other member => running other (List.mem_cons_of_mem _ member)
      have here := running line List.mem_cons_self
      rw [List.cons_append, runLines]
      cases command : dispatch line with
      | none => rw [List.filterMap_cons_none command, others]
      | some first =>
          rw [List.filterMap_cons_some command, List.cons_append]
          cases first with
          | quit => exact absurd command here
          | info => rw [others]
          | peers => rw [others]
          | msg args => rw [others]
          | unknown => rw [others]

theorem dispatch_quit_iff (line : Line) : dispatch line = some .quit ↔ line.chars = quitText := by
  constructor
  · intro quits
    by_contra other
    simp only [dispatch, if_neg other] at quits
    split_ifs at quits
    all_goals cases quits
  · intro chars
    have others : ¬ quitText.length = 0 ∧ quitText ≠ infoText ∧ quitText ≠ peersText ∧
        quitText.take 5 ≠ msgText := by decide
    obtain ⟨nonempty, notInfo, notPeers, notMsg⟩ := others
    simp only [dispatch, chars, if_neg nonempty, if_neg notInfo, if_neg notPeers, if_neg notMsg,
      if_true]

/-- Lines that were typed before a `/quit` are carried out in their order and
nothing is after it; a line that does not fit into the buffer goes on as a
command of its own. -/
theorem session_in_order (lines : List Line) (rest : List UInt8)
    (typed : ∀ line ∈ lines, Typed line) (running : ∀ line ∈ lines, line.chars ≠ quitText) :
    mainLoop (typedBytes lines ++ rest) = lines.filterMap dispatch ++ mainLoop rest ∧
      (∀ quit : Line, quit.chars = quitText →
        mainLoop (typedBytes (lines ++ [quit]) ++ rest) = lines.filterMap dispatch ++ [.quit]) ∧
      ∀ piece : Line, (∀ c ∈ piece.chars, c ≠ 0x0A) → piece.chars.length = 4095 →
        mainLoop (typedBytes lines ++ (piece.chars ++ rest)) =
          lines.filterMap dispatch ++ ((dispatch piece).toList ++ mainLoop rest) := by
  have goesOn : ∀ line ∈ lines, dispatch line ≠ some .quit :=
    fun line member quits => running line member ((dispatch_quit_iff line).mp quits)
  refine ⟨?_, ?_, ?_⟩
  · rw [mainLoop, input_lines_typed lines rest typed, run_lines_append lines _ goesOn]
    rfl
  · intro quit chars
    have quits := (dispatch_quit_iff quit).mpr chars
    have quitTyped : Typed quit := by
      constructor
      · rw [chars]
        simp [quitText]
      · rw [chars]
        decide
    have all : ∀ line ∈ lines ++ [quit], Typed line := by
      intro line member
      rcases List.mem_append.mp member with before | last
      · exact typed line before
      · rw [List.mem_singleton.mp last]
        exact quitTyped
    rw [mainLoop, input_lines_typed _ rest all, List.append_assoc, run_lines_append lines _ goesOn,
      List.singleton_append, runLines, quits]
  · intro piece single full
    have long : dispatch piece ≠ some .quit := by
      intro quits
      rw [(dispatch_quit_iff piece).mp quits] at full
      cases full
    have others := run_lines_append [piece] (inputLines rest)
      (fun line member => by rw [List.mem_singleton.mp member]; exact long)
    have alone : [piece].filterMap dispatch = (dispatch piece).toList := by
      cases command : dispatch piece with
      | none => rw [List.filterMap_cons_none command]; rfl
      | some first => rw [List.filterMap_cons_some command]; rfl
    rw [alone] at others
    rw [mainLoop, input_lines_typed lines _ typed, run_lines_append lines _ goesOn,
      input_lines_full piece rest single full]
    exact congrArg _ others

def infoLine : Line := ⟨infoText, by simp [infoText], by decide⟩

def peersLine : Line := ⟨peersText, by simp [peersText], by decide⟩

def quitLine : Line := ⟨quitText, by simp [quitText], by decide⟩

def fullLine : Line where
  chars := List.replicate 4095 0x61
  nonzero := by
    intro c member
    rw [List.eq_of_mem_replicate member]
    decide
  short := by
    rw [List.length_replicate]
    decide

theorem full_line_unknown : dispatch fullLine = some .unknown := by
  have longer : ∀ text : List UInt8, text.length < 4095 → fullLine.chars ≠ text := by
    intro text short same
    rw [← same, fullLine, List.length_replicate] at short
    omega
  have other : fullLine.chars.take 5 ≠ msgText := by
    rw [fullLine, List.take_replicate]
    decide
  have nonempty : fullLine.chars.length ≠ 0 := by
    rw [fullLine, List.length_replicate]
    decide
  rw [dispatch, if_neg nonempty, if_neg (longer infoText (by decide)),
    if_neg (longer peersText (by decide)), if_neg other, if_neg (longer quitText (by decide))]

/-- Two commands, then a line of 4100 characters that ends with `/quit`: its
last five characters end the session, before the next line. -/
theorem long_line_quits :
    mainLoop (typedBytes [infoLine, peersLine] ++
        (fullLine.chars ++ (typedBytes [quitLine] ++ typedBytes [infoLine]))) =
      [.info, .peers, .unknown, .quit] := by
  have typed : ∀ line ∈ [infoLine, peersLine], Typed line := by
    intro line member
    rcases List.mem_cons.mp member with first | second
    · rw [first]
      exact ⟨by simp [infoLine, infoText], by decide⟩
    · rw [List.mem_singleton.mp second]
      exact ⟨by simp [peersLine, peersText], by decide⟩
  have running : ∀ line ∈ [infoLine, peersLine], line.chars ≠ quitText := by decide
  have single : ∀ c ∈ fullLine.chars, c ≠ 0x0A := by
    intro c member
    rw [List.eq_of_mem_replicate member]
    decide
  have pieces := (session_in_order [infoLine, peersLine]
    (typedBytes [quitLine] ++ typedBytes [infoLine]) typed running).2.2 fullLine single
    List.length_replicate
  have quits := (session_in_order [] (typedBytes [infoLine])
    (fun _ member => absurd member List.not_mem_nil)
    (fun _ member => absurd member List.not_mem_nil)).2.1 quitLine rfl
  rw [List.nil_append] at quits
  rw [pieces, full_line_unknown, quits]
  rfl

/-! ### The key file -/

/-- What a start learns from the outside: whether `fopen` gets at the key file
if there is one, whether the public key can be computed, the new key pair,
whether a new file can be opened and how many bytes of the key get into it. -/
structure StartEnv where
  readable : Bool
  scalarmult : Bool
  keypair : Option SecretKey
  writable : Bool
  written : Nat

section KeyFile

variable (sodium : Sodium)

def identityOf (secretKey : SecretKey) : BcIdentity := ⟨sodium.publicKey secretKey, secretKey⟩

/-- The identity part of `main`: the identity with which the client comes up,
or none where it exits, and the key file after it. -/
def loadOrGenerate (file : Option (List UInt8)) (env : StartEnv) :
    Option BcIdentity × Option (List UInt8) :=
  match if env.readable then file else none with
  | some bytes =>
      if (bytes.take 32).length ≠ 32 then (none, file)
      else if env.scalarmult = false then (none, file)
      else (some (identityOf sodium ((⟨bytes, fun _ => 0⟩ : Memory).fixed 0 32)), file)
  | none =>
      match env.keypair with
      | none => (none, file)
      | some secretKey =>
          if env.writable = false then (none, file)
          else (some (identityOf sodium secretKey), some (secretKey.toList.take env.written))

def identities : Option (List UInt8) → List StartEnv → List BcIdentity
  | _, [] => []
  | file, env :: rest =>
      let start := loadOrGenerate sodium file env
      start.1.toList ++ identities start.2 rest

variable {sodium}

theorem identities_of_file (bytes : List UInt8) (starts : List StartEnv)
    (readable : ∀ env ∈ starts, env.readable = true) :
    ∀ id ∈ identities sodium (some bytes) starts, (bytes.take 32).length = 32 ∧
      id = identityOf sodium ((⟨bytes, fun _ => 0⟩ : Memory).fixed 0 32) := by
  induction starts with
  | nil =>
      intro id member
      cases member
  | cons env rest ih =>
      intro id member
      have others := ih fun other inRest => readable other (List.mem_cons_of_mem _ inRest)
      simp only [identities, loadOrGenerate, readable env List.mem_cons_self, if_true] at member
      split_ifs at member with short failed
      · exact others id (by simpa using member)
      · exact others id (by simpa using member)
      · rcases List.mem_append.mp member with here | later
        · exact ⟨not_not.mp short, by simpa using here⟩
        · exact others id later

theorem identities_of_new_file (secretKey : SecretKey) (written : Nat) (starts : List StartEnv)
    (readable : ∀ env ∈ starts, env.readable = true) :
    ∀ id ∈ identities sodium (some (secretKey.toList.take written)) starts,
      id = identityOf sodium secretKey := by
  intro id member
  obtain ⟨full, isId⟩ := identities_of_file _ starts readable id member
  have complete : secretKey.toList.take written = secretKey.toList := by
    apply List.take_of_length_le
    rw [List.length_take, List.length_take] at full
    have size := secretKey.toList_length
    omega
  have read : (⟨secretKey.toList, fun _ => 0⟩ : Memory).fixed 0 32 = secretKey :=
    fixed_field [] [] secretKey (by simp) rfl
  rw [isId, complete, read]

/-- A node keeps its identity over any number of restarts: whatever fails on
the way, two starts that come up have the same one, as long as a key file
that exists can be opened. -/
theorem identity_survives_restarts (file : Option (List UInt8)) (starts : List StartEnv)
    (readable : ∀ env ∈ starts, env.readable = true) :
    ∀ first ∈ identities sodium file starts, ∀ second ∈ identities sodium file starts,
      first = second := by
  induction starts generalizing file with
  | nil =>
      intro first member
      cases member
  | cons env rest ih =>
      have later : ∀ other ∈ rest, other.readable = true :=
        fun other member => readable other (List.mem_cons_of_mem _ member)
      cases file with
      | some bytes =>
          intro first firstUp second secondUp
          obtain ⟨-, isFirst⟩ := identities_of_file bytes (env :: rest) readable first firstUp
          obtain ⟨-, isSecond⟩ := identities_of_file bytes (env :: rest) readable second secondUp
          rw [isFirst, isSecond]
      | none =>
          -- No file yet: the start fails and leaves none, or its key is the one from here on.
          simp only [identities, loadOrGenerate, readable env List.mem_cons_self, if_true]
          cases env.keypair with
          | none => simpa using ih none later
          | some secretKey =>
              simp only
              split_ifs with failed
              · simpa using ih none later
              · have same : ∀ id ∈ (some (identityOf sodium secretKey)).toList ++
                    identities sodium (some (secretKey.toList.take env.written)) rest,
                    id = identityOf sodium secretKey := by
                  intro id member
                  rcases List.mem_append.mp member with here | restarted
                  · simpa using here
                  · exact identities_of_new_file secretKey env.written rest later id restarted
                intro first firstUp second secondUp
                rw [same first firstUp, same second secondUp]

end KeyFile

def freshStart : StartEnv := ⟨true, true, some (List.Vector.replicate 32 7), true, 32⟩

def laterStart : StartEnv := ⟨true, true, some (List.Vector.replicate 32 8), true, 32⟩

theorem restarted_identity :
    identities plainSodium none [freshStart, laterStart] =
        [identityOf plainSodium (List.Vector.replicate 32 7),
          identityOf plainSodium (List.Vector.replicate 32 7)] ∧
      ∀ first ∈ identities plainSodium none [freshStart, laterStart],
        ∀ second ∈ identities plainSodium none [freshStart, laterStart], first = second :=
  ⟨by decide, identity_survives_restarts none [freshStart, laterStart] (by decide)⟩

end BitChat.CliSession
