import Mathlib.Logic.Function.Basic
import Mathlib.Data.Nat.Find
import Mathlib.Tactic.ByContra
import Mathlib.Tactic.SplitIfs

/-!
# Bounded scans and linear probing

`scan` is a counted loop with an early return and `visited` the rounds it
runs. A probe walk visits the slots `(home + i) % cap` in turn, and a key can
be found again exactly when no slot between its home and its own slot is
vacant. The lemmas say which writes keep these walks intact: filling a slot
never breaks one, emptying a slot breaks those that pass over it.
-/

namespace LinearProbing

set_option autoImplicit false

/-- Run `step` at `index`, `index + 1`, ... for at most `left` rounds and
return the first result. -/
def scan {Result : Type} (step : Nat → Option Result) : Nat → Nat → Option Result
  | 0, _ => none
  | left + 1, index => match step index with
      | some result => some result
      | none => scan step left (index + 1)

theorem scan_eq_none_iff {Result : Type} (step : Nat → Option Result) (left index : Nat) :
    scan step left index = none ↔ ∀ i, index ≤ i → i < index + left → step i = none := by
  induction left generalizing index with
  | zero =>
      simp only [scan, true_iff]
      intro i lower upper
      omega
  | succ left ih =>
      rw [scan]
      cases here : step index with
      | some result =>
          simp only [reduceCtorEq, false_iff]
          intro silent
          have := silent index (Nat.le_refl _) (by omega)
          rw [here] at this
          cases this
      | none =>
          simp only [ih]
          constructor
          · intro later i lower upper
            by_cases same : i = index
            · rw [same, here]
            · exact later i (by omega) (by omega)
          · intro all i lower upper
            exact all i (by omega) (by omega)

theorem scan_eq_some_iff {Result : Type} (step : Nat → Option Result) (left index : Nat)
    (result : Result) :
    scan step left index = some result ↔
      ∃ k, index ≤ k ∧ k < index + left ∧ step k = some result ∧
        ∀ i, index ≤ i → i < k → step i = none := by
  induction left generalizing index with
  | zero =>
      simp only [scan, reduceCtorEq, false_iff]
      rintro ⟨k, lower, upper, -⟩
      omega
  | succ left ih =>
      rw [scan]
      cases here : step index with
      | some value =>
          simp only
          constructor
          · intro same
            exact ⟨index, Nat.le_refl _, by omega, here.trans same, by omega⟩
          · rintro ⟨k, lower, -, found, before⟩
            have atStart : k = index := by
              by_contra different
              have silent := before index (Nat.le_refl _) (by omega)
              rw [here] at silent
              cases silent
            rw [← here, ← atStart, found]
      | none =>
          simp only [ih]
          constructor
          · rintro ⟨k, lower, upper, found, before⟩
            refine ⟨k, by omega, by omega, found, ?_⟩
            intro i start stop
            by_cases same : i = index
            · rw [same, here]
            · exact before i (by omega) stop
          · rintro ⟨k, lower, upper, found, before⟩
            have later : k ≠ index := by
              intro same
              rw [same, here] at found
              cases found
            exact ⟨k, by omega, by omega, found, fun i start stop => before i (by omega) stop⟩

def visited {Result : Type} (step : Nat → Option Result) : Nat → Nat → List Nat
  | 0, _ => []
  | left + 1, index => index :: match step index with
      | some _ => []
      | none => visited step left (index + 1)

theorem exists_step (cap home slot : Nat) (bound : slot < cap) :
    ∃ k, k < cap ∧ (home + k) % cap = slot := by
  have positive : 0 < cap := by omega
  refine ⟨(slot + (cap - home % cap)) % cap, Nat.mod_lt _ positive, ?_⟩
  have homeBound : home % cap < cap := Nat.mod_lt _ positive
  calc
    (home + (slot + (cap - home % cap)) % cap) % cap
        = (home % cap + (slot + (cap - home % cap))) % cap := by
          rw [Nat.add_mod_mod, ← Nat.mod_add_mod]
    _ = (slot + cap) % cap := by
          congr 1
          omega
    _ = slot := by rw [Nat.add_mod_right, Nat.mod_eq_of_lt bound]

section Walks

variable {Slot : Type} (filled : Slot → Prop)

/-- No slot before step `steps` of the walk from `home` is vacant. -/
def Walk (table : Nat → Slot) (cap home steps : Nat) : Prop :=
  ∀ i, i < steps → filled (table ((home + i) % cap))

/-- `slot` is found by a walk from `home` that stops at the first vacancy. -/
def Reaches (table : Nat → Slot) (cap home slot : Nat) : Prop :=
  ∃ k, k < cap ∧ (home + k) % cap = slot ∧ Walk filled table cap home k

variable {filled}

theorem Walk.mono {before after : Nat → Slot} {cap home steps : Nat}
    (kept : ∀ i, i < steps → filled (before ((home + i) % cap)) →
      filled (after ((home + i) % cap)))
    (walk : Walk filled before cap home steps) : Walk filled after cap home steps :=
  fun i bound => kept i bound (walk i bound)

theorem Walk.update {table : Nat → Slot} {cap home steps : Nat} (slot : Nat) {entry : Slot}
    (fills : filled entry) (walk : Walk filled table cap home steps) :
    Walk filled (Function.update table slot entry) cap home steps := by
  apply walk.mono
  intro i _ was
  by_cases same : (home + i) % cap = slot
  · rw [same, Function.update_self]
    exact fills
  · rw [Function.update_of_ne same]
    exact was

theorem Reaches.update {table : Nat → Slot} {cap home target : Nat} (slot : Nat) {entry : Slot}
    (fills : filled entry) (reaches : Reaches filled table cap home target) :
    Reaches filled (Function.update table slot entry) cap home target := by
  obtain ⟨k, bound, lands, walk⟩ := reaches
  exact ⟨k, bound, lands, walk.update slot fills⟩

/-- The lookup loop: stop without success at a vacant slot, with success at
a filled slot that matches. It succeeds exactly when a matching slot is
reached with only filled slots up to and including it. -/
theorem lookup_iff (filled : Slot → Prop) [DecidablePred filled] (hit : Slot → Prop) [DecidablePred hit]
    (table : Nat → Slot) (cap home : Nat) :
    (scan (fun i =>
        if ¬ filled (table ((home + i) % cap)) then some false
        else if hit (table ((home + i) % cap)) then some true
        else none) cap 0).getD false = true ↔
      ∃ k, k < cap ∧ hit (table ((home + k) % cap)) ∧ Walk filled table cap home (k + 1) := by
  rw [Option.getD_eq_iff]
  simp only [Bool.false_eq_true, and_false, or_false, scan_eq_some_iff, Nat.zero_le, Nat.zero_add,
    true_and, forall_const]
  constructor
  · rintro ⟨k, bound, found, before⟩
    refine ⟨k, bound, ?_, ?_⟩
    · split_ifs at found with vacant matched
      · exact matched
      · cases found
    · intro i upTo
      by_contra vacant
      rcases Nat.lt_succ_iff_lt_or_eq.mp upTo with earlier | same
      · have silent := before i earlier
        simp [vacant] at silent
      · subst same
        simp [vacant] at found
  · rintro ⟨k, bound, matched, walk⟩
    -- The loop stops at the first match, which need not be the given one.
    let first := Nat.find (⟨k, matched⟩ : ∃ i, hit (table ((home + i) % cap)))
    have firstHit : hit (table ((home + first) % cap)) :=
      Nat.find_spec (⟨k, matched⟩ : ∃ i, hit (table ((home + i) % cap)))
    have firstLe : first ≤ k := Nat.find_min' _ matched
    refine ⟨first, by omega, ?_, ?_⟩
    · simp [walk first (by omega), firstHit]
    · intro i earlier
      have noHit := Nat.find_min (⟨k, matched⟩ : ∃ i, hit (table ((home + i) % cap))) earlier
      simp [walk i (by omega), noHit]

end Walks

end LinearProbing
