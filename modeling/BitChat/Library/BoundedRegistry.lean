import Mathlib.Data.List.Induction
import Mathlib.Data.List.Nodup

/-!
# Registries of bounded size

Keys are enrolled in the order in which they first appear, until the registry
is full; a key that is known or refused changes nothing, and no key leaves.
What such a registry holds after any sequence of keys has a closed form: the
first occurrences, cut to the capacity.
-/

namespace BoundedRegistry

set_option autoImplicit false

universe u

variable {Key : Type u} [DecidableEq Key]

def enroll (cap : Nat) (keys : List Key) (key : Key) : List Key :=
  if key ∈ keys then keys
  else if keys.length < cap then keys ++ [key]
  else keys

def enrollAll (cap : Nat) (keys : List Key) (seen : List Key) : List Key :=
  seen.foldl (enroll cap) keys

theorem enroll_extends (cap : Nat) (keys : List Key) (key : Key) : keys <+: enroll cap keys key := by
  unfold enroll
  split_ifs
  · exact List.prefix_rfl
  · exact List.prefix_append keys [key]
  · exact List.prefix_rfl

theorem enroll_nodup {cap : Nat} {keys : List Key} (key : Key) (distinct : keys.Nodup) :
    (enroll cap keys key).Nodup := by
  unfold enroll
  split_ifs with known room
  · exact distinct
  · exact List.nodup_append.mpr ⟨distinct, List.nodup_singleton key,
      fun other member last isLast same => known (List.mem_singleton.mp isLast ▸ same ▸ member)⟩
  · exact distinct

theorem enroll_length {cap : Nat} {keys : List Key} (key : Key) (bounded : keys.length ≤ cap) :
    (enroll cap keys key).length ≤ cap := by
  unfold enroll
  split_ifs with known room
  · exact bounded
  · rw [List.length_append, List.length_singleton]
    exact room
  · exact bounded

theorem mem_enroll_or_full {cap : Nat} {keys : List Key} (key : Key)
    (bounded : keys.length ≤ cap) : key ∈ enroll cap keys key ∨ keys.length = cap := by
  unfold enroll
  split_ifs with known room
  · exact .inl known
  · exact .inl (List.mem_append_right _ (List.mem_singleton_self key))
  · exact .inr (Nat.le_antisymm bounded (Nat.le_of_not_lt room))

theorem enroll_all_extends (cap : Nat) (seen : List Key) :
    ∀ keys : List Key, keys <+: enrollAll cap keys seen := by
  induction seen with
  | nil => exact fun _ => List.prefix_rfl
  | cons key rest ih => exact fun keys => (enroll_extends cap keys key).trans (ih _)

theorem enroll_all_nodup {cap : Nat} (seen : List Key) :
    ∀ {keys : List Key}, keys.Nodup → (enrollAll cap keys seen).Nodup := by
  induction seen with
  | nil => exact fun distinct => distinct
  | cons key rest ih => exact fun distinct => ih (enroll_nodup key distinct)

theorem enroll_all_length {cap : Nat} (seen : List Key) :
    ∀ {keys : List Key}, keys.length ≤ cap → (enrollAll cap keys seen).length ≤ cap := by
  induction seen with
  | nil => exact fun bounded => bounded
  | cons key rest ih => exact fun bounded => ih (enroll_length key bounded)

theorem mem_enroll_all_or_full {cap : Nat} {key : Key} (seen : List Key) (member : key ∈ seen) :
    ∀ {keys : List Key}, keys.length ≤ cap →
      key ∈ enrollAll cap keys seen ∨ (enrollAll cap keys seen).length = cap := by
  induction seen with
  | nil => cases member
  | cons first rest ih =>
      intro keys bounded
      have held := enroll_length first bounded
      have later := enroll_all_extends cap rest (enroll cap keys first)
      rcases List.mem_cons.mp member with here | inRest
      · subst here
        rcases mem_enroll_or_full key bounded with admitted | full
        · exact .inl (later.subset admitted)
        · -- A full registry stays full.
          have grown := (enroll_all_extends cap (key :: rest) keys).length_le
          exact .inr (Nat.le_antisymm (enroll_all_length (key :: rest) bounded) (full ▸ grown))
      · exact ih inRest held

theorem erase_dups_append_single (seen : List Key) (key : Key) :
    (seen ++ [key]).eraseDups =
      if key ∈ seen then seen.eraseDups else seen.eraseDups ++ [key] := by
  rw [List.eraseDups_append]
  split_ifs with known
  · simp [List.removeAll, known]
  · simp [List.removeAll, known, List.eraseDups_cons]

theorem enroll_all_append (cap : Nat) (keys first second : List Key) :
    enrollAll cap keys (first ++ second) = enrollAll cap (enrollAll cap keys first) second :=
  List.foldl_append

theorem enroll_take_known {cap : Nat} {keys : List Key} {key : Key} (known : key ∈ keys) :
    enroll cap (keys.take cap) key = keys.take cap := by
  unfold enroll
  split_ifs with held room
  · rfl
  · have all : keys.take cap = keys := by
      rw [List.length_take] at room
      exact List.take_of_length_le (by omega)
    rw [all] at held
    exact absurd known held
  · rfl

theorem enroll_take_new {cap : Nat} {keys : List Key} {key : Key} (new : key ∉ keys) :
    enroll cap (keys.take cap) key = (keys ++ [key]).take cap := by
  have absent : key ∉ keys.take cap := fun held => new (List.mem_of_mem_take held)
  unfold enroll
  rw [if_neg absent, List.length_take]
  split_ifs with room
  · have short : (keys ++ [key]).length ≤ cap := by
      rw [List.length_append, List.length_singleton]
      omega
    rw [List.take_of_length_le short, List.take_of_length_le (by omega)]
  · rw [List.take_append_of_le_length (by omega)]

/-- The registry holds the first occurrences, in order, up to its capacity. -/
theorem enroll_all_eq (cap : Nat) (seen : List Key) :
    enrollAll cap [] seen = seen.eraseDups.take cap := by
  induction seen using List.reverseRecOn with
  | nil => simp [enrollAll]
  | append_singleton earlier key ih =>
      rw [enroll_all_append, ih, erase_dups_append_single]
      change enroll cap (earlier.eraseDups.take cap) key = _
      split_ifs with known
      · exact enroll_take_known (List.mem_eraseDups.mpr known)
      · exact enroll_take_new fun held => known (List.mem_eraseDups.mp held)

theorem erase_dups_of_nodup (seen : List Key) (distinct : seen.Nodup) : seen.eraseDups = seen := by
  induction seen using List.reverseRecOn with
  | nil => rfl
  | append_singleton earlier key ih =>
      rw [List.nodup_append_comm, List.singleton_append, List.nodup_cons] at distinct
      rw [erase_dups_append_single, if_neg distinct.1, ih distinct.2]

theorem enroll_all_distinct {cap : Nat} {seen : List Key} (distinct : seen.Nodup) :
    enrollAll cap [] seen = seen.take cap := by
  rw [enroll_all_eq, erase_dups_of_nodup seen distinct]

end BoundedRegistry
