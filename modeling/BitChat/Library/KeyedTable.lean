import Mathlib.Data.List.Nodup

/-!
# Tables with a primary key

Rows in insertion order whose keys never repeat. The operations are those of
a relational table: an insert that leaves an existing key alone, and the
deletion of all rows that satisfy a condition.
-/

namespace KeyedTable

set_option autoImplicit false

/-- A table carries the uniqueness of its keys, so no operation can break it. -/
structure Table {Row Key : Type} (keyOf : Row → Key) where
  rows : List Row
  keyed : (rows.map keyOf).Nodup

section Operations

variable {Row Key : Type} {keyOf : Row → Key}

def empty : Table keyOf := ⟨[], List.nodup_nil⟩

def hasKey (table : Table keyOf) (key : Key) : Prop := key ∈ table.rows.map keyOf

instance [DecidableEq Key] (table : Table keyOf) (key : Key) : Decidable (hasKey table key) :=
  inferInstanceAs (Decidable (key ∈ table.rows.map keyOf))

def insertOrIgnore [DecidableEq Key] (table : Table keyOf) (row : Row) : Table keyOf :=
  if absent : hasKey table (keyOf row) then table
  else
    ⟨table.rows ++ [row], by
      rw [List.map_append, List.map_singleton, List.nodup_append_comm]
      exact List.nodup_cons.mpr ⟨absent, table.keyed⟩⟩

def deleteWhere (condition : Row → Bool) (table : Table keyOf) : Table keyOf :=
  ⟨table.rows.filter fun row => !condition row,
    List.Nodup.sublist (List.filter_sublist.map _) table.keyed⟩

theorem mem_insert_or_ignore [DecidableEq Key] {table : Table keyOf} {row other : Row}
    (member : other ∈ (insertOrIgnore table row).rows) : other ∈ table.rows ∨ other = row := by
  unfold insertOrIgnore at member
  split_ifs at member with present
  · exact .inl member
  · simpa using member

theorem insert_or_ignore_keeps [DecidableEq Key] {table : Table keyOf} (row : Row) {other : Row}
    (member : other ∈ table.rows) : other ∈ (insertOrIgnore table row).rows := by
  unfold insertOrIgnore
  split_ifs with present
  · exact member
  · exact List.mem_append_left _ member

theorem insert_new_rows [DecidableEq Key] {table : Table keyOf} {row : Row}
    (absent : ¬ hasKey table (keyOf row)) :
    (insertOrIgnore table row).rows = table.rows ++ [row] := by
  unfold insertOrIgnore
  rw [dif_neg absent]

theorem insert_new [DecidableEq Key] {table : Table keyOf} {row : Row}
    (absent : ¬ hasKey table (keyOf row)) : row ∈ (insertOrIgnore table row).rows := by
  rw [insert_new_rows absent]
  exact List.mem_append_right _ (List.mem_singleton_self row)

theorem mem_delete_where {condition : Row → Bool} {table : Table keyOf} {row : Row} :
    row ∈ (deleteWhere condition table).rows ↔ row ∈ table.rows ∧ condition row = false := by
  simp [deleteWhere]

theorem rows_with_key [DecidableEq Key] {table : Table keyOf} {row : Row}
    (member : row ∈ table.rows) :
    (table.rows.filter fun other => decide (keyOf other = keyOf row)) = [row] := by
  have alone : ∀ rows : List Row, (rows.map keyOf).Nodup → row ∈ rows →
      (rows.filter fun other => decide (keyOf other = keyOf row)) = [row] := by
    intro rows
    induction rows with
    | nil => simp
    | cons head tail ih =>
        intro keyed inside
        rw [List.map_cons, List.nodup_cons] at keyed
        rcases List.mem_cons.mp inside with same | later
        · subst same
          have others : (tail.filter fun other => decide (keyOf other = keyOf row)) = [] := by
            apply List.filter_eq_nil_iff.mpr
            intro other otherIn equal
            exact keyed.1 (of_decide_eq_true equal ▸ List.mem_map_of_mem otherIn)
          simp [others]
        · have different : keyOf head ≠ keyOf row := by
            intro equal
            exact keyed.1 (equal ▸ List.mem_map_of_mem later)
          rw [List.filter_cons_of_neg (by simpa using different)]
          exact ih keyed.2 later
  exact alone table.rows table.keyed member

theorem row_unique {table : Table keyOf} {row other : Row} (member : row ∈ table.rows)
    (otherIn : other ∈ table.rows) (sameKey : keyOf row = keyOf other) : row = other :=
  List.inj_on_of_nodup_map table.keyed member otherIn sameKey

end Operations

section Lookup

variable {Row Key : Type} {keyOf : Row → Key} [DecidableEq Key]

def insertOrReplace (table : Table keyOf) (row : Row) : Table keyOf :=
  insertOrIgnore (deleteWhere (fun other => decide (keyOf other = keyOf row)) table) row

omit [DecidableEq Key] in
def updateRows (change : Row → Row) (same : ∀ row, keyOf (change row) = keyOf row)
    (table : Table keyOf) : Table keyOf :=
  ⟨table.rows.map change, by
    have keys : (table.rows.map change).map keyOf = table.rows.map keyOf := by
      rw [List.map_map]
      exact List.map_congr_left fun row _ => same row
    rw [keys]
    exact table.keyed⟩

def lookup (table : Table keyOf) (key : Key) : Option Row :=
  table.rows.find? fun row => decide (keyOf row = key)

theorem lookup_eq_some_iff {table : Table keyOf} {key : Key} {row : Row} :
    lookup table key = some row ↔ row ∈ table.rows ∧ keyOf row = key := by
  constructor
  · intro found
    have matching := List.find?_some (p := fun row => decide (keyOf row = key)) found
    exact ⟨List.mem_of_find?_eq_some found, of_decide_eq_true matching⟩
  · rintro ⟨member, rfl⟩
    cases found : lookup table (keyOf row) with
    | none =>
        have absent := List.find?_eq_none.mp found row member
        exact absurd (decide_eq_true rfl) absent
    | some other =>
        have matching := List.find?_some (p := fun other => decide (keyOf other = keyOf row)) found
        rw [row_unique (List.mem_of_find?_eq_some found) member (of_decide_eq_true matching)]

theorem lookup_eq_none_iff {table : Table keyOf} {key : Key} :
    lookup table key = none ↔ ¬ hasKey table key := by
  simp [lookup, hasKey]

theorem lookup_insert_new {table : Table keyOf} {row : Row} (absent : ¬ hasKey table (keyOf row))
    (key : Key) :
    lookup (insertOrIgnore table row) key =
      if key = keyOf row then some row else lookup table key := by
  split_ifs with same
  · exact lookup_eq_some_iff.mpr ⟨insert_new absent, same.symm⟩
  · rw [lookup, insert_new_rows absent, List.find?_append, List.find?_singleton,
      if_neg (by simpa using fun h => same h.symm), Option.or_none]
    rfl

theorem lookup_delete_key (table : Table keyOf) (deleted key : Key) :
    lookup (deleteWhere (fun row => decide (keyOf row = deleted)) table) key =
      if key = deleted then none else lookup table key := by
  split_ifs with same
  · rw [lookup_eq_none_iff]
    rintro there
    obtain ⟨row, member, isKey⟩ := List.mem_map.mp there
    have kept := (mem_delete_where.mp member).2
    exact of_decide_eq_false kept (isKey.trans same)
  · rw [lookup, deleteWhere, List.find?_filter]
    congr 1
    funext row
    by_cases isKey : keyOf row = key
    · simp [isKey, same]
    · simp [isKey]

theorem lookup_insert_or_replace (table : Table keyOf) (row : Row) (key : Key) :
    lookup (insertOrReplace table row) key =
      if key = keyOf row then some row else lookup table key := by
  have absent : ¬ hasKey (deleteWhere (fun other => decide (keyOf other = keyOf row)) table)
      (keyOf row) := by
    rw [← lookup_eq_none_iff, lookup_delete_key, if_pos rfl]
  rw [insertOrReplace, lookup_insert_new absent, lookup_delete_key]
  split_ifs <;> rfl

theorem lookup_update_rows {change : Row → Row} (same : ∀ row, keyOf (change row) = keyOf row)
    (table : Table keyOf) (key : Key) :
    lookup (updateRows change same table) key = (lookup table key).map change := by
  rw [lookup, updateRows, List.find?_map]
  simp only [Function.comp_def, same]
  rfl

end Lookup

end KeyedTable
