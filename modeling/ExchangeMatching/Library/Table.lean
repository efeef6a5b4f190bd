import Mathlib.Algebra.BigOperators.Group.List.Basic
import Mathlib.Algebra.Order.BigOperators.Group.List
import Mathlib.Algebra.Order.Ring.Int
import Mathlib.Data.List.Nodup
import Mathlib.Tactic.Ring

/-! Finite tables whose rows are identified by a key. Uniqueness of the key is
part of the table, so no operation can store two rows under one key. Totals
over a table change by the row that changes, and by nothing else. -/

/-- Rows in insertion order, at most one for each key. -/
@[ext] structure Table (Row : Type*) {Key : Type*} (key : Row → Key) where
  rows : List Row
  nodup : (rows.map key).Nodup

namespace Table

variable {Row Key : Type*} [DecidableEq Key] {key : Row → Key}

instance : Membership Row (Table Row key) := ⟨fun table row => row ∈ table.rows⟩

def empty : Table Row key := ⟨[], List.nodup_nil⟩

/-- The row stored under a key. -/
def find? (table : Table Row key) (k : Key) : Option Row :=
  table.rows.find? (fun row => key row = k)

/-- Rewrite the row under a key, by a function that keeps the key. -/
def modify (table : Table Row key) (k : Key) (f : Row → Row) (hKey : ∀ row, key (f row) = key row) :
    Table Row key where
  rows := table.rows.map (fun row => if key row = k then f row else row)
  nodup := by
    rw [List.map_map, show key ∘ (fun row => if key row = k then f row else row) = key from ?_]
    · exact table.nodup
    · funext row
      simp only [Function.comp_apply]
      split_ifs
      · exact hKey row
      · rfl

/-- Append a row whose key is new. -/
def insert (table : Table Row key) (row : Row) (hNew : table.find? (key row) = none) :
    Table Row key where
  rows := table.rows ++ [row]
  nodup := by
    rw [List.map_append, List.map_singleton, List.nodup_append]
    refine ⟨table.nodup, List.nodup_singleton _, ?_⟩
    intro k hMem other hOther
    rw [List.mem_singleton] at hOther
    obtain ⟨old, hOld, rfl⟩ := List.mem_map.mp hMem
    have := List.find?_eq_none.mp hNew old hOld
    simpa [hOther] using this

/-- Rewrite all rows that satisfy a condition, by a function that keeps the key. -/
def update (table : Table Row key) (p : Row → Bool) (f : Row → Row)
    (hKey : ∀ row, key (f row) = key row) : Table Row key where
  rows := table.rows.map (fun row => if p row then f row else row)
  nodup := by
    rw [List.map_map, show key ∘ (fun row => if p row then f row else row) = key from ?_]
    · exact table.nodup
    · funext row
      simp only [Function.comp_apply]
      split_ifs
      · exact hKey row
      · rfl

/-- Delete all rows that satisfy a condition. -/
def delete (table : Table Row key) (p : Row → Bool) : Table Row key where
  rows := table.rows.filter (fun row => !p row)
  nodup := table.nodup.sublist (List.filter_sublist.map key)

/-- The total of a quantity over the table. -/
def sum (table : Table Row key) (quantity : Row → Int) : Int := (table.rows.map quantity).sum

variable {table : Table Row key} {k : Key} {row : Row} {f : Row → Row}
  {hKey : ∀ row, key (f row) = key row}

omit [DecidableEq Key] in
/-- The rows of a table are in its list. -/
theorem mem_def : row ∈ table ↔ row ∈ table.rows := Iff.rfl

/-- With unique keys, a lookup finds a row exactly when it is stored. -/
theorem find?_eq_some_iff : table.find? k = some row ↔ row ∈ table ∧ key row = k := by
  constructor
  · intro h
    exact ⟨List.mem_of_find?_eq_some h, by simpa using List.find?_some h⟩
  · rintro ⟨hMem, rfl⟩
    cases hFound : table.find? (key row) with
    | none => simpa using List.find?_eq_none.mp hFound row hMem
    | some other =>
        have hOther : key other = key row := by simpa using List.find?_some hFound
        exact congrArg some
          (List.inj_on_of_nodup_map table.nodup (List.mem_of_find?_eq_some hFound) hMem hOther)

/-- A key is not found exactly if no row has it. -/
theorem find?_eq_none_iff : table.find? k = none ↔ ∀ row ∈ table, key row ≠ k := by
  simp [find?, mem_def]

/-- The keys that are found are the keys of the rows. -/
theorem isSome_find?_iff : (table.find? k).isSome = true ↔ k ∈ table.rows.map key := by
  simp [find?, List.find?_isSome]

/-- What is found under a key has that key. -/
theorem key_of_find? (h : table.find? k = some row) : key row = k := (find?_eq_some_iff.mp h).2

theorem mem_of_find? (h : table.find? k = some row) : row ∈ table := (find?_eq_some_iff.mp h).1

/-- Keys are unique, so a row is found under its own key. -/
theorem find?_of_mem (h : row ∈ table) : table.find? (key row) = some row :=
  find?_eq_some_iff.mpr ⟨h, rfl⟩

/-- The rows under some keys are known from the keys and their lookups. -/
theorem filter_key_eq (p : Key → Bool) :
    table.rows.filter (fun row => p (key row)) =
      ((table.rows.map key).filter p).filterMap table.find? := by
  rw [List.filter_map, List.filterMap_map]
  symm
  calc (table.rows.filter (p ∘ key)).filterMap (table.find? ∘ key)
      = (table.rows.filter (p ∘ key)).filterMap some := by
        apply List.filterMap_congr
        intro row hMem
        exact find?_of_mem (List.mem_of_mem_filter hMem)
    _ = table.rows.filter (p ∘ key) := List.filterMap_some

omit [DecidableEq Key] in
/-- Tables that agree on the rows with a property store them in some order. -/
theorem perm_filter {other : Table Row key} {p : Row → Bool}
    (h : ∀ row, p row = true → (row ∈ other ↔ row ∈ table)) :
    (other.rows.filter p).Perm (table.rows.filter p) := by
  refine (List.perm_ext_iff_of_nodup (other.nodup.of_map.filter p)
    (table.nodup.of_map.filter p)).mpr ?_
  intro row
  rw [List.mem_filter, List.mem_filter]
  exact and_congr_left (h row)

/-- When the keys stay in place, the rows are known from their lookups. -/
theorem rows_eq_map {other : Table Row key} {f : Row → Row}
    (hKeys : other.rows.map key = table.rows.map key)
    (hFound : ∀ k, other.find? k = (table.find? k).map f) : other.rows = table.rows.map f := by
  have hLookups : ∀ rows : Table Row key, rows.rows = (rows.rows.map key).filterMap rows.find? := by
    intro rows
    have hFiltered := rows.filter_key_eq fun _ => true
    rwa [List.filter_true, List.filter_true] at hFiltered
  calc other.rows
      = (table.rows.map key).filterMap other.find? := hKeys ▸ hLookups other
    _ = (table.rows.map key).filterMap (fun k => (table.find? k).map f) :=
        List.filterMap_congr fun k _ => hFound k
    _ = ((table.rows.map key).filterMap table.find?).map f := List.map_filterMap.symm
    _ = table.rows.map f := congrArg (List.map f) (hLookups table).symm

/-- A modified row is found under its old key. -/
@[simp] theorem find?_modify_self :
    (table.modify k f hKey).find? k = (table.find? k).map f := by
  unfold find? modify
  dsimp only
  induction table.rows with
  | nil => rfl
  | cons head tail ih =>
      rw [List.map_cons, List.find?_cons, List.find?_cons, ih]
      by_cases hHead : key head = k <;> simp [hHead, hKey]

/-- The other keys are not affected. -/
theorem find?_modify_of_ne {other : Key} (hNe : other ≠ k) :
    (table.modify k f hKey).find? other = table.find? other := by
  unfold find? modify
  dsimp only
  induction table.rows with
  | nil => rfl
  | cons head tail ih =>
      rw [List.map_cons, List.find?_cons, List.find?_cons, ih]
      by_cases hHead : key head = k
      · have hOther : k ≠ other := Ne.symm hNe
        simp [hHead, hKey, hOther]
      · simp [hHead]

/-- Both cases in one equation, for rewriting. -/
theorem find?_modify {other : Key} :
    (table.modify k f hKey).find? other =
      if other = k then (table.find? k).map f else table.find? other := by
  split_ifs with h
  · rw [h, find?_modify_self]
  · exact find?_modify_of_ne h

/-- The rows after a modification are the others and the one that was modified. -/
theorem mem_modify : row ∈ table.modify k f hKey ↔
    (row ∈ table ∧ key row ≠ k) ∨ ∃ old ∈ table, key old = k ∧ row = f old := by
  simp only [mem_def, modify, List.mem_map]
  constructor
  · rintro ⟨old, hOld, rfl⟩
    split_ifs with h
    · exact Or.inr ⟨old, hOld, h, rfl⟩
    · exact Or.inl ⟨hOld, h⟩
  · rintro (⟨hMem, hNe⟩ | ⟨old, hOld, hk, rfl⟩)
    · exact ⟨row, hMem, if_neg hNe⟩
    · exact ⟨old, hOld, if_pos hk⟩

/-- A modification that changes nothing can be dropped. -/
theorem modify_eq_self (h : ∀ row, table.find? k = some row → f row = row) :
    table.modify k f hKey = table := by
  apply Table.ext
  calc
    table.rows.map (fun row => if key row = k then f row else row) = table.rows.map id := by
      apply List.map_congr_left
      intro row hRow
      by_cases hk : key row = k
      · simp [hk, h row (find?_eq_some_iff.mpr ⟨hRow, hk⟩)]
      · simp [hk]
    _ = table.rows := List.map_id _

/-- Rewriting two different keys commutes. -/
theorem modify_comm {other : Key} {g : Row → Row} {hKey' : ∀ row, key (g row) = key row}
    (hNe : k ≠ other) :
    (table.modify k f hKey).modify other g hKey' =
      (table.modify other g hKey').modify k f hKey := by
  apply Table.ext
  simp only [modify, List.map_map]
  apply List.map_congr_left
  intro row _
  by_cases hk : key row = k
  · have hOther : key row ≠ other := hk ▸ hNe
    simp [hk, hKey, hNe]
  · by_cases hOther : key row = other
    · simp [hOther, hKey', Ne.symm hNe]
    · simp [hk, hOther]

/-- Two modifications under one key are one. -/
theorem modify_modify {g : Row → Row} {hKey' : ∀ row, key (g row) = key row} :
    (table.modify k f hKey).modify k g hKey' =
      table.modify k (g ∘ f) (fun row => (hKey' (f row)).trans (hKey row)) := by
  apply Table.ext
  simp only [modify, List.map_map]
  apply List.map_congr_left
  intro row _
  by_cases hk : key row = k <;> simp [hk, hKey]

/-- What a modification does not change reads the same afterwards. -/
theorem map_modify {Value : Type*} (g : Row → Value) (h : ∀ row, g (f row) = g row) :
    (table.modify k f hKey).rows.map g = table.rows.map g := by
  simp only [modify, List.map_map]
  apply List.map_congr_left
  intro row _
  simp only [Function.comp_apply]
  split_ifs
  · exact h row
  · rfl

/-- An inserted row is found under its key. -/
theorem find?_insert {hNew : table.find? (key row) = none} :
    (table.insert row hNew).find? k = if k = key row then some row else table.find? k := by
  unfold find? insert
  rw [List.find?_append]
  split_ifs with h
  · subst h
    rw [show List.find? _ table.rows = none from hNew]
    simp
  · have : ¬key row = k := fun hk => h hk.symm
    simp [this]

/-- And it is the only new row. -/
theorem mem_insert {other : Row} {hNew : table.find? (key row) = none} :
    other ∈ table.insert row hNew ↔ other ∈ table ∨ other = row := by
  simp [mem_def, insert]

section Conditions

variable {p : Row → Bool}

omit [DecidableEq Key] in
/-- A conditional update changes each row where its condition holds. -/
theorem mem_update : row ∈ table.update p f hKey ↔
    ∃ old ∈ table, row = if p old then f old else old := by
  simp only [mem_def, update, List.mem_map, eq_comm]

omit [DecidableEq Key] in
/-- A conditional deletion keeps the rows where its condition is false. -/
theorem mem_delete : row ∈ table.delete p ↔ row ∈ table ∧ p row = false := by
  simp [mem_def, delete]

omit [DecidableEq Key] in
/-- What a conditional update does not change reads the same afterwards. -/
theorem map_update {Value : Type*} (g : Row → Value) (h : ∀ row, g (f row) = g row) :
    (table.update p f hKey).rows.map g = table.rows.map g := by
  simp only [update, List.map_map]
  apply List.map_congr_left
  intro row _
  simp only [Function.comp_apply]
  split_ifs
  · exact h row
  · rfl

omit [DecidableEq Key] in
/-- An update depends only on what it says about the rows that there are. -/
theorem update_congr {q : Row → Bool} {g : Row → Row} {hKey' : ∀ row, key (g row) = key row}
    (h : ∀ row ∈ table, p row = q row) (hSame : ∀ row ∈ table, p row = true → f row = g row) :
    table.update p f hKey = table.update q g hKey' := by
  refine Table.ext (List.map_congr_left fun row hRow => ?_)
  rw [← h row hRow]
  split_ifs with hRow'
  · exact hSame row hRow hRow'
  · rfl

omit [DecidableEq Key] in
/-- Rows that were rewritten are not rewritten again. -/
theorem update_update {q : Row → Bool} (h : ∀ row, q (f row) = false) :
    (table.update p f hKey).update q f hKey = table.update (fun row => p row || q row) f hKey := by
  refine Table.ext ((List.map_map ..).trans (List.map_congr_left fun row _ => ?_))
  rw [Function.comp_apply]
  cases hFirst : p row with
  | true => simp [hFirst, h]
  | false => simp [hFirst]

/-- Rows are found after an update under the keys that they had before. -/
theorem find?_update : (table.update p f hKey).find? k =
    (table.find? k).map (fun row => if p row then f row else row) := by
  cases hFound : table.find? k with
  | none =>
      rw [Option.map_none, find?_eq_none_iff]
      rintro row hRow rfl
      obtain ⟨old, hOld, rfl⟩ := mem_update.mp hRow
      refine find?_eq_none_iff.mp hFound old hOld ?_
      split_ifs
      · exact (hKey old).symm
      · rfl
  | some old =>
      obtain ⟨hOld, rfl⟩ := find?_eq_some_iff.mp hFound
      rw [Option.map_some, find?_eq_some_iff]
      refine ⟨mem_update.mpr ⟨old, hOld, rfl⟩, ?_⟩
      split_ifs
      · exact hKey old
      · rfl

/-- What is found after a deletion was found before. -/
theorem find?_delete : (table.delete p).find? k = (table.find? k).filter (fun row => !p row) := by
  cases hFound : table.find? k with
  | none =>
      rw [Option.filter_none, find?_eq_none_iff]
      exact fun row hRow => find?_eq_none_iff.mp hFound row (mem_delete.mp hRow).1
  | some row =>
      obtain ⟨hRow, rfl⟩ := find?_eq_some_iff.mp hFound
      cases hDeleted : p row with
      | true =>
          rw [Option.filter_some_neg (by simp [hDeleted]), find?_eq_none_iff]
          intro other hOther hKey
          obtain ⟨hMem, hKept⟩ := mem_delete.mp hOther
          rw [List.inj_on_of_nodup_map table.nodup hMem hRow hKey, hDeleted] at hKept
          cases hKept
      | false =>
          rw [Option.filter_some_pos (by simp [hDeleted]), find?_eq_some_iff]
          exact ⟨mem_delete.mpr ⟨hRow, hDeleted⟩, rfl⟩

end Conditions

section Totals

variable {quantity : Row → Int}

omit [DecidableEq Key] in
/-- A sum depends only on the rows of the table. -/
theorem sum_congr {other : Row → Int} (h : ∀ row ∈ table, quantity row = other row) :
    table.sum quantity = table.sum other := by
  unfold sum
  rw [List.map_congr_left h]

/-- A new row adds its quantity. -/
theorem sum_insert {hNew : table.find? (key row) = none} :
    (table.insert row hNew).sum quantity = table.sum quantity + quantity row := by
  simp [sum, insert]

/-- Rewriting a row changes a total by the new row minus the old one. -/
theorem sum_modify (h : table.find? k = some row) :
    (table.modify k f hKey).sum quantity = table.sum quantity +
      (quantity (f row) - quantity row) := by
  obtain ⟨hMem, hk⟩ := find?_eq_some_iff.mp h
  have hNodup := table.nodup
  rw [mem_def] at hMem
  clear h
  simp only [sum, modify]
  revert hNodup hMem
  induction table.rows with
  | nil => simp
  | cons head tail ih =>
      intro hMem hNodup
      rw [List.map_cons, List.nodup_cons] at hNodup
      rcases List.mem_cons.mp hMem with rfl | hTail
      · have hRest : tail.map (fun row => if key row = k then f row else row) = tail.map id := by
          apply List.map_congr_left
          intro other hOther
          have : key other ≠ k := fun hEq =>
            hNodup.1 (List.mem_map.mpr ⟨other, hOther, hEq.trans hk.symm⟩)
          simp [this]
        rw [List.map_cons, hRest]
        simp [hk]
        ring
      · have hHead : key head ≠ k := fun hEq =>
          hNodup.1 (List.mem_map.mpr ⟨row, hTail, hk.trans hEq.symm⟩)
        have := ih hTail hNodup.2
        simp only [List.map_cons, hHead, if_false, List.sum_cons]
        omega

omit [DecidableEq Key] in
/-- Sums of two quantities are added up together. -/
theorem sum_add {other : Row → Int} :
    table.sum (fun row => quantity row + other row) = table.sum quantity + table.sum other := by
  simp [sum, List.sum_map_add]

omit [DecidableEq Key] in
/-- One row's quantity is at most the total of nonnegative quantities. -/
theorem le_sum (h : ∀ row ∈ table, 0 ≤ quantity row) (hRow : row ∈ table) :
    quantity row ≤ table.sum quantity := by
  apply List.single_le_sum _ _ (List.mem_map.mpr ⟨row, hRow, rfl⟩)
  intro value hValue
  obtain ⟨other, hOther, rfl⟩ := List.mem_map.mp hValue
  exact h other hOther

/-- Two different rows together hold at most the total. -/
theorem add_le_sum {other : Row} (h : ∀ row ∈ table, 0 ≤ quantity row) (hRow : row ∈ table)
    (hOther : other ∈ table) (hNe : key row ≠ key other) :
    quantity row + quantity other ≤ table.sum quantity := by
  have hSplit : table.sum quantity =
      table.sum (fun r => if key r = key row then quantity r else 0) +
      table.sum (fun r => if key r = key row then 0 else quantity r) := by
    rw [← sum_add]
    apply sum_congr
    intro r _
    split_ifs <;> omega
  have hFirst : (if key row = key row then quantity row else 0) ≤
      table.sum (fun r => if key r = key row then quantity r else 0) :=
    le_sum (fun r hr => by split_ifs; exacts [h r hr, le_refl 0]) hRow
  have hSecond : (if key other = key row then 0 else quantity other) ≤
      table.sum (fun r => if key r = key row then 0 else quantity r) :=
    le_sum (fun r hr => by split_ifs; exacts [le_refl 0, h r hr]) hOther
  simp only [if_true, hNe.symm, if_false] at hFirst hSecond
  omega

end Totals

end Table
