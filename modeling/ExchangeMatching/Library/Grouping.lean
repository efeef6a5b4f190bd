import Mathlib.Algebra.BigOperators.Group.List.Basic
import Mathlib.Data.List.Nodup

/-! Rows grouped by a key. Every row is in the group of its key and in no other,
so what is added up group by group is added up over all rows. -/
namespace Grouping

variable {Row Key M : Type*} [DecidableEq Key] [AddCommMonoid M] {key : Row → Key} {rows : List Row}
  {keys : List Key}

/-- One of some different keys is given. -/
theorem sum_ite_eq (hNodup : keys.Nodup) {given : Key} (hMem : given ∈ keys) (value : M) :
    (keys.map fun other => if given = other then value else 0).sum = value := by
  induction keys with
  | nil => cases hMem
  | cons head keys ih =>
      obtain ⟨hHead, hRest⟩ := List.nodup_cons.mp hNodup
      rw [List.map_cons, List.sum_cons]
      rcases List.mem_cons.mp hMem with rfl | hTail
      · have hNone : ∀ other ∈ keys, (if given = other then value else 0) = 0 :=
          fun other hOther => if_neg fun hEq : given = other => hHead (hEq ▸ hOther)
        rw [if_pos rfl, List.map_congr_left hNone, List.sum_map_zero, add_zero]
      · have hNe : given ≠ head := fun hEq => hHead (hEq ▸ hTail)
        rw [if_neg hNe, ih hRest hTail, zero_add]

theorem sum_groups (hNodup : keys.Nodup) (hCover : ∀ row ∈ rows, key row ∈ keys)
    (quantity : Row → M) :
    (keys.map fun other => ((rows.filter (key · = other)).map quantity).sum).sum =
      (rows.map quantity).sum := by
  induction rows with
  | nil =>
      simp only [List.filter_nil, List.map_nil, List.sum_nil]
      exact List.sum_map_zero
  | cons row rows ih =>
      have hSplit : ∀ other, (((row :: rows).filter (key · = other)).map quantity).sum =
          (if key row = other then quantity row else 0) +
            ((rows.filter (key · = other)).map quantity).sum := by
        intro other
        rw [List.filter_cons]
        by_cases hKey : key row = other
        · rw [if_pos (decide_eq_true hKey), if_pos hKey, List.map_cons, List.sum_cons]
        · rw [if_neg (by simpa using hKey), if_neg hKey, zero_add]
      simp only [hSplit]
      rw [List.sum_map_add, sum_ite_eq hNodup (hCover row List.mem_cons_self),
        ih fun other hOther => hCover other (List.mem_cons_of_mem row hOther), List.map_cons,
        List.sum_cons]

/-- What is added up over some rows is added up over all of them. -/
theorem sum_filter (rows : List Row) (p : Row → Prop) [DecidablePred p] (quantity : Row → M) :
    ((rows.filter (p ·)).map quantity).sum =
      (rows.map fun row => if p row then quantity row else 0).sum := by
  rw [List.sum_map_ite]
  simp

omit [AddCommMonoid M] in
/-- With unique keys, one row has the key of a row. -/
theorem filter_key_eq_singleton (hNodup : (rows.map key).Nodup) {row : Row} (hMem : row ∈ rows) :
    rows.filter (fun other => key other = key row) = [row] := by
  induction rows with
  | nil => cases hMem
  | cons head rows ih =>
      obtain ⟨hHead, hRest⟩ := List.nodup_cons.mp hNodup
      rcases List.mem_cons.mp hMem with rfl | hTail
      · have hNone : rows.filter (fun other => key other = key row) = [] :=
          List.filter_eq_nil_iff.mpr fun other hOther hKey =>
            hHead (List.mem_map.mpr ⟨other, hOther, of_decide_eq_true hKey⟩)
        rw [List.filter_cons, if_pos (decide_eq_true rfl), hNone]
      · have hOther : key head ≠ key row :=
          fun hKey => hHead (List.mem_map.mpr ⟨row, hTail, hKey.symm⟩)
        rw [List.filter_cons_of_neg (by simpa using hOther), ih hRest hTail]

end Grouping
