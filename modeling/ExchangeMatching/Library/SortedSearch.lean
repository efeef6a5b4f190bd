import Mathlib.Data.List.Sort

/-! Enumeration of a finite list in the order of a total preorder, one least
element after another. A cursor keeps only what comes strictly after the last
element seen; on a list without ties this walks down the sorted list. -/
namespace SortedSearch

variable {Row : Type*} (r : Row → Row → Prop) [DecidableRel r] [Std.Total r] [IsTrans Row r]

/-- No two different rows of the list are tied. -/
def Untied (rows : List Row) : Prop :=
  ∀ left ∈ rows, ∀ right ∈ rows, r left right → r right left → left = right

variable {r}

omit [DecidableRel r] [Std.Total r] [IsTrans Row r] in
theorem Untied.filter {rows : List Row} (h : Untied r rows) (p : Row → Bool) :
    Untied r (rows.filter p) :=
  fun left hLeft right hRight =>
    h left (List.mem_of_mem_filter hLeft) right (List.mem_of_mem_filter hRight)

/-- Sorting commutes with filtering when there are no ties. -/
theorem insertionSort_filter {rows : List Row} (h : Untied r rows) (p : Row → Bool) :
    (rows.filter p).insertionSort r = (rows.insertionSort r).filter p := by
  have hPerm : ((rows.filter p).insertionSort r).Perm ((rows.insertionSort r).filter p) :=
    (List.perm_insertionSort r _).trans ((List.perm_insertionSort r rows).symm.filter p)
  refine hPerm.eq_of_pairwise ?_ (List.pairwise_insertionSort r _)
    ((List.pairwise_insertionSort r _).filter p)
  intro left right hLeft hRight
  rw [List.mem_insertionSort] at hLeft
  rw [List.mem_filter, List.mem_insertionSort] at hRight
  exact h left (List.mem_of_mem_filter hLeft) right hRight.1

omit [DecidableRel r] [Std.Total r] [IsTrans Row r] in
/-- A condition that holds of all rows before one of which it holds selects the
front of a sorted list. -/
theorem filter_prefix {rows : List Row} (hSorted : rows.Pairwise r) {p : Row → Bool}
    (hFront : ∀ left ∈ rows, ∀ right ∈ rows, r left right → p right = true →
      p left = true) :
    rows.filter p <+: rows := by
  induction rows with
  | nil => exact List.prefix_rfl
  | cons row rows ih =>
      obtain ⟨hFirst, hRest⟩ := List.pairwise_cons.mp hSorted
      have hTail := ih hRest fun left hLeft right hRight =>
        hFront left (List.mem_cons_of_mem row hLeft) right (List.mem_cons_of_mem row hRight)
      rw [List.filter_cons]
      split_ifs with hRow
      · exact List.prefix_cons_inj row |>.mpr hTail
      · have hNone : rows.filter p = [] := by
          refine List.filter_eq_nil_iff.mpr fun other hOther hHolds => hRow ?_
          exact hFront row List.mem_cons_self other (List.mem_cons_of_mem row hOther)
            (hFirst other hOther) hHolds
        rw [hNone]
        exact List.nil_prefix

/-- The first row of the sorted list comes before every row. -/
theorem rel_of_head? {rows : List Row} {head row : Row}
    (hHead : (rows.insertionSort r).head? = some head) (hMem : row ∈ rows) : r head row := by
  obtain ⟨tail, hSorted⟩ := List.head?_eq_some_iff.mp hHead
  have hPairwise : (head :: tail).Pairwise r := hSorted ▸ List.pairwise_insertionSort r rows
  rw [← List.mem_insertionSort r, hSorted, List.mem_cons] at hMem
  rcases hMem with rfl | hTail
  · exact (Std.Total.total row row).elim id id
  · exact List.rel_of_pairwise_cons hPairwise hTail

/-- The first row stays the first one as long as rows only disappear. -/
theorem head?_of_subset {rows rows' : List Row} {head : Row} (hUntied : Untied r rows)
    (hSubset : rows' ⊆ rows) (hHead : (rows.insertionSort r).head? = some head)
    (hMem : head ∈ rows') : (rows'.insertionSort r).head? = some head := by
  cases hLater : (rows'.insertionSort r).head? with
  | none =>
      rw [List.head?_eq_none_iff] at hLater
      rw [← List.mem_insertionSort r, hLater] at hMem
      cases hMem
  | some first =>
      have hFirst : first ∈ rows' := by
        rw [← List.mem_insertionSort r]
        exact List.mem_of_mem_head? hLater
      exact congrArg some (hUntied first (hSubset hFirst) head (hSubset hMem)
        (rel_of_head? hLater hMem) (rel_of_head? hHead (hSubset hFirst)))

/-- What remains after the least row is the rest of the sorted list. -/
theorem insertionSort_filter_after_head {rows : List Row} (hUntied : Untied r rows)
    (hNodup : rows.Nodup) {head : Row} {tail : List Row}
    (hSorted : rows.insertionSort r = head :: tail)
    {after : Row → Bool} (hAfter : ∀ row ∈ rows, after row = true ↔ ¬r row head) :
    (rows.filter after).insertionSort r = tail := by
  have hMem : ∀ row, row ∈ head :: tail ↔ row ∈ rows := fun row => by
    rw [← hSorted, List.mem_insertionSort]
  have hPairwise : (head :: tail).Pairwise r := hSorted ▸ List.pairwise_insertionSort r rows
  have hDistinct : (head :: tail).Nodup :=
    hSorted ▸ (List.perm_insertionSort r rows).nodup_iff.mpr hNodup
  rw [insertionSort_filter hUntied, hSorted, List.filter_cons]
  have hHead : after head = false := by
    have hRefl : r head head := (Std.Total.total head head).elim id id
    have hIff := hAfter head ((hMem head).mp List.mem_cons_self)
    simpa [hRefl] using hIff
  rw [hHead, if_neg (by simp)]
  apply List.filter_eq_self.mpr
  intro row hRow
  rw [hAfter row ((hMem row).mp (List.mem_cons_of_mem head hRow))]
  intro hBefore
  have hEq : row = head := hUntied row ((hMem row).mp (List.mem_cons_of_mem head hRow)) head
    ((hMem head).mp List.mem_cons_self) hBefore (List.rel_of_pairwise_cons hPairwise hRow)
  exact (List.nodup_cons.mp hDistinct).1 (hEq ▸ hRow)

end SortedSearch
