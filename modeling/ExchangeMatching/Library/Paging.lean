import ExchangeMatching.Library.SortedSearch

/-! Lists that are answered page by page. Every page is a query of its own,
which sorts the rows again; the pages make up one list when the sort keys leave
no ties. -/
namespace Paging

open SortedSearch

variable {Row Item : Type*}

/-- What is left of a list by an offset and a limit. -/
def slice (rows : List Row) (skip take : Nat) : List Row := (rows.drop skip).take take

/-- What a query may answer that sorts its rows: tied rows come in any order. -/
structure Sorted (r : Row → Row → Prop) (rows sorted : List Row) : Prop where
  perm : sorted.Perm rows
  pairwise : sorted.Pairwise r

theorem sorted_insertionSort (r : Row → Row → Prop) [DecidableRel r] [Std.Total r] [IsTrans Row r]
    (rows : List Row) : Sorted r rows (rows.insertionSort r) :=
  ⟨List.perm_insertionSort r rows, List.pairwise_insertionSort r rows⟩

/-- Without ties there is one answer. -/
theorem Sorted.unique {r : Row → Row → Prop} {rows sorted sorted' : List Row}
    (h : Sorted r rows sorted)
    (hUntied : Untied r rows) (h' : Sorted r rows sorted') : sorted = sorted' := by
  refine (h.perm.trans h'.perm.symm).eq_of_pairwise ?_ h.pairwise h'.pairwise
  intro left right hLeft hRight
  exact hUntied left (h.perm.mem_iff.mp hLeft) right (h'.perm.mem_iff.mp hRight)

/-- Without ties the order in which the rows are stored does not matter. -/
theorem insertionSort_congr {r : Row → Row → Prop} [DecidableRel r] [Std.Total r] [IsTrans Row r]
    {rows rows' : List Row} (hUntied : Untied r rows) (hPerm : rows'.Perm rows) :
    rows'.insertionSort r = rows.insertionSort r :=
  Sorted.unique ⟨(List.perm_insertionSort r rows').trans hPerm, List.pairwise_insertionSort r rows'⟩
    hUntied (sorted_insertionSort r rows)

/-- Just enough pages for so many items. -/
structure Suffices (pages totalItems pageSize : Nat) : Prop where
  enough : totalItems ≤ pages * pageSize
  needed : ∀ page < pages, page * pageSize < totalItems

/-- The pages from the first to the last make up the list, all but the last are
full, and there is nothing after the last. -/
structure Covers (list : List Item) (pageSize totalPages : Nat) (page : Nat → List Item) :
    Prop where
  complete : (List.range totalPages).flatMap (fun index => page (index + 1)) = list
  full : ∀ number, 1 ≤ number → number < totalPages → (page number).length = pageSize
  empty : ∀ number, totalPages < number → page number = []

theorem length_slice (rows : List Row) (skip take : Nat) :
    (slice rows skip take).length = min take (rows.length - skip) := by
  rw [slice, List.length_take, List.length_drop]

theorem flatMap_slice (rows : List Row) (pageSize pages : Nat) :
    (List.range pages).flatMap (fun index => slice rows (index * pageSize) pageSize) =
      rows.take (pages * pageSize) := by
  induction pages with
  | zero => rw [Nat.zero_mul, List.take_zero, List.range_zero, List.flatMap_nil]
  | succ pages ih =>
      rw [List.range_succ, List.flatMap_append, ih, List.flatMap_singleton, Nat.succ_mul,
        List.take_add]
      rfl

theorem covers_slice {rows : List Row} {pageSize totalPages : Nat}
    (h : Suffices totalPages rows.length pageSize) :
    Covers rows pageSize totalPages (fun page => slice rows ((page - 1) * pageSize) pageSize) where
  complete := by
    simp only [Nat.add_sub_cancel]
    rw [flatMap_slice, List.take_of_length_le h.enough]
  full number hFirst hLast := by
    have hNeeded := h.needed number hLast
    have hNumber : number * pageSize = (number - 1) * pageSize + pageSize := by
      rw [← Nat.succ_mul, Nat.succ_eq_add_one, Nat.sub_add_cancel hFirst]
    rw [length_slice]
    omega
  empty number hLast := by
    have hLater : totalPages * pageSize ≤ (number - 1) * pageSize :=
      Nat.mul_le_mul_right pageSize (Nat.le_sub_one_of_lt hLast)
    rw [slice, List.drop_eq_nil_of_le (h.enough.trans hLater), List.take_nil]

theorem Covers.map {list : List Row} {pageSize totalPages : Nat} {page : Nat → List Row}
    (h : Covers list pageSize totalPages page) (toItem : Row → Item) :
    Covers (list.map toItem) pageSize totalPages (fun number => (page number).map toItem) where
  complete := by rw [← h.complete, List.map_flatMap]
  full number hFirst hLast := by rw [List.length_map, h.full number hFirst hLast]
  empty number hLast := by rw [h.empty number hLast, List.map_nil]

end Paging
