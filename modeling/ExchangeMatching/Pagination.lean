import ExchangeMatching.DecimalUtils
import ExchangeMatching.Library.Double
import ExchangeMatching.Library.Paging

/-! The query strings of paginated lists, and the responses. A page number goes
through the numbers of JavaScript, which hold integers only up to 53 bits. -/
namespace ExchangeMatching

open Double Paging

/-- A value of a query, before it is transformed. -/
inductive QueryValue where
  | undefined
  | null
  | text (content : String)
  | number (value : Number)
  | other
deriving DecidableEq, Repr

/-- A string of decimal digits. -/
def isDigits (content : String) : Bool := content ≠ "" && content.toList.all Char.isDigit

/-- The integer that a string of digits writes. -/
def digitsValue (content : String) : Nat := Nat.ofDigitChars 10 content.toList 0

def toPositiveInteger (value : QueryValue) (fallback : Number) : Number :=
  if value = .undefined ∨ value = .null ∨ value = .text "" then fallback
  else
    let parsedValue : Number :=
      match value with
      | .number value => value
      | .text content => if isDigits content then .ofRat (digitsValue content) else .nan
      | _ => .nan
    if parsedValue.isSafeInteger then parsedValue else .nan

def toOptionalString : QueryValue → Option String
  | .text content =>
      let normalizedValue := trim content
      if 0 < normalizedValue.length then some normalizedValue else none
  | _ => none

structure PaginationQueryDto where
  page : Number
  pageSize : Number
  id : Option String
deriving DecidableEq, Repr

/-- A failed check of a property. -/
structure ConstraintError where
  property : String
  constraint : String
  message : String
deriving DecidableEq, Repr

namespace SafePaginationOffset

/-- The field checks report invalid numbers. -/
def validate (query : PaginationQueryDto) : Bool :=
  !query.page.isSafeInteger || !query.pageSize.isSafeInteger ||
    ((query.page.add (-1)).mul query.pageSize).isSafeInteger

def defaultMessage : String := "Pagination offset must be a safe integer"

end SafePaginationOffset

namespace PaginationQueryDto

def transform (page pageSize id : QueryValue) : PaginationQueryDto where
  page := toPositiveInteger page (.finite 1)
  pageSize := toPositiveInteger pageSize (.finite 25)
  id := toOptionalString id

def isInt (property : String) (value : Number) : List ConstraintError :=
  if value.isInteger then [] else [⟨property, "isInt", property ++ " must be an integer number"⟩]

def min (property : String) (value : Number) : List ConstraintError :=
  if value.ge 1 then [] else [⟨property, "min", property ++ " must not be less than 1"⟩]

/-- All checks are made. A transformed `id` passes its own. -/
def errors (query : PaginationQueryDto) : List ConstraintError :=
  isInt "page" query.page ++ min "page" query.page ++
    isInt "pageSize" query.pageSize ++ min "pageSize" query.pageSize ++
    (if query.pageSize.le 100 then []
      else [⟨"pageSize", "max", "pageSize must not be greater than 100"⟩]) ++
    if SafePaginationOffset.validate query then []
    else [⟨"pageSize", "safePaginationOffset", SafePaginationOffset.defaultMessage⟩]

/-- What the validation pipe makes of a query. -/
def accept (page pageSize id : QueryValue) : Except (List ConstraintError) PaginationQueryDto :=
  let query := transform page pageSize id
  if query.errors = [] then .ok query else .error query.errors

/-- The `skip` of a query. -/
def offset (query : PaginationQueryDto) : Number := (query.page.add (-1)).mul query.pageSize

end PaginationQueryDto

structure PaginationMeta where
  page : Nat
  pageSize : Nat
  totalItems : Nat
  totalPages : Nat
deriving DecidableEq, Repr

structure PaginatedResponse (Item : Type) where
  items : List Item
  pagination : PaginationMeta
deriving Repr

/-- The quotient is taken exactly. -/
def totalPages (totalItems pageSize : Nat) : Nat :=
  if totalItems = 0 then 0 else ⌈(totalItems / pageSize : ℚ)⌉₊

def buildPaginatedResponse {Item : Type} (items : List Item) (page pageSize totalItems : Nat) :
    PaginatedResponse Item :=
  ⟨items, page, pageSize, totalItems, totalPages totalItems pageSize⟩

/-- The prefix that ids are compared with. -/
def buildIdPrefixFilter (id : Option String) : Option String :=
  match id.map trim with
  | none | some "" => none
  | some normalizedId => some normalizedId

theorem suffices_totalPages (totalItems : Nat) {pageSize : Nat} (hSize : 0 < pageSize) :
    Suffices (totalPages totalItems pageSize) totalItems pageSize := by
  have hPos : (0 : ℚ) < pageSize := by exact_mod_cast hSize
  unfold totalPages
  split_ifs with hNone
  · exact ⟨hNone.le.trans (Nat.zero_le _), fun page hPage => absurd hPage (Nat.not_lt_zero page)⟩
  · refine ⟨?_, fun page hPage => ?_⟩
    · have hCeil : (totalItems / pageSize : ℚ) ≤ ⌈(totalItems / pageSize : ℚ)⌉₊ :=
        Nat.le_ceil _
      rw [div_le_iff₀ hPos] at hCeil
      exact_mod_cast hCeil
    · have hLess := Nat.lt_ceil.mp hPage
      rw [lt_div_iff₀ hPos] at hLess
      exact_mod_cast hLess

/-- The quotient of doubles is rounded up to the same number of pages, as long as
the number of items is an exact double. -/
theorem totalPages_eq_ceil_round {totalItems pageSize : Nat} (hItems : totalItems < 2 ^ 53)
    (hSize : 0 < pageSize) :
    (totalPages totalItems pageSize : ℤ) = ⌈Double.round (totalItems / pageSize)⌉ := by
  rw [ceil_round_div hItems hSize, totalPages]
  split_ifs with hNone
  · simp [hNone]
  · exact Int.natCast_ceil_eq_ceil (div_nonneg (Nat.cast_nonneg _) (Nat.cast_nonneg _))

namespace PaginationQueryDto

variable {page pageSize id : QueryValue} {query : PaginationQueryDto}

/-- An integer that is not less than one is a natural number. -/
theorem exists_eq_natCast {value : Number} {property : String} (hInt : isInt property value = [])
    (hMin : min property value = []) : ∃ number : ℕ, value = .finite number ∧ 1 ≤ number := by
  cases value with
  | nan => cases hInt
  | infinite negative => cases hInt
  | finite value =>
      have hDen : value.den = 1 := by
        by_contra hDen
        simp [isInt, Number.isInteger, hDen] at hInt
      have hOne : 1 ≤ value := by
        by_contra hOne
        simp [min, Number.ge, hOne] at hMin
      have hValue : (value.num : ℚ) = value := (Rat.den_eq_one_iff value).mp hDen
      have hNum : 1 ≤ value.num := by
        rw [← hValue] at hOne
        exact_mod_cast hOne
      obtain ⟨number, hNumber⟩ := Int.eq_ofNat_of_zero_le (zero_le_one.trans hNum)
      refine ⟨number, ?_, ?_⟩
      · rw [← hValue, hNumber]
        rfl
      · rw [hNumber] at hNum
        exact_mod_cast hNum

/-- A number that is used is safe if the default is. -/
theorem isSafeInteger_toPositiveInteger {value : QueryValue} {fallback : Number} {number : ℚ}
    (hFallback : fallback.isSafeInteger = true)
    (h : toPositiveInteger value fallback = .finite number) :
    (Number.finite number).isSafeInteger = true := by
  rw [← h]
  unfold toPositiveInteger at h ⊢
  split_ifs with hAbsent
  · exact hFallback
  · dsimp only at h ⊢
    split_ifs at h ⊢ with hSafe
    exact hSafe

/-- A string of digits is read as the integer that it writes. -/
theorem digits_of_toPositiveInteger {content : String} {fallback : Number} {number : ℕ}
    (hText : content ≠ "") (h : toPositiveInteger (.text content) fallback = .finite number) :
    isDigits content = true ∧ digitsValue content = number := by
  simp only [toPositiveInteger, reduceCtorEq, QueryValue.text.injEq, hText, or_self, if_false] at h
  split_ifs at h with hDigits hSafe
  rw [ofRat_natCast (isSafeInteger_ofRat.mp hSafe), Number.finite.injEq] at h
  exact ⟨hDigits, by exact_mod_cast h⟩

theorem isSafeInteger_natCast {number : ℕ} :
    (Number.finite number).isSafeInteger = true ↔ number ≤ maxSafeInteger := by
  simp only [Number.isSafeInteger, Rat.den_natCast, Nat.abs_cast, Bool.and_eq_true,
    decide_eq_true_eq, true_and]
  exact Nat.cast_le

/-- The numbers of an accepted query, and their product. -/
structure Accepted (query : PaginationQueryDto) (page pageSize : ℕ) : Prop where
  page_eq : query.page = .finite page
  pageSize_eq : query.pageSize = .finite pageSize
  page_pos : 1 ≤ page
  pageSize_pos : 1 ≤ pageSize
  pageSize_le : pageSize ≤ 100
  offset_safe : (page - 1) * pageSize ≤ maxSafeInteger
  offset_eq : query.offset = .finite ((page - 1) * pageSize : ℕ)

/-- Subtraction and multiplication lose nothing if their operands and the product
are safe. -/
theorem offset_of_safe {number size : ℕ} (hPage : query.page = .finite number)
    (hSize : query.pageSize = .finite size) (hPos : 1 ≤ number) (hSafe : number ≤ maxSafeInteger) :
    query.offset = .ofRat ((number - 1) * size : ℕ) := by
  have hSub : query.page.add (-1) = .finite (number - 1 : ℕ) := by
    rw [hPage, Number.add, ← sub_eq_add_neg, ← Nat.cast_one, ← Nat.cast_sub hPos,
      ofRat_natCast ((Nat.sub_le number 1).trans hSafe)]
  rw [offset, hSub, hSize, Number.mul, Nat.cast_mul]

theorem accepted_of_ok (h : accept page pageSize id = .ok query) :
    query = transform page pageSize id ∧ ∃ number size : ℕ, query.Accepted number size := by
  unfold accept at h
  dsimp only at h
  split_ifs at h with hErrors
  cases h
  refine ⟨rfl, ?_⟩
  simp only [errors, List.append_eq_nil_iff, ite_eq_left_iff, List.cons_ne_nil, imp_false,
    Bool.not_eq_true, Bool.not_eq_false] at hErrors
  obtain ⟨⟨⟨⟨⟨hPageInt, hPageMin⟩, hSizeInt⟩, hSizeMin⟩, hMax⟩, hOffset⟩ := hErrors
  obtain ⟨number, hPage, hPagePos⟩ := exists_eq_natCast hPageInt hPageMin
  obtain ⟨size, hSize, hSizePos⟩ := exists_eq_natCast hSizeInt hSizeMin
  have hPageSafe := isSafeInteger_toPositiveInteger (by decide +kernel) hPage
  have hSizeSafe := isSafeInteger_toPositiveInteger (by decide +kernel) hSize
  have hProduct := offset_of_safe hPage hSize hPagePos (isSafeInteger_natCast.mp hPageSafe)
  rw [SafePaginationOffset.validate, hPage, hPageSafe, ← hPage, hSize, hSizeSafe, ← hSize,
    Bool.not_true, Bool.or_false, Bool.false_or] at hOffset
  change (offset _).isSafeInteger = true at hOffset
  rw [hProduct] at hOffset
  have hSafe := isSafeInteger_ofRat.mp hOffset
  rw [hSize] at hMax
  exact ⟨number, size, hPage, hSize, hPagePos, hSizePos,
    by simpa [Number.le] using hMax, hSafe, hProduct.trans (ofRat_natCast hSafe)⟩

end PaginationQueryDto
end ExchangeMatching
