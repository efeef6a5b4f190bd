import ExchangeMatching.Library.Truncation

/-! Decimal numerals: which strings are numerals, the number that a numeral
denotes, and the numeral that is printed for a number with a fixed number of
places. A printed numeral denotes the number that it was printed for. -/
namespace DecimalArithmetic

/-- Digits, and the digits after the dot if there is one. -/
structure Numeral where
  integer : List Char
  fraction : List Char
  integer_ne_nil : integer ≠ []
  isDigit_integer : ∀ c ∈ integer, c.isDigit
  isDigit_fraction : ∀ c ∈ fraction, c.isDigit

namespace Numeral

def chars (numeral : Numeral) : List Char :=
  match numeral.fraction with
  | [] => numeral.integer
  | fraction => numeral.integer ++ '.' :: fraction

theorem chars_ne_nil (numeral : Numeral) : numeral.chars ≠ [] := by
  unfold chars
  split
  · exact numeral.integer_ne_nil
  · exact List.append_ne_nil_of_right_ne_nil _ (List.cons_ne_nil _ _)

/-- The digits of a numeral as one number. -/
def mantissa (numeral : Numeral) : Nat :=
  Nat.ofDigitChars 10 (numeral.integer ++ numeral.fraction) 0

def value (numeral : Numeral) : Decimal := ⟨numeral.mantissa, -numeral.fraction.length⟩

/-- Whether a string has the form `^\d+(\.\d{1,places})?$`. -/
def matchesPattern (places : Nat) (string : List Char) : Bool :=
  !(string.takeWhile Char.isDigit).isEmpty &&
    match string.dropWhile Char.isDigit with
    | [] => true
    | separator :: fraction =>
        separator = '.' && fraction.all Char.isDigit && 1 ≤ fraction.length &&
          fraction.length ≤ places

/-- Characters with a property end where one without it begins. -/
theorem takeWhile_append_of_head {p : Char → Bool} {chars : List Char} (rest : List Char)
    (hChars : ∀ c ∈ chars, p c) (hRest : ∀ c ∈ rest.head?, ¬p c) :
    (chars ++ rest).takeWhile p = chars ∧ (chars ++ rest).dropWhile p = rest := by
  induction chars with
  | nil =>
      cases rest with
      | nil => exact ⟨rfl, rfl⟩
      | cons c rest =>
          have hStop : p c = false := by simpa using hRest c rfl
          simp [hStop]
  | cons c chars ih =>
      rw [List.forall_mem_cons] at hChars
      have hTail := ih hChars.2
      simp only [List.cons_append, List.takeWhile_cons, List.dropWhile_cons, hChars.1, if_true,
        hTail, and_self]

theorem takeWhile_digits {digits : List Char} (rest : List Char) (hDigits : ∀ c ∈ digits, c.isDigit)
    (hRest : ∀ c ∈ rest.head?, ¬c.isDigit) :
    (digits ++ rest).takeWhile Char.isDigit = digits ∧
      (digits ++ rest).dropWhile Char.isDigit = rest :=
  takeWhile_append_of_head rest hDigits hRest

theorem matchesPattern_chars {places : Nat} (numeral : Numeral)
    (hPlaces : numeral.fraction.length ≤ places) : matchesPattern places numeral.chars = true := by
  obtain ⟨integer, fraction, hNonempty, hInteger, hFraction⟩ := numeral
  cases fraction with
  | nil =>
      have hSplit := takeWhile_digits [] hInteger (fun _ h => by cases h)
      rw [List.append_nil] at hSplit
      simp [matchesPattern, chars, hSplit, hNonempty]
  | cons digit fraction =>
      have hSplit := takeWhile_digits ('.' :: digit :: fraction) hInteger
        (fun c hc => by cases hc; decide)
      have hAll : (digit :: fraction).all Char.isDigit = true := List.all_eq_true.mpr hFraction
      simp only [matchesPattern, chars, hSplit]
      simp only [hAll, List.isEmpty_eq_false_iff.mpr hNonempty]
      simpa using hPlaces

/-- A string of this form is a numeral. -/
theorem exists_of_matchesPattern {places : Nat} {string : List Char}
    (h : matchesPattern places string = true) :
    ∃ numeral : Numeral, numeral.chars = string ∧ numeral.fraction.length ≤ places := by
  rw [matchesPattern, Bool.and_eq_true, Bool.not_eq_true', List.isEmpty_eq_false_iff] at h
  obtain ⟨hNonempty, hRest⟩ := h
  have hInteger : ∀ c ∈ string.takeWhile Char.isDigit, c.isDigit := 
    List.all_eq_true.mp List.all_takeWhile
  have hString := List.takeWhile_append_dropWhile (p := Char.isDigit) (l := string)
  cases hDrop : string.dropWhile Char.isDigit with
  | nil =>
      rw [hDrop, List.append_nil] at hString
      exact ⟨⟨_, [], hNonempty, hInteger, fun _ h => by cases h⟩, hString, Nat.zero_le _⟩
  | cons separator fraction =>
      rw [hDrop] at hRest hString
      simp only [Bool.and_eq_true, decide_eq_true_eq, List.all_eq_true] at hRest
      obtain ⟨⟨⟨rfl, hFraction⟩, hSome⟩, hFew⟩ := hRest
      refine ⟨⟨_, fraction, hNonempty, hInteger, hFraction⟩, ?_, hFew⟩
      cases fraction with
      | nil => cases hSome
      | cons digit fraction => exact hString

/-- Read a numeral of any length. -/
def read (string : List Char) : Option Decimal :=
  if matchesPattern string.length string then
    some ⟨Nat.ofDigitChars 10 (string.filter (· ≠ '.')) 0,
      -((string.dropWhile Char.isDigit).tail.length : Int)⟩
  else none

theorem read_chars (numeral : Numeral) : read numeral.chars = some numeral.value := by
  have hLength : numeral.fraction.length ≤ numeral.chars.length := by
    obtain ⟨integer, fraction, _, _, _⟩ := numeral
    cases fraction with
    | nil => exact Nat.zero_le _
    | cons digit fraction =>
        simp only [chars, List.length_append, List.length_cons]
        omega
  have hKept : ∀ {digits : List Char}, (∀ c ∈ digits, c.isDigit) →
      digits.filter (· ≠ '.') = digits := by
    intro digits hDigits
    rw [List.filter_eq_self]
    intro c hc
    have hNe : c ≠ '.' := by
      rintro rfl
      cases hDigits _ hc
    exact decide_eq_true hNe
  rw [read, if_pos (matchesPattern_chars numeral hLength)]
  obtain ⟨integer, fraction, hNonempty, hInteger, hFraction⟩ := numeral
  cases fraction with
  | nil =>
      have hSplit := takeWhile_digits [] hInteger (fun _ h => by cases h)
      rw [List.append_nil] at hSplit
      simp only [chars, value, mantissa, hKept hInteger, hSplit.2, List.append_nil, List.tail_nil]
  | cons digit fraction =>
      have hSplit := takeWhile_digits ('.' :: digit :: fraction) hInteger
        (fun c hc => by cases hc; decide)
      have hDot : ('.' :: digit :: fraction).filter (· ≠ '.') = digit :: fraction := by
        rw [List.filter_cons_of_neg (by decide), hKept hFraction]
      simp only [chars, value, mantissa, List.filter_append, hKept hInteger, hDot, hSplit.2,
        List.tail_cons]

/-- Zeros behind the last digit do not change the number. -/
theorem toRat_value_append {numeral shorter : Numeral} {zeros : List Char}
    (hZeros : ∀ c ∈ zeros, c = '0') (hInteger : numeral.integer = shorter.integer)
    (hFraction : numeral.fraction = shorter.fraction ++ zeros) :
    numeral.value.toRat = shorter.value.toRat := by
  have hShift : ∀ init : Nat, Nat.ofDigitChars 10 zeros init = 10 ^ zeros.length * init := by
    intro init
    rw [List.eq_replicate_of_mem hZeros, Nat.ofDigitChars_replicate_zero, List.length_replicate]
  have hMantissa : numeral.mantissa = 10 ^ zeros.length * shorter.mantissa := by
    rw [mantissa, mantissa, hInteger, hFraction, ← List.append_assoc, Nat.ofDigitChars_append,
      hShift]
  have hPower : (10 : ℚ) ^ (-shorter.fraction.length : ℤ) =
      10 ^ zeros.length * 10 ^ (-(shorter.fraction.length + zeros.length : ℕ) : ℤ) := by
    rw [← zpow_natCast, ← zpow_add₀ (by norm_num)]
    congr 1
    omega
  simp only [value, Decimal.toRat, hMantissa, hFraction, List.length_append, hPower]
  push_cast
  ring

section Printing

/-- The last digits of a number, with leading zeros. -/
def lastDigits : Nat → Nat → List Char
  | 0, _ => []
  | places + 1, number => lastDigits places (number / 10) ++ [(number % 10).digitChar]

theorem length_lastDigits (places number : Nat) : (lastDigits places number).length = places := by
  induction places generalizing number with
  | zero => rfl
  | succ places ih => rw [lastDigits, List.length_append, ih, List.length_singleton]

theorem isDigit_lastDigits (places number : Nat) : ∀ c ∈ lastDigits places number, c.isDigit := by
  induction places generalizing number with
  | zero => exact fun _ h => by cases h
  | succ places ih =>
      intro c hc
      rcases List.mem_append.mp hc with hc | hc
      · exact ih _ c hc
      · rw [List.mem_singleton.mp hc, Nat.isDigit_digitChar, decide_eq_true_eq]
        exact Nat.mod_lt _ (by omega)

/-- Digits appended to the others of a number restore it. -/
theorem ofDigitChars_lastDigits (places number : Nat) :
    Nat.ofDigitChars 10 (lastDigits places number) (number / 10 ^ places) = number := by
  induction places generalizing number with
  | zero => simp [lastDigits]
  | succ places ih =>
      have hPower : number / 10 ^ (places + 1) = number / 10 / 10 ^ places := by
        rw [pow_succ', Nat.div_div_eq_div_mul]
      rw [lastDigits, Nat.ofDigitChars_append, hPower, ih,
        Nat.ofDigitChars_cons_digitChar_of_lt_ten (Nat.mod_lt _ (by omega)), Nat.ofDigitChars_nil,
        Nat.div_add_mod]

/-- A number of units of the last place. -/
def ofUnits (places units : Nat) : Numeral where
  integer := Nat.toDigits 10 (units / 10 ^ places)
  fraction := lastDigits places units
  integer_ne_nil := Nat.toDigits_ne_nil
  isDigit_integer := fun _ => Nat.isDigit_of_mem_toDigits (by omega) (by omega)
  isDigit_fraction := isDigit_lastDigits places units

theorem value_ofUnits (places units : Nat) :
    (ofUnits places units).value = .ofUnits places units := by
  have hMantissa : (ofUnits places units).mantissa = units := by
    rw [mantissa, ofUnits, Nat.ofDigitChars_append, Nat.ofDigitChars_ten_toDigits,
      ofDigitChars_lastDigits]
  rw [value, hMantissa, Decimal.ofUnits, ofUnits, length_lastDigits]

end Printing
end Numeral

namespace Decimal

/-- The number cut after `places` decimal places and printed with all of them. -/
def toFixed (places : Nat) (value : Decimal) : String :=
  (if value.mantissa < 0 then "-" else "") ++
    .ofList (Numeral.ofUnits places (units places (toDecimalPlaces places value)).natAbs).chars

theorem toFixed_of_nonneg {places : Nat} {value : Decimal} (h : 0 ≤ value.mantissa) :
    toFixed places value =
      .ofList
        (Numeral.ofUnits places (units places (toDecimalPlaces places value)).natAbs).chars := by
  rw [toFixed, if_neg (not_lt.mpr h), String.empty_append]

/-- What the cut keeps of a number, in units. -/
theorem units_toDecimalPlaces (places mantissa below : Nat) :
    units places (toDecimalPlaces places ⟨mantissa, -below⟩) =
      ((mantissa * 10 ^ places / 10 ^ below : Nat) : Int) := by
  by_cases hLow : below ≤ places
  · have hExponent : -(places : Int) ≤ -(below : Int) := by omega
    have hPower : (-(below : Int) + places).toNat = places - below := by omega
    have hSplit : mantissa * 10 ^ places = mantissa * 10 ^ (places - below) * 10 ^ below := by
      rw [mul_assoc, ← pow_add, Nat.sub_add_cancel hLow]
    rw [toDecimalPlaces, if_pos hExponent, hSplit, Nat.mul_div_cancel _ (Nat.pow_pos (by omega)),
      units, hPower]
    push_cast
    rfl
  · have hExponent : ¬-(places : Int) ≤ -(below : Int) := by omega
    have hPower : (-(places : Int) - -(below : Int)).toNat = below - places := by omega
    have hSplit : 10 ^ below = 10 ^ (below - places) * 10 ^ places := by
      rw [← pow_add, Nat.sub_add_cancel (by omega)]
    rw [toDecimalPlaces, if_neg hExponent, hSplit,
      Nat.mul_div_mul_right _ _ (Nat.pow_pos (by omega)), units, hPower]
    simp only [neg_add_cancel, Int.toNat_zero, pow_zero, mul_one]
    rw [Int.tdiv_eq_ediv_of_nonneg (by omega)]
    push_cast
    rfl

end Decimal
end DecimalArithmetic
