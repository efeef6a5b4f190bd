import ExchangeMatching.OrderForm

/-! The amounts that the frontend displays. Zeros at the end are left out, but
not the first two decimals, and no number is changed by it. -/
namespace ExchangeMatching

open DecimalArithmetic

namespace Format

/-- What `\d{2,}?` matches in front of `0+$`: the fewest digits, two at least,
that only zeros follow. -/
def shortestDigits (digits : List Char) : List Char → Option (List Char)
  | [] => none
  | c :: rest =>
      if 2 ≤ digits.length && (c :: rest).all (· = '0') then some digits
      else if c.isDigit then shortestDigits (digits ++ [c]) rest
      else none

/-- `replace(/(\.\d{2,}?)0+$/, '$1')`, at the first dot where it matches. -/
def trimZeros : List Char → List Char
  | [] => []
  | c :: rest =>
      if c = '.' then
        match shortestDigits [] rest with
        | some digits => c :: digits
        | none => c :: trimZeros rest
      else c :: trimZeros rest

section Formats

variable (construct : String → Option FormDecimal)

def formatDecimal (value : Option String) : Option String :=
  match value with
  | none => none
  | some value =>
      if value = "" then none
      else some (.ofList (trimZeros
        ((OrderForm.parseDecimal construct value).toFixed decimalScale).toList))

def toDisplayDecimal (value : Option String) : String := (formatDecimal construct value).getD "0.00"

end Formats

/-- The fraction without zeros at its end, except among the first two digits. -/
structure Trimmed (fraction shown : List Char) : Prop where
  zeros : ∃ zeros, (∀ c ∈ zeros, c = '0') ∧ fraction = shown ++ zeros
  two : 2 ≤ shown.length
  last : 2 < shown.length → shown.getLast? ≠ some '0'

/-- The search goes on from digits that could not end the match. -/
theorem trimmed_shortestDigits {digits rest : List Char} (hDigits : ∀ c ∈ rest, c.isDigit)
    (hLast : 2 < digits.length → digits.getLast? ≠ some '0' ∨ ¬(rest.all (· = '0')))
    (hTwo : 2 ≤ (digits ++ rest).length) :
    Trimmed (digits ++ rest) ((shortestDigits digits rest).getD (digits ++ rest)) := by
  induction rest generalizing digits with
  | nil =>
      simp only [shortestDigits, Option.getD_none, List.append_nil] at hTwo ⊢
      refine ⟨⟨[], by simp⟩, hTwo, fun hLong => ?_⟩
      simpa using hLast hLong
  | cons c rest ih =>
      rw [List.forall_mem_cons] at hDigits
      have hAppend : digits ++ c :: rest = digits ++ [c] ++ rest := by simp
      rw [shortestDigits]
      split_ifs with hMatch hDigit
      · rw [Bool.and_eq_true, decide_eq_true_eq] at hMatch
        refine ⟨⟨c :: rest, fun d hd => ?_, rfl⟩, hMatch.1, fun hLong => ?_⟩
        · exact of_decide_eq_true (List.all_eq_true.mp hMatch.2 d hd)
        · exact (hLast hLong).resolve_right (not_not.mpr hMatch.2)
      · rw [hAppend] at hTwo ⊢
        refine ih hDigits.2 (fun hLong => ?_) hTwo
        -- A zero that only zeros follow would have ended the match before.
        rw [List.getLast?_concat]
        by_contra hBoth
        simp only [not_or, not_not, Option.some.injEq] at hBoth
        obtain ⟨rfl, hZeros⟩ := hBoth
        have hEnough : 2 ≤ digits.length := by
          rw [List.length_append, List.length_singleton] at hLong
          omega
        exact hMatch (by simp [hEnough, hZeros])
      · exact absurd hDigits.1 hDigit

/-- Only what follows the dot is trimmed. -/
theorem trimZeros_append {integer fraction : List Char} (hInteger : ∀ c ∈ integer, c.isDigit)
    (hFraction : ∀ c ∈ fraction, c.isDigit) :
    trimZeros (integer ++ '.' :: fraction) =
      integer ++ '.' :: (shortestDigits [] fraction).getD fraction := by
  have hNoDot : ∀ {c : Char}, c.isDigit → c ≠ '.' := by
    rintro c hDigit rfl
    cases hDigit
  have hKept : trimZeros fraction = fraction := by
    induction fraction with
    | nil => rfl
    | cons c fraction ih =>
        rw [List.forall_mem_cons] at hFraction
        rw [trimZeros, if_neg (hNoDot hFraction.1), ih hFraction.2]
  induction integer with
  | nil =>
      rw [List.nil_append, trimZeros, if_pos rfl, List.nil_append]
      cases shortestDigits [] fraction with
      | none => exact congrArg _ hKept
      | some digits => rfl
  | cons c integer ih =>
      rw [List.forall_mem_cons] at hInteger
      rw [List.cons_append, trimZeros, if_neg (hNoDot hInteger.1), ih hInteger.2, List.cons_append]

section Display

open OrderForm

variable {construct : String → Option FormDecimal} (hReads : ReadsNumerals construct .finite)
variable {numeral : Numeral} (hPlaces : numeral.fraction.length = decimalScale)

include hPlaces

/-- Only zeros in front of the number get lost. -/
theorem toFixed_value : (FormDecimal.finite numeral.value).toFixed decimalScale =
    .ofList (Numeral.ofUnits decimalScale numeral.mantissa).chars := by
  have hUnits : Decimal.units decimalScale (Decimal.toDecimalPlaces decimalScale numeral.value) =
      numeral.mantissa := by
    rw [Numeral.value, Decimal.units_toDecimalPlaces, hPlaces,
      Nat.mul_div_cancel _ (Nat.pow_pos (by omega))]
  rw [FormDecimal.toFixed, Decimal.toFixed_of_nonneg (Int.natCast_nonneg _), hUnits,
    Int.natAbs_natCast]

theorem value_eq_ofUnits :
    (Numeral.ofUnits decimalScale numeral.mantissa).value = numeral.value := by
  rw [Numeral.value_ofUnits, Decimal.ofUnits, Numeral.value, hPlaces]

include hReads

/-- A numeral with eight places is displayed as a numeral for the same number. -/
theorem toDisplayDecimal_chars : ∃ shown : Numeral,
    toDisplayDecimal construct (some (.ofList numeral.chars)) = .ofList shown.chars ∧
    shown.value.toRat = numeral.value.toRat ∧
    Trimmed (Numeral.ofUnits decimalScale numeral.mantissa).fraction shown.fraction := by
  have hValue := value_eq_ofUnits hPlaces
  have hFixed := toFixed_value hPlaces
  have hLength : (Numeral.ofUnits decimalScale numeral.mantissa).fraction.length = decimalScale :=
    Numeral.length_lastDigits ..
  generalize Numeral.ofUnits decimalScale numeral.mantissa = printed at hValue hFixed hLength ⊢
  have hTwo : 2 ≤ printed.fraction.length := hLength ▸ (show 2 ≤ decimalScale by decide)
  have hTrimmed := @trimmed_shortestDigits [] printed.fraction printed.isDigit_fraction
    (fun hLong => by cases hLong) hTwo
  have hShown := trimZeros_append printed.isDigit_integer printed.isDigit_fraction
  rw [List.nil_append] at hTrimmed
  generalize (shortestDigits [] printed.fraction).getD printed.fraction =
    fraction at hTrimmed hShown
  obtain ⟨zeros, hZeros, hSplit⟩ := hTrimmed.zeros
  have hChars : ∀ numeral : Numeral, 2 ≤ numeral.fraction.length →
      numeral.chars = numeral.integer ++ '.' :: numeral.fraction := by
    rintro ⟨integer, fraction, _, _, _⟩ hLong
    cases fraction with
    | nil => cases hLong
    | cons digit fraction => rfl
  have hDigits : ∀ c ∈ fraction, c.isDigit :=
    fun c hc => printed.isDigit_fraction c (hSplit ▸ List.mem_append_left _ hc)
  let shown : Numeral :=
    ⟨printed.integer, fraction, printed.integer_ne_nil, printed.isDigit_integer, hDigits⟩
  refine ⟨shown, ?_, ?_, hTrimmed⟩
  · rw [toDisplayDecimal, formatDecimal, if_neg (ofList_chars_ne_empty numeral),
      parseDecimal_chars hReads, hFixed, String.toList_ofList, hChars printed hTwo, hShown,
      Option.getD_some, hChars shown hTrimmed.two]
  · rw [← hValue]
    exact (@Numeral.toRat_value_append printed shown zeros hZeros rfl hSplit).symm

end Display

/-- What is typed into a field becomes a numeral that the field may show, and a
numeral of the form is left as it is. An amount with eight places is displayed
as the same number, with two decimals at least and no zero behind the others. -/
theorem numbers_kept {construct : String → Option FormDecimal}
    (hReads : OrderForm.ReadsNumerals construct .finite) :
    (∀ value : String, OrderForm.sanitizeDecimalInput value = "" ∨
      ∃ integer : List Char, integer ≠ [] ∧ (∀ c ∈ integer, c.isDigit) ∧
        (OrderForm.sanitizeDecimalInput value = .ofList integer ∨
          ∃ fraction : List Char, (∀ c ∈ fraction, c.isDigit) ∧ fraction.length ≤ 8 ∧
            OrderForm.sanitizeDecimalInput value = .ofList (integer ++ '.' :: fraction))) ∧
    (∀ value : String, OrderForm.sanitizeDecimalInput (OrderForm.sanitizeDecimalInput value) =
      OrderForm.sanitizeDecimalInput value) ∧
    (∀ value : String, OrderForm.decimalPattern value = true →
      OrderForm.sanitizeDecimalInput value = value) ∧
    ∀ numeral : Numeral, numeral.fraction.length = 8 → ∃ shown : Numeral,
      toDisplayDecimal construct (some (.ofList numeral.chars)) = .ofList shown.chars ∧
      shown.value.toRat = numeral.value.toRat ∧ 2 ≤ shown.fraction.length ∧
      (2 < shown.fraction.length → shown.fraction.getLast? ≠ some '0') := by
  refine ⟨fun value => ?_, fun value => ?_, fun value hPattern => ?_, fun numeral hPlaces => ?_⟩
  · obtain ⟨string, hShown, hString⟩ := OrderForm.sanitizeDecimalInput_shown value
    rw [hString]
    cases hShown with
    | empty => exact Or.inl rfl
    | whole nonempty digits => exact Or.inr ⟨_, nonempty, digits, Or.inl rfl⟩
    | decimal nonempty digits fractionDigits places =>
        exact Or.inr ⟨_, nonempty, digits, Or.inr ⟨_, fractionDigits, places, rfl⟩⟩
  · obtain ⟨string, hShown, hString⟩ := OrderForm.sanitizeDecimalInput_shown value
    rw [hString, OrderForm.sanitizeDecimalInput_of_shown hShown]
  · obtain ⟨numeral, hChars, hPlaces⟩ := Numeral.exists_of_matchesPattern hPattern
    have hValue := OrderForm.sanitizeDecimalInput_of_shown (OrderForm.shown_chars hPlaces)
    rwa [hChars, String.ofList_toList] at hValue
  · obtain ⟨shown, hDisplay, hValue, hTrimmed⟩ := toDisplayDecimal_chars hReads hPlaces
    exact ⟨shown, hDisplay, hValue, hTrimmed.two, hTrimmed.last⟩

theorem numbers_kept_sample :
    toDisplayDecimal OrderForm.Sample.construct (some "0.00150000") = "0.0015" ∧
    OrderForm.sanitizeDecimalInput "x.5.2" = "0.52" ∧
    ∃ shown : Numeral, toDisplayDecimal OrderForm.Sample.construct
      (some (.ofList (Numeral.ofUnits 8 150000).chars)) = .ofList shown.chars ∧
      2 ≤ shown.fraction.length := by
  obtain ⟨_, _, _, hDisplay⟩ := numbers_kept OrderForm.Sample.reads_construct
  obtain ⟨shown, hShown, _, hTwo, _⟩ := hDisplay (.ofUnits 8 150000) (Numeral.length_lastDigits ..)
  exact ⟨by decide +kernel, by decide +kernel, shown, hShown, hTwo⟩

end Format
end ExchangeMatching
