import ChainGenesis.Proofs.Amount
import ChainGenesis.Validation

/-!
# Which texts are amounts

Of all texts those are amounts that are made of the ten digits and nothing else, and they are
also the balances that a genesis may hold. A minus sign before such a text is told apart from
everything else that is refused. An amount is shown by the digits it was parsed from, less the
zeros before them, and amounts are in the order of these texts once the shorter ones come first.
-/

namespace ChainGenesis

/-! ## Zeros before a number -/

/-- A text of digits without the zeros before it. One zero stays where there is nothing else. -/
def withoutLeadingZeros (text : String) : String :=
  match text.toList.dropWhile (· = '0') with
  | [] => "0"
  | digits => String.ofList digits

/-- Zeros before some digits do not change the number. -/
theorem ofDigitChars_dropWhile_zeros (digits : List Char) :
    Nat.ofDigitChars 10 (digits.dropWhile (· = '0')) 0 = Nat.ofDigitChars 10 digits 0 := by
  conv_rhs => rw [← List.takeWhile_append_dropWhile (p := (· = '0')) (l := digits),
    takeWhile_zeros]
  rw [Nat.ofDigitChars_append, Nat.ofDigitChars_replicate_zero, Nat.mul_zero]

/-- What is left without the zeros is the decimal of the number. -/
theorem decimalOf_withoutLeadingZeros {text : String}
    (h : ∀ c ∈ text.toList, c.isDigit = true) :
    DecimalOf (Nat.ofDigitChars 10 text.toList 0) (withoutLeadingZeros text).toList := by
  have hvalue := ofDigitChars_dropWhile_zeros text.toList
  have hhead := List.head?_dropWhile_not (fun c => decide (c = '0')) text.toList
  rw [withoutLeadingZeros]
  cases hrest : text.toList.dropWhile (· = '0') with
  | nil =>
      rw [← hvalue, hrest]
      exact decimalOf_toDigits 0
  | cons first rest =>
      rw [hrest, List.head?_cons] at hhead
      show DecimalOf _ (String.ofList (first :: rest)).toList
      rw [String.toList_ofList]
      refine ⟨fun c hmem => ?_, hrest ▸ hvalue, List.cons_ne_nil _ _, ?_⟩
      · rw [← hrest] at hmem
        exact h c (List.dropWhile_sublist _ |>.mem hmem)
      · intro hzero
        injection hzero with hzero
        exact absurd (decide_eq_true hzero) (by simp [hhead])

namespace Wei

/-! ## Parsing -/

/-- A text of the ten digits, with one at least. -/
def IsNumeral (text : String) : Prop :=
  text ≠ "" ∧ ∀ c ∈ text.toList, '0' ≤ c ∧ c ≤ '9'

/-- A text of digits with a minus sign before it. -/
def IsNegated (text : String) : Prop := ∃ digits, IsNumeral digits ∧ text = "-" ++ digits

theorem isDigitString_iff_isNumeral {text : String} :
    isDigitString text = true ↔ IsNumeral text := by
  rw [isDigitString_iff, IsNumeral, Ne, Ne, String.toList_eq_nil_iff]
  have hdigit : ∀ c : Char, c.isDigit = true ↔ '0' ≤ c ∧ c ≤ '9' := fun c =>
    Char.isDigit_iff_toNat
  simp only [hdigit]

theorem isNegative_iff {text : String} : isNegative text = true ↔ IsNegated text := by
  unfold isNegative
  split
  · rename_i digits heq
    have htext : text = "-" ++ String.ofList digits := by
      rw [← String.toList_inj, heq, String.toList_append, @String.toList_ofList digits]
      rfl
    rw [isDigitString_iff_isNumeral]
    constructor
    · intro h
      exact ⟨_, h, htext⟩
    · rintro ⟨digits', h, heq'⟩
      rw [htext, String.append_right_inj] at heq'
      exact heq' ▸ h
  · rename_i hnot
    refine iff_of_false Bool.false_ne_true ?_
    rintro ⟨digits, _, rfl⟩
    exact hnot digits.toList (by rw [String.toList_append]; rfl)

theorem IsNegated.not_isNumeral {text : String} (h : IsNegated text) : ¬ IsNumeral text := by
  intro hnumeral
  have hfalse := isNegative_eq_false (isDigitString_iff_isNumeral.mpr hnumeral)
  exact absurd (isNegative_iff.mpr h) (by simp [hfalse])

theorem exists_parse_iff {text : String} :
    (∃ amount, parse text = .ok amount) ↔ IsNumeral text := by
  simp only [parse_eq_ok_iff, isDigitString_iff_isNumeral, exists_and_left, exists_eq, and_true]

/-- What is refused is a number with a minus sign, or anything else. -/
theorem parse_of_not_isNumeral {text : String} (h : ¬ IsNumeral text) :
    IsNegated text ∧ parse text = .error (.negative text)
      ∨ ¬ IsNegated text ∧ parse text = .error (.malformed .amount text) := by
  by_cases hnegated : IsNegated text
  · exact .inl ⟨hnegated, by rw [parse, if_pos (isNegative_iff.mpr hnegated)]⟩
  · refine .inr ⟨hnegated, ?_⟩
    rw [parse, if_neg (isNegative_iff.not.mpr hnegated),
      if_neg (isDigitString_iff_isNumeral.not.mpr h)]

theorem parse_eq_negative_iff {text found : String} :
    parse text = .error (.negative found) ↔ found = text ∧ IsNegated text := by
  by_cases hnumeral : IsNumeral text
  · obtain ⟨amount, hparse⟩ := exists_parse_iff.mpr hnumeral
    rw [hparse]
    exact iff_of_false (by simp) fun h => h.2.not_isNumeral hnumeral
  · rcases parse_of_not_isNumeral hnumeral with ⟨hnegated, hparse⟩ | ⟨hnot, hparse⟩
    · rw [hparse]
      simp [hnegated, eq_comm]
    · rw [hparse]
      exact iff_of_false (by simp) fun h => hnot h.2

theorem parse_eq_malformed_iff {text found : String} {what : Primitive} :
    parse text = .error (.malformed what found)
      ↔ what = .amount ∧ found = text ∧ ¬ IsNumeral text ∧ ¬ IsNegated text := by
  by_cases hnumeral : IsNumeral text
  · obtain ⟨amount, hparse⟩ := exists_parse_iff.mpr hnumeral
    rw [hparse]
    exact iff_of_false (by simp) fun h => h.2.2.1 hnumeral
  · rcases parse_of_not_isNumeral hnumeral with ⟨hnegated, hparse⟩ | ⟨hnot, hparse⟩
    · rw [hparse]
      exact iff_of_false (by simp) fun h => h.2.2.2 hnegated
    · rw [hparse]
      simp [hnumeral, hnot, eq_comm]

/-- A genesis takes as a balance what is parsed as an amount. -/
theorem checkBalance_eq_none_iff {path : DocPath} {text : String} :
    Validation.checkBalance path (some (.string text)) = .none ↔ IsNumeral text := by
  rw [← isDigitString_iff_isNumeral, Validation.checkBalance]
  cases isDigitString text with
  | true => exact iff_of_true rfl rfl
  | false => exact iff_of_false (by simp [Findings.error, Findings.none]) Bool.false_ne_true

/-- The text of an amount is the one it was parsed from, less the zeros before it. -/
theorem text_of_parse {text : String} {amount : Wei} (h : parse text = .ok amount) :
    amount.text = withoutLeadingZeros text := by
  obtain ⟨hdigits, rfl⟩ := parse_eq_ok_iff.mp h
  have hdecimal := decimalOf_withoutLeadingZeros (isDigitString_iff.mp hdigits).2
  rw [Wei.text, ← hdecimal.eq_toDigits, String.ofList_toList]

/-! ## The order of amounts -/

/-- **Amounts are in the order of their texts, the shorter first.** -/
theorem compare_eq (amount other : Wei) :
    compare amount other
      = (compare amount.text.length other.text.length).then (compare amount.text other.text) := by
  have hlt : ∀ a b : Wei, a.value < b.value →
      (compare a.text.length b.text.length).then (compare a.text b.text) = .lt := by
    intro a b hless
    have htext : a.text < b.text ↔ Nat.toDigits 10 a.value < Nat.toDigits 10 b.value := by
      rw [String.lt_iff_toList_lt, text, text, String.toList_ofList, String.toList_ofList]
    rw [Ordering.then_eq_lt, compare_lt_iff_lt, compare_eq_iff_eq, compare_lt_iff_lt, htext]
    simp only [text, String.length_ofList]
    exact toDigits_lt_iff.mp hless
  rcases Nat.lt_trichotomy amount.value other.value with hless | heq | hmore
  · rw [hlt amount other hless]
    exact compare_lt_iff_lt.mpr hless
  · have hself : compare other other = .eq := @Std.ReflOrd.compare_self Nat _ _ other.value
    rw [ext heq, hself, Std.ReflOrd.compare_self, Std.ReflOrd.compare_self]
    rfl
  · have hswap := congrArg Ordering.swap (hlt other amount hmore)
    rw [Ordering.swap_then, ← Std.OrientedOrd.eq_swap, ← Std.OrientedOrd.eq_swap] at hswap
    rw [hswap]
    exact compare_gt_iff_gt.mpr hmore

/--
**The texts of amounts.** A text is parsed as an amount if and only if it is made of digits and
of one at least, and these are the texts that a genesis may have as a balance. A text of digits
behind a minus sign is refused as negative, and any other as malformed. An amount is the number
that its text says in base ten. Its own text is that one without leading zeros and is parsed as
the same amount, and amounts are compared as their own texts are, the shorter first.
-/
theorem parse_exact (text : String) :
    ((∃ amount, parse text = .ok amount) ↔ IsNumeral text)
      ∧ (∀ path, Validation.checkBalance path (some (.string text)) = .none ↔ IsNumeral text)
      ∧ (∀ found, parse text = .error (.negative found) ↔ found = text ∧ IsNegated text)
      ∧ (∀ what found, parse text = .error (.malformed what found)
        ↔ what = .amount ∧ found = text ∧ ¬ IsNumeral text ∧ ¬ IsNegated text)
      ∧ ∀ amount, parse text = .ok amount →
        amount.value = Nat.ofDigits 10 (text.toList.reverse.map fun c => c.toNat - '0'.toNat)
        ∧ amount.text = withoutLeadingZeros text
        ∧ parse amount.text = .ok amount
        ∧ ∀ other, compare amount other
          = (compare amount.text.length other.text.length).then
            (compare amount.text other.text) := by
  refine ⟨exists_parse_iff, fun _ => checkBalance_eq_none_iff, fun _ => parse_eq_negative_iff,
    fun _ _ => parse_eq_malformed_iff, fun amount hparse => ?_⟩
  refine ⟨?_, text_of_parse hparse, parse_text amount, compare_eq amount⟩
  obtain ⟨_, rfl⟩ := parse_eq_ok_iff.mp hparse
  exact ofDigitChars_eq_ofDigits text.toList

/-- An amount with zeros before it is shown without them, and comes before one of more digits. -/
theorem parse_exact_zeros :
    parse "0099" = .ok ⟨99⟩ ∧ (Wei.mk 99).text = "99" ∧ parse "99" = .ok ⟨99⟩
      ∧ compare (Wei.mk 99) ⟨100⟩ = .lt := by
  have hparse : parse "0099" = .ok ⟨99⟩ := by rfl
  obtain ⟨_, _, _, _, hamount⟩ := parse_exact "0099"
  obtain ⟨_, htext, hagain, hcompare⟩ := hamount ⟨99⟩ hparse
  have hninety : (Wei.mk 99).text = "99" := htext.trans (by decide)
  refine ⟨hparse, hninety, hninety ▸ hagain, ?_⟩
  rw [hcompare]
  decide

end Wei

end ChainGenesis
