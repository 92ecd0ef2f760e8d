import ChainGenesis.Proofs.Amount
import Mathlib.Algebra.BigOperators.Group.List.Basic
import Mathlib.Algebra.Order.Field.Rat
import Mathlib.Data.List.TakeWhile
import Mathlib.Data.Nat.Cast.Order.Field
import Mathlib.Tactic.FieldSimp
import Mathlib.Tactic.Positivity
import Mathlib.Tactic.Ring

/-!
# Amounts in display units

An amount is shown as a decimal: digits, and perhaps a point and the digits of further places.
The number that this decimal stands for is the amount in display units, cut after as many places
as are shown. Zeros at the end are left out, which does not change the number.
-/

namespace ChainGenesis

/-! ## Numbers of digits -/

/-- The first of some digits make the number without the places of the others. -/
theorem ofDigitChars_take {digits : List Char} (h : ∀ c ∈ digits, c.isDigit = true) (k : Nat) :
    Nat.ofDigitChars 10 (digits.take k) 0
      = Nat.ofDigitChars 10 digits 0 / 10 ^ (digits.length - k) := by
  have hrest : Nat.ofDigitChars 10 (digits.drop k) 0 < 10 ^ (digits.length - k) := by
    rw [← List.length_drop]
    exact ofDigitChars_lt fun c hmem => h c (List.mem_of_mem_drop hmem)
  have hsplit : Nat.ofDigitChars 10 digits 0
      = 10 ^ (digits.length - k) * Nat.ofDigitChars 10 (digits.take k) 0
        + Nat.ofDigitChars 10 (digits.drop k) 0 := by
    rw [← List.length_drop, ← Nat.ofDigitChars_eq_ofDigitChars_zero, ← Nat.ofDigitChars_append,
      List.take_append_drop]
  rw [hsplit, Nat.mul_add_div (Nat.pow_pos (by omega)), Nat.div_eq_of_lt hrest, Nat.add_zero]

/-! ## Decimals -/

namespace Decimal

/-- The number that a decimal stands for: its digits up to the point, and those behind the point
as so many further places. -/
def value (text : String) : ℚ :=
  let whole := text.toList.takeWhile (· ≠ '.')
  let fraction := (text.toList.dropWhile (· ≠ '.')).drop 1
  Nat.ofDigitChars 10 whole 0 + Nat.ofDigitChars 10 fraction 0 / 10 ^ fraction.length

theorem ne_point {digits : List Char} (h : ∀ c ∈ digits, c.isDigit = true) :
    ∀ c ∈ digits, decide (c ≠ '.') = true := by
  intro c hmem
  rw [decide_eq_true_eq]
  rintro rfl
  exact absurd (h '.' hmem) (by decide)

/-- Digits alone are a whole number. -/
theorem value_whole {whole : List Char} (h : ∀ c ∈ whole, c.isDigit = true) :
    value (String.ofList whole) = Nat.ofDigitChars 10 whole 0 := by
  have hwhole := ne_point h
  rw [value, String.toList_ofList, List.takeWhile_eq_self_iff.mpr hwhole,
    List.dropWhile_eq_nil_iff.mpr hwhole]
  simp [Nat.ofDigitChars_eq_foldl]

theorem value_point {whole : List Char} (h : ∀ c ∈ whole, c.isDigit = true)
    (fraction : List Char) :
    value (String.ofList (whole ++ '.' :: fraction))
      = Nat.ofDigitChars 10 whole 0 + Nat.ofDigitChars 10 fraction 0 / 10 ^ fraction.length := by
  have hwhole := ne_point h
  rw [value, String.toList_ofList, List.takeWhile_append_of_pos hwhole,
    List.dropWhile_append_of_pos hwhole]
  simp

/-- A decimal of at most so many places: a whole number, and if anything follows a point and
digits, the last of them not zero. -/
inductive Shown (whole places : Nat) : String → Prop where
  | whole {digits : List Char} : DecimalOf whole digits →
      Shown whole places (String.ofList digits)
  | point {digits fraction : List Char} : DecimalOf whole digits →
      (∀ c ∈ fraction, c.isDigit = true) → 1 ≤ fraction.length → fraction.length ≤ places →
      fraction.getLast? ≠ some '0' →
      Shown whole places (String.ofList (digits ++ '.' :: fraction))

end Decimal

/-! ## Shown amounts -/

namespace Wei

/-- How many places a shown amount has at most: as many as are asked for, between none and all. -/
def places (maxDecimals : Int) : Nat := (max 0 (min maxDecimals decimals)).toNat

theorem places_le (maxDecimals : Int) : places maxDecimals ≤ decimals := by
  rw [places]
  omega

/-- What one stands for in the last place that is shown. -/
def lastPlace (maxDecimals : Int) : Nat := 10 ^ (decimals - places maxDecimals)

theorem lastPlace_pos (maxDecimals : Int) : 0 < lastPlace maxDecimals := Nat.pow_pos (by omega)

theorem isDigit_of_mem_paddedDigits {width n : Nat} {c : Char} (h : c ∈ paddedDigits width n) :
    c.isDigit = true := by
  rcases List.mem_append.mp h with h | h
  · rw [(List.mem_replicate.mp h).2]
    rfl
  · exact isDigit_of_mem_toDigits h

theorem ofDigitChars_paddedDigits (width n : Nat) :
    Nat.ofDigitChars 10 (paddedDigits width n) 0 = n := by
  rw [paddedDigits, Nat.ofDigitChars_append, Nat.ofDigitChars_replicate_zero, Nat.mul_zero,
    Nat.ofDigitChars_ten_toDigits]

theorem length_paddedDigits {width n : Nat} (hwidth : 0 < width) (h : n < 10 ^ width) :
    (paddedDigits width n).length = width := by
  have hlength := (Nat.length_toDigits_le_iff (by omega) hwidth).mpr h
  rw [paddedDigits, List.length_append, List.length_replicate]
  omega

/-- What is left out at the end are zeros. -/
theorem exists_dropTrailingZeros (digits : List Char) :
    ∃ n, digits = dropTrailingZeros digits ++ List.replicate n '0' := by
  refine ⟨(digits.reverse.takeWhile (· = '0')).length, ?_⟩
  rw [← List.reverse_replicate, ← takeWhile_zeros, dropTrailingZeros, ← List.reverse_append,
    List.takeWhile_append_dropWhile, List.reverse_reverse]

/-- Leaving out zeros at the end changes no fraction. -/
theorem fraction_dropTrailingZeros (digits : List Char) :
    (Nat.ofDigitChars 10 (dropTrailingZeros digits) 0 : ℚ)
        / 10 ^ (dropTrailingZeros digits).length
      = Nat.ofDigitChars 10 digits 0 / 10 ^ digits.length := by
  obtain ⟨n, hn⟩ := exists_dropTrailingZeros digits
  conv_rhs => rw [hn]
  rw [Nat.ofDigitChars_append, Nat.ofDigitChars_replicate_zero, List.length_append,
    List.length_replicate, Nat.cast_mul, Nat.cast_pow, pow_add]
  field_simp
  norm_num

/-- Digits, and behind a point the digits of a fraction if it has any. -/
theorem value_decimal {whole : List Char} (h : ∀ c ∈ whole, c.isDigit = true)
    (fraction : List Char) :
    Decimal.value (match fraction with
      | [] => String.ofList whole
      | fraction => String.ofList (whole ++ '.' :: fraction))
      = Nat.ofDigitChars 10 whole 0 + Nat.ofDigitChars 10 fraction 0 / 10 ^ fraction.length := by
  cases fraction with
  | nil =>
      rw [Decimal.value_whole h]
      simp [Nat.ofDigitChars_eq_foldl]
  | cons c rest => exact Decimal.value_point h (c :: rest)

/-- Whole units and the first places of the rest are the amount without its last places. -/
theorem div_place (amount : Nat) {k all : Nat} (h : k ≤ all) :
    amount / 10 ^ (all - k) = amount / 10 ^ all * 10 ^ k + amount % 10 ^ all / 10 ^ (all - k) := by
  have hsplit : amount
      = 10 ^ (all - k) * (amount / 10 ^ all * 10 ^ k) + amount % 10 ^ all := by
    calc amount = 10 ^ all * (amount / 10 ^ all) + amount % 10 ^ all :=
          (Nat.div_add_mod _ _).symm
      _ = 10 ^ (all - k + k) * (amount / 10 ^ all) + amount % 10 ^ all := by
          rw [Nat.sub_add_cancel h]
      _ = 10 ^ (all - k) * (amount / 10 ^ all * 10 ^ k) + amount % 10 ^ all := by
          rw [pow_add]
          ring
  conv_lhs => rw [hsplit]
  exact Nat.mul_add_div (Nat.pow_pos (by omega)) _ _

/-- As many places are kept as a shown amount has at most. -/
theorem take_places {digits : List Char} (h : digits.length = decimals) (maxDecimals : Int) :
    digits.take maxDecimals.toNat = digits.take (places maxDecimals) := by
  rw [List.take_eq_take_iff, h, places]
  omega

/-- **A shown amount stands for the amount in display units,** cut after so many places. -/
theorem value_inUnits (amount : Wei) (maxDecimals : Int) :
    Decimal.value (amount.inUnits maxDecimals)
      = (amount.value / lastPlace maxDecimals : ℕ) / 10 ^ places maxDecimals := by
  have hplaces := places_le maxDecimals
  have hlt : amount.value % 10 ^ decimals < 10 ^ decimals := Nat.mod_lt _ (by decide)
  -- the digits behind the point, of which so many are kept
  set rest := paddedDigits decimals (amount.value % 10 ^ decimals)
  have hlength : rest.length = decimals := length_paddedDigits (by decide) hlt
  have htake := take_places hlength maxDecimals
  have hkept : Nat.ofDigitChars 10 (rest.take (places maxDecimals)) 0
      = amount.value % 10 ^ decimals / lastPlace maxDecimals := by
    rw [ofDigitChars_take (fun c => isDigit_of_mem_paddedDigits), hlength,
      ofDigitChars_paddedDigits, lastPlace]
  calc Decimal.value (amount.inUnits maxDecimals)
      = Nat.ofDigitChars 10 (Nat.toDigits 10 (amount.value / 10 ^ decimals)) 0
          + Nat.ofDigitChars 10 (dropTrailingZeros (rest.take maxDecimals.toNat)) 0
            / 10 ^ (dropTrailingZeros (rest.take maxDecimals.toNat)).length :=
        value_decimal (fun c => isDigit_of_mem_toDigits) _
    _ = (amount.value / 10 ^ decimals : ℕ)
          + (amount.value % 10 ^ decimals / lastPlace maxDecimals : ℕ)
            / 10 ^ places maxDecimals := by
        rw [fraction_dropTrailingZeros, htake, hkept, Nat.ofDigitChars_ten_toDigits,
          List.length_take, hlength, Nat.min_eq_left hplaces]
    _ = (amount.value / lastPlace maxDecimals : ℕ) / 10 ^ places maxDecimals := by
        rw [lastPlace, div_place amount.value hplaces, Nat.cast_add, Nat.cast_mul, Nat.cast_pow,
          add_div, mul_div_assoc]
        norm_num

/-! ## What is shown -/

/-- What is left without the zeros at the end does not end in one. -/
theorem getLast?_dropTrailingZeros (digits : List Char) :
    (dropTrailingZeros digits).getLast? ≠ some '0' := by
  have hhead := List.head?_dropWhile_not (fun c => decide (c = '0')) digits.reverse
  rw [dropTrailingZeros, List.getLast?_reverse]
  intro hzero
  rw [hzero] at hhead
  exact absurd hhead (by simp)

/-- **The form of a shown amount:** the whole units, and places only as far as there are any. -/
theorem shown_inUnits (amount : Wei) (maxDecimals : Int) :
    Decimal.Shown (amount.value / 10 ^ decimals) (places maxDecimals)
      (amount.inUnits maxDecimals) := by
  have hlt : amount.value % 10 ^ decimals < 10 ^ decimals := Nat.mod_lt _ (by decide)
  have hwhole := decimalOf_toDigits (amount.value / 10 ^ decimals)
  unfold inUnits
  dsimp only
  set rest := paddedDigits decimals (amount.value % Nat.pow 10 decimals)
  have hlength : rest.length = decimals := length_paddedDigits (by decide) hlt
  set kept := rest.take maxDecimals.toNat with hkept
  have hplaces : kept.length ≤ places maxDecimals := by
    rw [hkept, take_places hlength]
    exact List.length_take_le _ _
  obtain ⟨zeros, hzeros⟩ := exists_dropTrailingZeros kept
  have hlast := getLast?_dropTrailingZeros kept
  cases hfraction : dropTrailingZeros kept with
  | nil => exact .whole hwhole
  | cons first others =>
      rw [hfraction] at hzeros hlast
      refine .point hwhole (fun c hmem => ?_) (Nat.succ_pos _) ?_ hlast
      · have hmem' : c ∈ kept := hzeros ▸ List.mem_append_left _ hmem
        exact isDigit_of_mem_paddedDigits (List.mem_of_mem_take hmem')
      · have hsum := congrArg List.length hzeros
        rw [List.length_append] at hsum
        omega

/-! ## The number that is shown, beside the amount -/

theorem lastPlace_mul (maxDecimals : Int) :
    lastPlace maxDecimals * 10 ^ places maxDecimals = 10 ^ decimals := by
  rw [lastPlace, ← pow_add, Nat.sub_add_cancel (places_le maxDecimals)]

/-- An amount in display units, in places of those that are shown. -/
theorem inPlaces (amount : Wei) (maxDecimals : Int) :
    (amount.value : ℚ) / 10 ^ decimals
      = amount.value / lastPlace maxDecimals / 10 ^ places maxDecimals := by
  rw [div_div]
  congr 1
  exact_mod_cast (lastPlace_mul maxDecimals).symm

theorem value_inUnits_le (amount : Wei) (maxDecimals : Int) :
    Decimal.value (amount.inUnits maxDecimals) ≤ amount.value / 10 ^ decimals := by
  rw [value_inUnits, inPlaces amount maxDecimals]
  exact div_le_div_of_nonneg_right Nat.cast_div_le (by positivity)

/-- Less than one last place is cut off. -/
theorem lt_value_inUnits_add (amount : Wei) (maxDecimals : Int) :
    (amount.value : ℚ) / 10 ^ decimals
      < Decimal.value (amount.inUnits maxDecimals) + 1 / 10 ^ places maxDecimals := by
  have hpos : (0 : ℚ) < lastPlace maxDecimals := Nat.cast_pos.mpr (lastPlace_pos maxDecimals)
  have hcut : amount.value < (amount.value / lastPlace maxDecimals + 1) * lastPlace maxDecimals :=
    Nat.lt_mul_of_div_lt (Nat.lt_succ_self _) (lastPlace_pos maxDecimals)
  have hcut' : (amount.value : ℚ) / lastPlace maxDecimals
      < (amount.value / lastPlace maxDecimals : ℕ) + 1 := by
    rw [div_lt_iff₀ hpos]
    exact_mod_cast hcut
  rw [value_inUnits, inPlaces amount maxDecimals, ← add_div]
  exact div_lt_div_of_pos_right hcut' (by positivity)

/-- A greater amount is never shown as a smaller one. -/
theorem value_inUnits_mono (maxDecimals : Int) {amount other : Wei}
    (h : amount.value ≤ other.value) :
    Decimal.value (amount.inUnits maxDecimals) ≤ Decimal.value (other.inUnits maxDecimals) := by
  rw [value_inUnits, value_inUnits]
  exact div_le_div_of_nonneg_right (Nat.cast_le.mpr (Nat.div_le_div_right h)) (by positivity)

/-- With more places no less is shown. -/
theorem value_inUnits_mono_places (amount : Wei) {few many : Int} (h : few ≤ many) :
    Decimal.value (amount.inUnits few) ≤ Decimal.value (amount.inUnits many) := by
  obtain ⟨more, hmore⟩ : ∃ more, places many = places few + more :=
    Nat.exists_eq_add_of_le (by rw [places, places]; omega)
  have hlast : lastPlace few = lastPlace many * 10 ^ more := by
    have hmany := places_le many
    rw [lastPlace, lastPlace, ← pow_add]
    congr 1
    omega
  have hcut : amount.value / lastPlace few * 10 ^ more ≤ amount.value / lastPlace many := by
    rw [hlast, ← Nat.div_div_eq_div_mul]
    exact Nat.div_mul_le_self _ _
  rw [value_inUnits, value_inUnits, div_le_div_iff₀ (by positivity) (by positivity), hmore,
    pow_add, mul_comm (10 ^ places few), ← mul_assoc]
  exact mul_le_mul_of_nonneg_right (by exact_mod_cast hcut) (by positivity)

/-- Where every place is shown nothing is cut off. -/
theorem value_inUnits_of_all {maxDecimals : Int} (h : decimals ≤ maxDecimals) (amount : Wei) :
    Decimal.value (amount.inUnits maxDecimals) = amount.value / 10 ^ decimals := by
  have hplaces : places maxDecimals = decimals := by
    rw [places]
    omega
  rw [value_inUnits, lastPlace, hplaces, Nat.sub_self, Nat.pow_zero, Nat.div_one]

/-- Amounts of which every place is shown are told apart. -/
theorem eq_of_inUnits_eq {maxDecimals : Int} (h : decimals ≤ maxDecimals) {amount other : Wei}
    (heq : amount.inUnits maxDecimals = other.inUnits maxDecimals) : amount = other := by
  have hvalue := congrArg Decimal.value heq
  rw [value_inUnits_of_all h, value_inUnits_of_all h,
    div_left_inj' (by positivity), Nat.cast_inj] at hvalue
  exact ext hvalue

/--
**A shown amount is the amount cut off.** It is written as its whole units, and then with a point
and places as far as there are any, of which there are no more than asked for and the last is not
zero. The number it stands for is the amount in units of the last place, cut to a whole number of
them. So it is never more than the amount and less than one last place below it, it does not
fall when the amount or the number of places grows, and with all places no two amounts are shown
alike.
-/
theorem inUnits_exact (amount : Wei) (maxDecimals : Int) :
    Decimal.Shown (amount.value / 10 ^ decimals) (places maxDecimals)
        (amount.inUnits maxDecimals)
      ∧ Decimal.value (amount.inUnits maxDecimals)
        = (amount.value / 10 ^ (decimals - places maxDecimals) : ℕ) / 10 ^ places maxDecimals
      ∧ Decimal.value (amount.inUnits maxDecimals) ≤ amount.value / 10 ^ decimals
      ∧ (amount.value : ℚ) / 10 ^ decimals
        < Decimal.value (amount.inUnits maxDecimals) + 1 / 10 ^ places maxDecimals
      ∧ (∀ other : Wei, amount.value ≤ other.value →
        Decimal.value (amount.inUnits maxDecimals) ≤ Decimal.value (other.inUnits maxDecimals))
      ∧ (∀ more : Int, maxDecimals ≤ more →
        Decimal.value (amount.inUnits maxDecimals) ≤ Decimal.value (amount.inUnits more))
      ∧ (decimals ≤ maxDecimals → ∀ other : Wei,
        amount.inUnits maxDecimals = other.inUnits maxDecimals → amount = other) :=
  ⟨shown_inUnits amount maxDecimals, value_inUnits amount maxDecimals,
    value_inUnits_le amount maxDecimals, lt_value_inUnits_add amount maxDecimals,
    fun _ => value_inUnits_mono maxDecimals, fun _ => value_inUnits_mono_places amount,
    fun hall _ => eq_of_inUnits_eq hall⟩

/-- Just under two units are shown as less with two places than with four, and no other amount
is shown with all places as they are. -/
theorem inUnits_exact_cut :
    Decimal.value ((Wei.mk 1999999999999999999).inUnits 2) = 199 / 100
      ∧ Decimal.value ((Wei.mk 1999999999999999999).inUnits 2)
        ≤ Decimal.value ((Wei.mk 1999999999999999999).inUnits 4)
      ∧ Decimal.value ((Wei.mk 1999999999999999999).inUnits 2)
        ≤ Decimal.value ((Wei.mk 2000000000000000000).inUnits 2)
      ∧ ∀ other : Wei, (Wei.mk 1999999999999999999).inUnits 40 = other.inUnits 40 →
        Wei.mk 1999999999999999999 = other := by
  obtain ⟨_, hvalue, _, _, hamounts, hplaces, _⟩ := inUnits_exact ⟨1999999999999999999⟩ 2
  obtain ⟨_, _, _, _, _, _, hall⟩ := inUnits_exact ⟨1999999999999999999⟩ 40
  have hcut : 1999999999999999999 / 10 ^ (decimals - places 2) = 199 := by decide
  have htwo : places 2 = 2 := by decide
  refine ⟨?_, hplaces 4 (by decide), hamounts ⟨2000000000000000000⟩ (by decide),
    hall (by decide)⟩
  rw [hvalue, hcut, htwo]
  norm_num

/-! ## Sums of shown amounts -/

/-- Parts that are cut fall short of the sum that is cut by what their rests come to. -/
theorem sum_div {unit : Nat} (h : 0 < unit) (parts : List Nat) :
    parts.sum / unit
      = (parts.map (· / unit)).sum + (parts.map (· % unit)).sum / unit := by
  have hsplit : parts.sum = unit * (parts.map (· / unit)).sum + (parts.map (· % unit)).sum := by
    induction parts with
    | nil => rfl
    | cons part rest ih =>
        have hpart := Nat.div_add_mod part unit
        rw [List.sum_cons, List.map_cons, List.map_cons, List.sum_cons, List.sum_cons, ih,
          Nat.mul_add]
        omega
  rw [hsplit, Nat.mul_add_div h]

theorem sum_mod_lt {unit : Nat} (h : 0 < unit) {parts : List Nat} (hne : parts ≠ []) :
    (parts.map (· % unit)).sum < unit * parts.length := by
  induction parts with
  | nil => exact absurd rfl hne
  | cons part rest ih =>
      have hpart := Nat.mod_lt part h
      rw [List.map_cons, List.sum_cons, List.length_cons, Nat.mul_succ, Nat.add_comm]
      cases rest with
      | nil => exact Nat.add_lt_add_of_le_of_lt (Nat.le_refl _) hpart
      | cons other rest => exact Nat.add_lt_add (ih (List.cons_ne_nil _ _)) hpart

/-- What a shown total says more than the shown amounts together. -/
def shortfall (maxDecimals : Int) (amounts : List Wei) : ℚ :=
  Decimal.value ((sum amounts).inUnits maxDecimals)
    - (amounts.map fun amount => Decimal.value (amount.inUnits maxDecimals)).sum

/-- Shown amounts are together what the cut amounts are. -/
theorem sum_value_inUnits (maxDecimals : Int) (amounts : List Wei) :
    (amounts.map fun amount => Decimal.value (amount.inUnits maxDecimals)).sum
      = (((amounts.map Wei.value).map (· / lastPlace maxDecimals)).sum : ℕ)
        / 10 ^ places maxDecimals := by
  induction amounts with
  | nil => simp
  | cons amount rest ih =>
      rw [List.map_cons, List.sum_cons, ih, value_inUnits, List.map_cons, List.map_cons,
        List.sum_cons, Nat.cast_add, add_div]

/-- **A shown total exceeds the shown amounts by what was cut from them,** in whole last places. -/
theorem shortfall_eq (maxDecimals : Int) (amounts : List Wei) :
    shortfall maxDecimals amounts
      = (((amounts.map Wei.value).map (· % lastPlace maxDecimals)).sum
        / lastPlace maxDecimals : ℕ) / 10 ^ places maxDecimals := by
  rw [shortfall, sum_value_inUnits, value_inUnits, value_sum, sum_div (lastPlace_pos maxDecimals),
    Nat.cast_add, add_div, add_sub_cancel_left]

/-- **Shown amounts together never exceed the shown total,** and they fall short of it by less than
one last place for each of them. -/
theorem shortfall_bounds (maxDecimals : Int) {amounts : List Wei} (hne : amounts ≠ []) :
    0 ≤ shortfall maxDecimals amounts
      ∧ shortfall maxDecimals amounts < amounts.length / 10 ^ places maxDecimals := by
  have hcut : ((amounts.map Wei.value).map (· % lastPlace maxDecimals)).sum
      / lastPlace maxDecimals < amounts.length := by
    have hlt := sum_mod_lt (lastPlace_pos maxDecimals)
      (List.map_eq_nil_iff.not.mpr hne : amounts.map Wei.value ≠ [])
    rw [List.length_map] at hlt
    exact Nat.div_lt_of_lt_mul hlt
  rw [shortfall_eq]
  exact ⟨by positivity, div_lt_div_of_pos_right (Nat.cast_lt.mpr hcut) (by positivity)⟩

/-- Where every place is shown nothing is cut. -/
theorem shortfall_eq_zero {maxDecimals : Int} (h : places maxDecimals = decimals)
    (amounts : List Wei) : shortfall maxDecimals amounts = 0 := by
  have hrest : ((amounts.map Wei.value).map (· % 1)).sum = 0 := by
    refine List.sum_eq_zero fun rest hmem => ?_
    obtain ⟨value, _, rfl⟩ := List.mem_map.mp hmem
    exact Nat.mod_one value
  rw [shortfall_eq, lastPlace, h, Nat.sub_self, Nat.pow_zero, hrest]
  simp

end Wei

end ChainGenesis
