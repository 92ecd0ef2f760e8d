import Mathlib.Data.List.Induction
import Mathlib.Data.List.TakeWhile
import Mathlib.Data.Nat.Digits.Defs
import Mathlib.Data.String.Basic
import Mathlib.Tactic.Ring

/-!
# Decimal digits

A natural number has one decimal without leading zeros, which is what amounts and integers
are written as. Of two numbers the greater has the longer decimal, and among decimals of one
length the one that is later in the order of words.
-/

namespace ChainGenesis

/-- The decimal of a number begins with zero for zero alone. -/
theorem head?_toDigits {n : Nat} (h : n ≠ 0) : (Nat.toDigits 10 n).head? ≠ some '0' := by
  induction n using Nat.strongRecOn with
  | ind n ih =>
    by_cases hlt : n < 10
    · rw [Nat.toDigits_of_lt_base hlt]
      have key : ∀ m < 10, m ≠ 0 → [Nat.digitChar m].head? ≠ some '0' := by decide
      exact key n hlt h
    · have hrest := ih (n / 10) (by omega) (by omega)
      -- the first digit is that of the number without its last digit
      obtain ⟨c, digits, hd⟩ :=
        List.exists_cons_of_ne_nil (Nat.toDigits_ne_nil (n := n / 10) (b := 10))
      rw [Nat.toDigits_of_base_le (by omega) (by omega)]
      rw [hd] at hrest ⊢
      exact hrest

theorem isDigit_of_mem_toDigits {n : Nat} {c : Char} (h : c ∈ Nat.toDigits 10 n) :
    c.isDigit = true := Nat.isDigit_of_mem_toDigits (by omega) (by omega) h

/-! ## Digits in order -/

/-- The first digit decides, whatever comes behind it. -/
theorem first_decides {unit a b x y : Nat} (h : a < b) (hx : x < unit) :
    x + unit * a < y + unit * b := by
  calc x + unit * a < unit + unit * a := Nat.add_lt_add_right hx _
    _ = unit * (a + 1) := by ring
    _ ≤ unit * b := Nat.mul_le_mul_left _ h
    _ ≤ y + unit * b := Nat.le_add_left _ _

/-- Of as many digits those that are later in the order of words make the greater number. -/
theorem ofDigits_lt_iff {base : Nat} (hbase : 1 < base) {digits others : List Nat}
    (hlength : digits.length = others.length) (h : ∀ d ∈ digits, d < base)
    (h' : ∀ d ∈ others, d < base) :
    Nat.ofDigits base digits.reverse < Nat.ofDigits base others.reverse ↔ digits < others := by
  induction digits generalizing others with
  | nil =>
      rw [List.length_nil, eq_comm, List.length_eq_zero_iff] at hlength
      subst hlength
      simp
  | cons a rest ih =>
      obtain ⟨b, rest', rfl⟩ : ∃ b rest', others = b :: rest' :=
        List.exists_cons_of_length_pos (hlength ▸ Nat.succ_pos _)
      rw [List.length_cons, List.length_cons, Nat.add_right_cancel_iff] at hlength
      rw [List.forall_mem_cons] at h h'
      have hbound : ∀ {ds : List Nat}, (∀ d ∈ ds, d < base) →
          Nat.ofDigits base ds.reverse < base ^ ds.length := by
        intro ds hds
        rw [← List.length_reverse]
        exact Nat.ofDigits_lt_base_pow_length hbase fun d hd => hds d (List.mem_reverse.mp hd)
      have hrest := hbound h.2
      have hrest' := hbound h'.2
      rw [← hlength] at hrest'
      rw [Nat.ofDigits_reverse_cons, Nat.ofDigits_reverse_cons, ← hlength, List.cons_lt_cons_iff,
        ← ih hlength h.2 h'.2]
      rcases lt_trichotomy a b with hlt | rfl | hgt
      · exact iff_of_true (first_decides hlt hrest) (.inl hlt)
      · simp
      · refine iff_of_false (Nat.lt_asymm (first_decides hgt hrest')) ?_
        rintro (hlt | ⟨rfl, _⟩)
        · exact Nat.lt_asymm hlt hgt
        · exact Nat.lt_irrefl _ hgt

/-- Words stay in order if their letters are replaced by others that are in the same order. -/
theorem map_lt_map_iff {α β : Type} [LinearOrder α] [LinearOrder β] {f : α → β} {letters : Set α}
    (hf : StrictMonoOn f letters) {xs ys : List α} (hx : ∀ x ∈ xs, x ∈ letters)
    (hy : ∀ y ∈ ys, y ∈ letters) : xs.map f < ys.map f ↔ xs < ys := by
  induction xs generalizing ys with
  | nil => cases ys <;> simp
  | cons x xs ih =>
      cases ys with
      | nil => simp
      | cons y ys =>
          rw [List.forall_mem_cons] at hx hy
          rw [List.map_cons, List.map_cons, List.cons_lt_cons_iff, List.cons_lt_cons_iff,
            ih hx.2 hy.2, hf.lt_iff_lt hx.1 hy.1, hf.injOn.eq_iff hx.1 hy.1]

/-! ## Numbers of decimal digits -/

/-- A digit stands for nine at most. -/
theorem digit_le {c : Char} (h : c.isDigit = true) : c.toNat - '0'.toNat ≤ 9 :=
  Nat.sub_le_sub_right (Char.isDigit_iff_toNat.mp h).2 '0'.toNat

theorem forall_digit_lt {digits : List Char} (h : ∀ c ∈ digits, c.isDigit = true) :
    ∀ d ∈ digits.map fun c => c.toNat - '0'.toNat, d < 10 := by
  intro d hd
  obtain ⟨c, hc, rfl⟩ := List.mem_map.mp hd
  exact Nat.lt_succ_of_le (digit_le (h c hc))

/-- What a digit stands for is written with that digit. -/
theorem digitChar_digit {c : Char} (h : c.isDigit = true) :
    Nat.digitChar (c.toNat - '0'.toNat) = c := by
  have hle := digit_le h
  have hge := (Char.isDigit_iff_toNat.mp h).1
  have hzero : '0'.toNat = 48 := rfl
  apply Char.toNat_inj.mp
  rw [Nat.toNat_digitChar_of_lt_ten (by omega)]
  omega

/-- Digits are read from the last, which counts units, to the first. -/
theorem ofDigitChars_eq_ofDigits (digits : List Char) :
    Nat.ofDigitChars 10 digits 0
      = Nat.ofDigits 10 (digits.reverse.map fun c => c.toNat - '0'.toNat) := by
  induction digits with
  | nil => rfl
  | cons c rest ih =>
      rw [Nat.ofDigitChars_cons, Nat.ofDigitChars_eq_ofDigitChars_zero, ih, List.reverse_cons,
        List.map_append, Nat.ofDigits_append, List.length_map, List.length_reverse,
        List.map_singleton, Nat.ofDigits_singleton, Nat.mul_zero, Nat.zero_add, Nat.add_comm]

/-- So many digits make a number below that power of ten. -/
theorem ofDigitChars_lt {digits : List Char} (h : ∀ c ∈ digits, c.isDigit = true) :
    Nat.ofDigitChars 10 digits 0 < 10 ^ digits.length := by
  have hdigits : ∀ d ∈ (digits.map fun c => c.toNat - '0'.toNat).reverse, d < 10 :=
    fun d hd => forall_digit_lt h d (List.mem_reverse.mp hd)
  have hlt := Nat.ofDigits_lt_base_pow_length (by omega) hdigits
  rwa [List.length_reverse, List.length_map, ← List.map_reverse, ← ofDigitChars_eq_ofDigits]
    at hlt

/-- What is taken off a list of digits while it begins with zero are zeros. -/
theorem takeWhile_zeros (digits : List Char) :
    digits.takeWhile (· = '0') = List.replicate (digits.takeWhile (· = '0')).length '0' := by
  rw [List.eq_replicate_iff]
  refine ⟨rfl, fun c hmem => ?_⟩
  have hzero := List.mem_takeWhile_imp hmem
  exact of_decide_eq_true hzero

/-- Decimals of one length are in the order of their digits. -/
theorem ofDigitChars_lt_iff {digits others : List Char} (hlength : digits.length = others.length)
    (h : ∀ c ∈ digits, c.isDigit = true) (h' : ∀ c ∈ others, c.isDigit = true) :
    Nat.ofDigitChars 10 digits 0 < Nat.ofDigitChars 10 others 0 ↔ digits < others := by
  have hmono : StrictMonoOn (fun c : Char => c.toNat - '0'.toNat) {c | c.isDigit = true} := by
    intro c hc d hd hlt
    have hzero := (Char.isDigit_iff_toNat.mp hc).1
    exact Nat.sub_lt_sub_right hzero hlt
  rw [ofDigitChars_eq_ofDigits, ofDigitChars_eq_ofDigits, List.map_reverse, List.map_reverse]
  have hlength' : (digits.map fun c => c.toNat - '0'.toNat).length
      = (others.map fun c => c.toNat - '0'.toNat).length := by
    rw [List.length_map, List.length_map, hlength]
  exact (ofDigits_lt_iff (by omega) hlength' (forall_digit_lt h) (forall_digit_lt h')).trans
    (map_lt_map_iff hmono h h')

/-! ## The decimal of a number -/

/-- Digits that write a number in decimal: at least one, and zero first only where it is alone. -/
structure DecimalOf (n : Nat) (digits : List Char) : Prop where
  isDigit : ∀ c ∈ digits, c.isDigit = true
  value : Nat.ofDigitChars 10 digits 0 = n
  ne_nil : digits ≠ []
  leading : digits.head? = some '0' → digits = ['0']

theorem decimalOf_toDigits (n : Nat) : DecimalOf n (Nat.toDigits 10 n) where
  isDigit _ := isDigit_of_mem_toDigits
  value := Nat.ofDigitChars_ten_toDigits
  ne_nil := Nat.toDigits_ne_nil
  leading hzero := by
    have hn : n = 0 := Decidable.byContradiction fun hne => head?_toDigits hne hzero
    rw [hn]
    rfl

/-- The digits before the last, if there are any, write a number as well, and it is not zero. -/
theorem DecimalOf.front {n : Nat} {front : List Char} {last : Char}
    (h : DecimalOf n (front ++ [last])) (hne : front ≠ []) :
    DecimalOf (Nat.ofDigitChars 10 front 0) front ∧ front.head? ≠ some '0' := by
  have hhead : front.head? ≠ some '0' := by
    intro hzero
    have halone := h.leading (by rw [List.head?_append_of_ne_nil _ hne, hzero])
    have hlength := congrArg List.length halone
    rw [List.length_append, List.length_singleton, List.length_singleton] at hlength
    exact hne (List.length_eq_zero_iff.mp (by omega))
  refine ⟨⟨fun c hmem => h.isDigit c (List.mem_append_left _ hmem), rfl, hne, ?_⟩, hhead⟩
  intro hzero
  exact absurd hzero hhead

/-- **A number has one decimal.** -/
theorem DecimalOf.eq_toDigits {n : Nat} {digits : List Char} (h : DecimalOf n digits) :
    digits = Nat.toDigits 10 n := by
  induction digits using List.reverseRecOn generalizing n with
  | nil => exact absurd rfl h.ne_nil
  | append_singleton front last ih =>
      have hlast := h.isDigit last (List.mem_append_right _ List.mem_cons_self)
      have hle := digit_le hlast
      rw [← h.value, Nat.ofDigitChars_append, Nat.ofDigitChars_cons, Nat.ofDigitChars_nil]
      by_cases hne : front = []
      · subst hne
        rw [Nat.ofDigitChars_nil, Nat.mul_zero, Nat.zero_add,
          Nat.toDigits_of_lt_base (by omega), digitChar_digit hlast]
        rfl
      · obtain ⟨hfront, hhead⟩ := h.front hne
        have heq := ih hfront
        have hpos : 0 < Nat.ofDigitChars 10 front 0 := by
          refine Nat.pos_of_ne_zero fun hzero => hhead ?_
          rw [heq, hzero]
          rfl
        rw [← Nat.toDigits_append_toDigits (by omega) hpos (by omega), ← heq,
          Nat.toDigits_of_lt_base (by omega), digitChar_digit hlast]

/-- Numbers that are written alike are one number. -/
theorem toDigits_inj {n m : Nat} (h : Nat.toDigits 10 n = Nat.toDigits 10 m) : n = m := by
  have hvalue := congrArg (Nat.ofDigitChars 10 · 0) h
  rwa [Nat.ofDigitChars_ten_toDigits, Nat.ofDigitChars_ten_toDigits] at hvalue

/-- **Numbers are ordered as their decimals are, by length first.** -/
theorem toDigits_lt_iff {a b : Nat} :
    a < b ↔ (Nat.toDigits 10 a).length < (Nat.toDigits 10 b).length
      ∨ (Nat.toDigits 10 a).length = (Nat.toDigits 10 b).length
        ∧ Nat.toDigits 10 a < Nat.toDigits 10 b := by
  have hshorter : ∀ {a b : Nat}, (Nat.toDigits 10 a).length < (Nat.toDigits 10 b).length →
      a < b := by
    intro a b hlength
    have ha := (Nat.length_toDigits_le_iff (by omega) Nat.length_toDigits_pos).mp
      (Nat.le_refl (Nat.toDigits 10 a).length)
    have hb := (Nat.length_toDigits_le_iff (by omega) Nat.length_toDigits_pos).not.mp
      (Nat.not_le.mpr hlength)
    omega
  have hsame (hlength : (Nat.toDigits 10 a).length = (Nat.toDigits 10 b).length) :
      a < b ↔ Nat.toDigits 10 a < Nat.toDigits 10 b := by
    rw [← ofDigitChars_lt_iff hlength (fun _ => isDigit_of_mem_toDigits)
      (fun _ => isDigit_of_mem_toDigits), Nat.ofDigitChars_ten_toDigits,
      Nat.ofDigitChars_ten_toDigits]
  constructor
  · intro hlt
    rcases Nat.lt_trichotomy (Nat.toDigits 10 a).length (Nat.toDigits 10 b).length
      with hless | heq | hmore
    · exact .inl hless
    · exact .inr ⟨heq, (hsame heq).mp hlt⟩
    · exact absurd (hshorter hmore) (Nat.lt_asymm hlt)
  · rintro (hless | ⟨heq, hlt⟩)
    · exact hshorter hless
    · exact (hsame heq).mpr hlt

end ChainGenesis
