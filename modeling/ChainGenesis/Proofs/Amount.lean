import ChainGenesis.Amount
import ChainGenesis.Proofs.Decimal
import Mathlib.Algebra.GroupWithZero.Nat

/-!
# Amounts and their texts

An amount is parsed from its digits and from nothing else, and its text is parsed back. Sums
are taken in the order of a list, but the order does not matter to them.
-/

namespace ChainGenesis.Wei

theorem ext {a b : Wei} (h : a.value = b.value) : a = b := by
  cases a
  exact congrArg mk h

/-! ## Parsing -/

theorem isDigitString_iff {text : String} :
    isDigitString text = true ↔ text.toList ≠ [] ∧ ∀ c ∈ text.toList, c.isDigit = true := by
  rw [isDigitString, Bool.and_eq_true, List.all_eq_true, Bool.not_eq_true',
    List.isEmpty_eq_false_iff]

/-- A text with a minus sign is no string of digits. -/
theorem isNegative_eq_false {text : String} (h : isDigitString text = true) :
    isNegative text = false := by
  unfold isNegative
  split
  · rename_i digits heq
    have hminus := (isDigitString_iff.mp h).2 '-' (heq ▸ List.mem_cons_self)
    exact absurd hminus (by decide)
  · rfl

/-- **An amount is the value of a string of digits.** -/
theorem parse_eq_ok_iff {text : String} {amount : Wei} :
    parse text = .ok amount
      ↔ isDigitString text = true ∧ amount = ⟨Nat.ofDigitChars 10 text.toList 0⟩ := by
  unfold parse
  constructor
  · intro h
    split at h
    · exact absurd h (by simp)
    · split at h
      · rename_i hdigits
        injection h with h
        exact ⟨hdigits, h.symm⟩
      · exact absurd h (by simp)
  · rintro ⟨hdigits, rfl⟩
    rw [if_neg (by rw [isNegative_eq_false hdigits]; simp), if_pos hdigits]

/-- The text of an amount is parsed back. -/
theorem parse_text (amount : Wei) : parse amount.text = .ok amount := by
  rw [parse_eq_ok_iff, isDigitString_iff, text, String.toList_ofList,
    Nat.ofDigitChars_ten_toDigits]
  exact ⟨⟨Nat.toDigits_ne_nil, fun c => isDigit_of_mem_toDigits⟩, rfl⟩

/-- Amounts with one text are one amount. -/
theorem text_inj {a b : Wei} (h : a.text = b.text) : a = b :=
  Except.ok.inj ((parse_text a).symm.trans (h ▸ parse_text b))

/-! ## Sums -/

theorem add_assoc (a b c : Wei) : a + b + c = a + (b + c) := ext (Nat.add_assoc _ _ _)

theorem add_left_comm (a b c : Wei) : a + (b + c) = b + (a + c) := ext (Nat.add_left_comm _ _ _)

theorem add_zero (a : Wei) : a + zero = a := ext (Nat.add_zero _)

theorem zero_add (a : Wei) : zero + a = a := ext (Nat.zero_add _)

/-- What was summed before is added to the sum of the rest. -/
theorem foldl_add (amounts : List Wei) (start : Wei) :
    amounts.foldl (· + ·) start = start + sum amounts := by
  induction amounts generalizing start with
  | nil => exact (add_zero start).symm
  | cons amount rest ih =>
      have hcons : sum (amount :: rest) = amount + sum rest := by
        show rest.foldl (· + ·) (zero + amount) = amount + sum rest
        rw [ih, zero_add]
      rw [List.foldl_cons, ih, hcons, add_assoc]

theorem sum_cons (amount : Wei) (rest : List Wei) :
    sum (amount :: rest) = amount + sum rest := by
  show rest.foldl (· + ·) (zero + amount) = amount + sum rest
  rw [foldl_add, zero_add]

theorem value_sum (amounts : List Wei) : (sum amounts).value = (amounts.map Wei.value).sum := by
  induction amounts with
  | nil => rfl
  | cons amount rest ih => rw [sum_cons, value_add, ih, List.map_cons, List.sum_cons]

/-- A sum does not depend on the order of the amounts. -/
theorem sum_perm {amounts others : List Wei} (h : amounts.Perm others) :
    sum amounts = sum others := by
  induction h with
  | nil => rfl
  | cons amount _ ih => rw [sum_cons, sum_cons, ih]
  | swap a b rest => rw [sum_cons, sum_cons, sum_cons, sum_cons, add_left_comm]
  | trans _ _ ih ih' => exact ih.trans ih'

end ChainGenesis.Wei
