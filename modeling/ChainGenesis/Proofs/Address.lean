import ChainGenesis.Address
import ChainGenesis.Json.StringLiteral
import ChainGenesis.Proofs.Decimal

/-!
# How addresses are written

An address is `0x` and forty hexadecimal digits, and the case of the letters among them is the
only thing about it that parsing changes. The digits are a number in base sixteen, and parsed
addresses are compared as texts with the same result as these numbers: they have as many digits
each, and among digits in lowercase the figures come before the letters.
-/

namespace ChainGenesis.Address

/-! ## Spelling -/

/-- The hexadecimal digits, each letter in either case. -/
def hexDigits : List Char := "0123456789abcdefABCDEF".toList

/-- Every digit is an ASCII character. -/
theorem toNat_lt_of_isHexDigit {c : Char} (h : isHexDigit c = true) : c.toNat < 128 := by
  simp only [isHexDigit, Char.isDigit, Bool.or_eq_true, Bool.and_eq_true, decide_eq_true_iff] at h
  rcases h with (⟨_, h⟩ | ⟨_, h⟩) | ⟨_, h⟩
  · exact Nat.lt_of_le_of_lt (show c.toNat ≤ '9'.toNat from h) (by decide)
  · exact Nat.lt_of_le_of_lt (show c.toNat ≤ 'f'.toNat from h) (by decide)
  · exact Nat.lt_of_le_of_lt (show c.toNat ≤ 'F'.toNat from h) (by decide)

theorem isHexDigit_iff {c : Char} : isHexDigit c = true ↔ c ∈ hexDigits := by
  constructor
  · intro h
    -- there are few enough ASCII characters to look at each
    have hascii : ∀ n < 128, isHexDigit (Char.ofNat n) = true → Char.ofNat n ∈ hexDigits := by
      decide +kernel
    have hc := hascii c.toNat (toNat_lt_of_isHexDigit h)
    rw [Char.ofNat_toNat] at hc
    exact hc h
  · have hdigits : hexDigits.all isHexDigit = true := by decide
    exact List.all_eq_true.mp hdigits c

/-- A text that is written as an address. -/
def Spelled (text : String) : Prop :=
  ∃ digits : List Char, text = "0x" ++ String.ofList digits ∧ digits.length = 40
    ∧ ∀ c ∈ digits, c ∈ hexDigits

theorem toList_prefixed (digits : List Char) :
    ("0x" ++ String.ofList digits).toList = '0' :: 'x' :: digits := by
  rw [String.toList_append, @String.toList_ofList digits]
  rfl

/-- **What is taken for an address is written as one.** -/
theorem isValid_iff {text : String} : isValid text = true ↔ Spelled text := by
  have hlist : ∀ digits, text.toList = '0' :: 'x' :: digits
      ↔ text = "0x" ++ String.ofList digits := by
    intro digits
    rw [← String.toList_inj, toList_prefixed]
  unfold isValid
  constructor
  · intro h
    split at h
    · rename_i digits heq
      rw [Bool.and_eq_true, decide_eq_true_iff, List.all_eq_true] at h
      exact ⟨digits, (hlist digits).mp heq, h.1, fun c hmem => isHexDigit_iff.mp (h.2 c hmem)⟩
    · exact absurd h Bool.false_ne_true
  · rintro ⟨digits, htext, hlength, hdigits⟩
    rw [(hlist digits).mpr htext]
    show (decide (digits.length = digitCount) && digits.all isHexDigit) = true
    rw [Bool.and_eq_true, decide_eq_true_iff, List.all_eq_true]
    exact ⟨hlength, fun c hmem => isHexDigit_iff.mpr (hdigits c hmem)⟩

instance (text : String) : Decidable (Spelled text) := decidable_of_iff _ isValid_iff

theorem decide_spelled (text : String) : decide (Spelled text) = isValid text := by
  rw [Bool.eq_iff_iff, decide_eq_true_iff, isValid_iff]

/-! ## Parsing -/

/-- **An address is parsed into its lowercase form,** and nothing else is parsed. -/
theorem parse_eq_ok_iff {text : String} {address : Address} :
    parse text = .ok address
      ↔ isValid text = true ∧ address = ⟨Text.lowercase text⟩ := by
  unfold parse
  split
  · rename_i hvalid
    simp only [Except.ok.injEq, hvalid, true_and, eq_comm]
  · rename_i hvalid
    simp [hvalid]

/-- Two spellings of addresses are parsed alike exactly if only the case of letters tells them
apart. -/
theorem parse_eq_parse_iff {text other : String} (h : isValid text = true)
    (h' : isValid other = true) : parse text = parse other ↔ Text.sameWord text other = true := by
  rw [parse_eq_ok_iff.mpr ⟨h, rfl⟩, parse_eq_ok_iff.mpr ⟨h', rfl⟩, Text.sameWord,
    decide_eq_true_iff, Except.ok.injEq, mk.injEq]

/-! ## Numbers -/

/-- The value of a hexadecimal digit of either case. -/
def digitValue (c : Char) : Nat := (StringLiteral.hexValue? c).getD 0

/-- The number that an address writes in base sixteen, behind its prefix. -/
def number (text : String) : Nat :=
  Nat.ofDigits 16 ((text.toList.drop 2).map digitValue).reverse

theorem number_append (digits : List Char) :
    number ("0x" ++ String.ofList digits) = Nat.ofDigits 16 (digits.map digitValue).reverse := by
  rw [number, toList_prefixed]
  rfl

theorem lowercase_append (digits : List Char) :
    Text.lowercase ("0x" ++ String.ofList digits)
      = "0x" ++ String.ofList (digits.map Char.toLower) := by
  rw [← String.toList_inj, Text.lowercase, String.toList_ofList, toList_prefixed, toList_prefixed]
  rfl

/-- A digit in lowercase is a digit of the same value. -/
theorem toLower_mem_hexDigits {c : Char} (h : c ∈ hexDigits) :
    c.toLower ∈ hexDigits ∧ digitValue c.toLower = digitValue c
      ∧ c.toLower.toLower = c.toLower := by
  have hall : hexDigits.all (fun c => c.toLower ∈ hexDigits
      ∧ digitValue c.toLower = digitValue c ∧ c.toLower.toLower = c.toLower) = true := by decide
  exact of_decide_eq_true (List.all_eq_true.mp hall c h)

theorem map_digitValue_toLower {digits : List Char} (h : ∀ c ∈ digits, c ∈ hexDigits) :
    (digits.map Char.toLower).map digitValue = digits.map digitValue := by
  rw [List.map_map]
  exact List.map_congr_left fun c hc => (toLower_mem_hexDigits (h c hc)).2.1

theorem forall_digitValue_lt {digits : List Char} (h : ∀ c ∈ digits, c ∈ hexDigits) :
    ∀ d ∈ digits.map digitValue, d < 16 := by
  have hall : hexDigits.all (fun c => digitValue c < 16) = true := by decide
  intro d hd
  obtain ⟨c, hc, rfl⟩ := List.mem_map.mp hd
  exact of_decide_eq_true (List.all_eq_true.mp hall c (h c hc))

/-- Among digits in lowercase figures come before letters, as they do in value. -/
theorem digitValue_strictMonoOn :
    StrictMonoOn digitValue {c | c ∈ hexDigits.map Char.toLower} := by
  have hall : (hexDigits.map Char.toLower).all (fun c => (hexDigits.map Char.toLower).all fun d =>
      c < d → digitValue c < digitValue d) = true := by decide +kernel
  intro c hc d hd hlt
  have hdigit := List.all_eq_true.mp (List.all_eq_true.mp hall c hc) d hd
  exact of_decide_eq_true hdigit hlt

theorem Spelled.number_lt {text : String} (h : Spelled text) : number text < 2 ^ 160 := by
  obtain ⟨digits, rfl, hlength, hdigits⟩ := h
  have hlt := Nat.ofDigits_lt_base_pow_length (by omega) fun d hd =>
    forall_digitValue_lt hdigits d (List.mem_reverse.mp hd)
  rw [List.length_reverse, List.length_map, hlength] at hlt
  rw [number_append]
  exact hlt

theorem Spelled.lowercase {text : String} (h : Spelled text) : Spelled (Text.lowercase text) := by
  obtain ⟨digits, rfl, hlength, hdigits⟩ := h
  refine ⟨digits.map Char.toLower, lowercase_append digits, by rw [List.length_map, hlength], ?_⟩
  intro c hc
  obtain ⟨d, hd, rfl⟩ := List.mem_map.mp hc
  exact (toLower_mem_hexDigits (hdigits d hd)).1

/-- The case of the letters does not matter to the number. -/
theorem Spelled.number_lowercase {text : String} (h : Spelled text) :
    number (Text.lowercase text) = number text := by
  obtain ⟨digits, rfl, _, hdigits⟩ := h
  rw [lowercase_append, number_append, number_append, map_digitValue_toLower hdigits]

theorem Spelled.lowercase_lowercase {text : String} (h : Spelled text) :
    Text.lowercase (Text.lowercase text) = Text.lowercase text := by
  obtain ⟨digits, rfl, _, hdigits⟩ := h
  rw [lowercase_append, lowercase_append, List.map_map]
  exact congrArg (fun ds => "0x" ++ String.ofList ds)
    (List.map_congr_left fun c hc => (toLower_mem_hexDigits (hdigits c hc)).2.2)

/-- **Addresses in lowercase are in the order of their numbers.** -/
theorem Spelled.lowercase_lt_iff {text other : String} (h : Spelled text) (h' : Spelled other) :
    Text.lowercase text < Text.lowercase other ↔ number text < number other := by
  obtain ⟨digits, rfl, hlength, hdigits⟩ := h
  obtain ⟨others, rfl, hlength', hdigits'⟩ := h'
  have hlow : ∀ {ds : List Char}, (∀ c ∈ ds, c ∈ hexDigits) →
      ∀ c ∈ ds.map Char.toLower, c ∈ hexDigits.map Char.toLower := by
    intro ds hds c hc
    obtain ⟨d, hd, rfl⟩ := List.mem_map.mp hc
    exact List.mem_map_of_mem (hds d hd)
  calc Text.lowercase ("0x" ++ String.ofList digits) < Text.lowercase ("0x" ++ String.ofList others)
      ↔ digits.map Char.toLower < others.map Char.toLower := by
        rw [lowercase_append, lowercase_append, String.lt_iff_toList_lt, toList_prefixed,
          toList_prefixed]
        simp
    _ ↔ digits.map digitValue < others.map digitValue := by
        rw [← map_digitValue_toLower hdigits, ← map_digitValue_toLower hdigits']
        exact (map_lt_map_iff digitValue_strictMonoOn (hlow hdigits) (hlow hdigits')).symm
    _ ↔ number ("0x" ++ String.ofList digits) < number ("0x" ++ String.ofList others) := by
        have hlengths : (digits.map digitValue).length = (others.map digitValue).length := by
          rw [List.length_map, List.length_map, hlength, hlength']
        rw [number_append, number_append]
        exact (ofDigits_lt_iff (by omega) hlengths (forall_digitValue_lt hdigits)
          (forall_digitValue_lt hdigits')).symm

/-- Addresses are the same in lowercase exactly if they write one number. -/
theorem Spelled.lowercase_eq_iff {text other : String} (h : Spelled text) (h' : Spelled other) :
    Text.lowercase text = Text.lowercase other ↔ number text = number other := by
  have hlt := h.lowercase_lt_iff h'
  have hgt := h'.lowercase_lt_iff h
  rcases lt_trichotomy (number text) (number other) with hless | heq | hmore
  · exact iff_of_false (hlt.mpr hless).ne hless.ne
  · refine iff_of_true ?_ heq
    exact le_antisymm (not_lt.mp (mt hgt.mp heq.not_gt)) (not_lt.mp (mt hlt.mp heq.not_lt))
  · exact iff_of_false (hgt.mpr hmore).ne' hmore.ne'

/-- The zero address is the number zero. -/
theorem isZero_iff {text : String} (h : Spelled text) :
    isZero ⟨Text.lowercase text⟩ = true ↔ number text = 0 := by
  have hzero : Spelled zero.text := by decide +kernel
  have hlow : Text.lowercase zero.text = zero.text := by decide +kernel
  have hnumber : number zero.text = 0 := by decide +kernel
  rw [isZero, decide_eq_true_iff, ← hnumber, ← h.lowercase_eq_iff hzero, hlow]
  exact ⟨congrArg Address.text, congrArg Address.mk⟩

end ChainGenesis.Address
