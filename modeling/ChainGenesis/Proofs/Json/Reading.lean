import ChainGenesis.Proofs.Json.Grammar
import ChainGenesis.Proofs.Success

/-!
# The reader follows the grammar

The reader of trees accepts exactly the texts of the grammar, and gives the tree that the
text writes.
-/

namespace ChainGenesis.Grammar

open Written

/-! ## The grammar leads the reader -/

theorem skipBlanks_eq {text rest : List Symbol} (h : Blanks text rest) :
    skipBlanks text = skipBlanks rest := by
  induction h with
  | done => rfl
  | step hb _ ih =>
      rw [← ih]
      exact List.dropWhile_cons_of_pos hb

theorem skipBlanks_cons {symbol : Symbol} {rest : List Symbol} (h : isBlank symbol = false) :
    skipBlanks (symbol :: rest) = symbol :: rest :=
  List.dropWhile_cons_of_neg (by simp [h])

/-- White space is skipped up to the first symbol that is none. -/
theorem skipBlanks_eq_cons {symbol : Symbol} {text rest : List Symbol}
    (h : Blanks text (symbol :: rest)) (hs : isBlank symbol = false) :
    skipBlanks text = symbol :: rest := by
  rw [skipBlanks_eq h, skipBlanks_cons hs]

theorem readPieces_eq {text rest : List Symbol} {pieces : List Piece}
    (h : Pieces text pieces rest) : StringLiteral.readPieces text = (pieces, .ok rest) := by
  induction h with
  | close =>
      unfold StringLiteral.readPieces
      dsimp only
      rw [if_pos rfl]
  | stray _ ih => rw [StringLiteral.readPieces, ih]
  | plain hq hb hc _ ih =>
      unfold StringLiteral.readPieces
      dsimp only
      rw [if_neg hq, if_neg hb, if_neg (Nat.not_lt.mpr hc), ih]
  | @escape letter c text rest pieces he _ ih =>
      -- the reader tries for four digits first, and no letter is their mark
      have hu : letter ≠ 'u' := by
        rintro rfl
        exact absurd he (by simp [StringLiteral.escaped?])
      unfold StringLiteral.readPieces
      dsimp only
      rw [if_neg (by decide), if_pos rfl, if_neg hu, he, ih]
  | unit hn _ ih =>
      unfold StringLiteral.readPieces
      dsimp only
      rw [if_neg (by decide), if_pos rfl, if_pos rfl, hn, ih]

theorem readLiteral_eq {text rest : List Symbol} {literal : StringLiteral}
    (h : Literal text literal rest) : StringLiteral.read text = (literal, .ok rest) := by
  cases h with
  | mk hp => rw [StringLiteral.read, readPieces_eq hp]

theorem readDigits_append {digits : List Char} {rest : List Symbol}
    (hd : ∀ c ∈ digits, c.isDigit = true) (hr : NotAhead (·.isDigit = true) rest) :
    readDigits (chars digits ++ rest) = (digits, rest) := by
  induction digits with
  | nil =>
      cases rest with
      | nil => rfl
      | cons symbol rest =>
          cases symbol with
          | stray byte => rfl
          | char c =>
              show readDigits (.char c :: rest) = _
              rw [readDigits, if_neg hr]
  | cons c digits ih =>
      have hc : c.isDigit = true := hd c List.mem_cons_self
      show readDigits (.char c :: (chars digits ++ rest)) = _
      rw [readDigits, if_pos hc, ih fun d h => hd d (List.mem_cons_of_mem _ h)]

theorem readSomeDigits_eq {text rest : List Symbol} {digits : List Char}
    (h : Digits text digits rest) : readSomeDigits text = .ok (digits, rest) := by
  cases h with
  | mk hne hd hr =>
      rw [readSomeDigits, readDigits_append hd hr]
      split
      · rename_i heq
        injection heq with heq _
        exact absurd heq hne
      · rfl

theorem readWhole_eq {text rest : List Symbol} {digits : List Char}
    (h : Digits text digits rest) (hz : NoLeadingZero digits) :
    readWhole text = .ok (digits, rest) := by
  rw [readWhole, readSomeDigits_eq h]
  split
  · rename_i heq
    injection heq with heq
    injection heq with heq _
    -- the reader refuses a zero before more digits, which `NoLeadingZero` rules out
    rcases hz with hz | hz
    · rw [hz] at heq
      injection heq with _ heq
      exact absurd heq (by simp)
    · rw [heq] at hz
      exact absurd rfl hz
  · rfl

theorem readFraction_eq {text rest : List Symbol} {fraction : Option (List Char)}
    (h : Fraction text fraction rest) : readFraction text = .ok (fraction, rest) := by
  cases h with
  | absent hr =>
      unfold readFraction
      split
      · exact absurd rfl hr
      · rfl
  | present hd => rw [readFraction, readSomeDigits_eq hd]

theorem readSign_eq {text rest : List Symbol} {negative : Bool} (h : Sign text negative rest) :
    readSign text = (negative, rest) := by
  cases h with
  | minus => rfl
  | plus => rfl
  | absent hr =>
      unfold readSign
      split
      · exact absurd (.inl rfl) hr
      · exact absurd (.inr rfl) hr
      · rfl

theorem readExponent_eq {text rest : List Symbol} {exponent : Option (Bool × List Char)}
    (h : Exponent text exponent rest) : readExponent text = .ok (exponent, rest) := by
  cases h with
  | absent hr =>
      unfold readExponent
      split
      · rw [if_neg hr]
      · rfl
  | present hl hs hd =>
      rw [readExponent, if_pos hl, readSign_eq hs]
      dsimp only
      rw [readSomeDigits_eq hd]

theorem readMagnitude_eq {negative : Bool} {text rest : List Symbol} {numeral : Numeral}
    (h : Magnitude negative text numeral rest) :
    readMagnitude negative text = .ok (numeral, rest) := by
  cases h with
  | mk hw hz hf he =>
      rw [readMagnitude]
      refine bind_eq_ok.mpr ⟨_, readWhole_eq hw hz, ?_⟩
      refine bind_eq_ok.mpr ⟨_, readFraction_eq hf, ?_⟩
      exact bind_eq_ok.mpr ⟨_, readExponent_eq he, rfl⟩

/-- The first symbol of digits is a digit. -/
theorem Digits.head {text rest : List Symbol} {digits : List Char} (h : Digits text digits rest) :
    ∃ c behind, text = .char c :: behind ∧ c.isDigit = true := by
  cases h with
  | mk hne hd _ =>
      obtain ⟨c, digits, rfl⟩ := List.exists_cons_of_ne_nil hne
      exact ⟨c, _, rfl, hd c List.mem_cons_self⟩

/-- A number begins with a digit or a minus sign. -/
theorem Signed.head {text rest : List Symbol} {numeral : Numeral} (h : Signed text numeral rest) :
    ∃ c behind, text = .char c :: behind ∧ (c = '-' ∨ c.isDigit = true) := by
  cases h with
  | negative _ => exact ⟨'-', _, rfl, .inl rfl⟩
  | positive hm =>
      cases hm with
      | mk hw =>
          obtain ⟨c, behind, he, hd⟩ := hw.head
          exact ⟨c, behind, he, .inr hd⟩

theorem readNumeral_eq {text rest : List Symbol} {numeral : Numeral}
    (h : Signed text numeral rest) : readNumeral text = .ok (numeral, rest) := by
  cases h with
  | negative hm => rw [readNumeral, readMagnitude_eq hm]
  | positive hm =>
      -- a number without a sign begins with a digit, so it is not taken for a negative one
      have hm' := hm
      cases hm' with
      | mk hw =>
          obtain ⟨c, behind, he, hd⟩ := hw.head
          unfold readNumeral
          split
          · injection he with hc _
            injection hc with hc
            subst hc
            exact absurd hd (by decide)
          · exact readMagnitude_eq hm

theorem readWord_append (word : List Char) (rest : List Symbol) :
    readWord word (chars word ++ rest) = .ok rest := by
  induction word with
  | nil => rfl
  | cons c word ih =>
      show readWord (c :: word) (.char c :: (chars word ++ rest)) = _
      rw [readWord, if_pos rfl, ih]

/-! ### Every part takes something off the text -/

theorem Blanks.length_le {text rest : List Symbol} (h : Blanks text rest) :
    rest.length ≤ text.length := by
  induction h with
  | done => exact Nat.le_refl _
  | step _ _ ih => exact Nat.le_succ_of_le ih

theorem Pieces.length_lt {text rest : List Symbol} {pieces : List Piece}
    (h : Pieces text pieces rest) : rest.length < text.length := by
  induction h with
  | close => exact Nat.lt_succ_self _
  | stray _ ih => exact Nat.lt_succ_of_lt ih
  | plain _ _ _ _ ih => exact Nat.lt_succ_of_lt ih
  | escape _ _ ih => simp only [List.length_cons]; omega
  | unit _ _ ih => simp only [List.length_cons]; omega

theorem Literal.length_lt {text rest : List Symbol} {literal : StringLiteral}
    (h : Literal text literal rest) : rest.length < text.length := by
  cases h with
  | mk hp => exact hp.length_lt

theorem Digits.length_lt {text rest : List Symbol} {digits : List Char}
    (h : Digits text digits rest) : rest.length < text.length := by
  cases h with
  | mk hne _ _ =>
      have := List.length_pos_iff.mpr hne
      simp only [List.length_append, List.length_map]
      omega

theorem Fraction.length_le {text rest : List Symbol} {fraction : Option (List Char)}
    (h : Fraction text fraction rest) : rest.length ≤ text.length := by
  cases h with
  | absent _ => exact Nat.le_refl _
  | present hd => exact Nat.le_succ_of_le (Nat.le_of_lt hd.length_lt)

theorem Sign.length_le {text rest : List Symbol} {negative : Bool} (h : Sign text negative rest) :
    rest.length ≤ text.length := by
  cases h with
  | minus => exact Nat.le_succ _
  | plus => exact Nat.le_succ _
  | absent _ => exact Nat.le_refl _

theorem Exponent.length_le {text rest : List Symbol} {exponent : Option (Bool × List Char)}
    (h : Exponent text exponent rest) : rest.length ≤ text.length := by
  cases h with
  | absent _ => exact Nat.le_refl _
  | present _ hs hd =>
      have h1 := hs.length_le
      have h2 := hd.length_lt
      simp only [List.length_cons]
      omega

theorem Signed.length_lt {text rest : List Symbol} {numeral : Numeral}
    (h : Signed text numeral rest) : rest.length < text.length := by
  have hmag : ∀ {negative : Bool} {text : List Symbol},
      Magnitude negative text numeral rest → rest.length < text.length := by
    intro negative text hm
    cases hm with
    | mk hw _ hf he =>
        have h1 := hw.length_lt
        have h2 := hf.length_le
        have h3 := he.length_le
        omega
  cases h with
  | negative hm => exact Nat.lt_succ_of_lt (hmag hm)
  | positive hm => exact hmag hm

mutual

theorem Value.length_lt {text rest : List Symbol} {written : Written} :
    Value text written rest → rest.length < text.length
  | .null => by simp only [List.length_append, List.length_map, List.length_cons]; omega
  | .yes => by simp only [List.length_append, List.length_map, List.length_cons]; omega
  | .no => by simp only [List.length_append, List.length_map, List.length_cons]; omega
  | .number hn => hn.length_lt
  | .string hl => Nat.lt_succ_of_lt hl.length_lt
  | .noItems hb => by
      have := hb.length_le
      simp only [List.length_cons] at *
      omega
  | .array hi => Nat.lt_succ_of_lt hi.length_lt
  | .noMembers hb => by
      have := hb.length_le
      simp only [List.length_cons] at *
      omega
  | .object hm => Nat.lt_succ_of_lt hm.length_lt

theorem Items.length_lt {text rest : List Symbol} {items : List Written} :
    Items text items rest → rest.length < text.length
  | .last hb hv hc => by
      have h1 := hb.length_le
      have h2 := hv.length_lt
      have h3 := hc.length_le
      simp only [List.length_cons] at *
      omega
  | .more hb hv hc hi => by
      have h1 := hb.length_le
      have h2 := hv.length_lt
      have h3 := hc.length_le
      have h4 := hi.length_lt
      simp only [List.length_cons] at *
      omega

theorem Members.length_lt {text rest : List Symbol} {members : List (StringLiteral × Written)} :
    Members text members rest → rest.length < text.length
  | .last hq hl hc hb hv he => by
      have h1 := hq.length_le
      have h2 := hl.length_lt
      have h3 := hc.length_le
      have h4 := hb.length_le
      have h5 := hv.length_lt
      have h6 := he.length_le
      simp only [List.length_cons] at *
      omega
  | .more hq hl hc hb hv he hm => by
      have h1 := hq.length_le
      have h2 := hl.length_lt
      have h3 := hc.length_le
      have h4 := hb.length_le
      have h5 := hv.length_lt
      have h6 := he.length_le
      have h7 := hm.length_lt
      simp only [List.length_cons] at *
      omega

end

/-! ### Values -/

/-- A character that can begin a number is none of those that cannot. -/
theorem ne_of_start {c d : Char} (hc : c = '-' ∨ c.isDigit = true)
    (hd : ¬(d = '-' ∨ d.isDigit = true)) : c ≠ d := fun he => hd (he ▸ hc)

theorem notBlank_of_start {c : Char} (hc : c = '-' ∨ c.isDigit = true) :
    isBlank (.char c) = false := by
  have h1 := ne_of_start hc (d := ' ') (by decide)
  have h2 := ne_of_start hc (d := '\n') (by decide)
  have h3 := ne_of_start hc (d := '\r') (by decide)
  have h4 := ne_of_start hc (d := '\t') (by decide)
  simp [isBlank, h1, h2, h3, h4]

/-- A value begins with a character that is neither blank nor a closing bracket. -/
theorem Value.head {text rest : List Symbol} {written : Written} (h : Value text written rest) :
    ∃ c behind, text = .char c :: behind ∧ isBlank (.char c) = false ∧ c ≠ ']' := by
  cases h with
  | null => exact ⟨_, _, rfl, by decide, by decide⟩
  | yes => exact ⟨_, _, rfl, by decide, by decide⟩
  | no => exact ⟨_, _, rfl, by decide, by decide⟩
  | number hn =>
      obtain ⟨c, behind, he, hc⟩ := hn.head
      exact ⟨c, behind, he, notBlank_of_start hc, ne_of_start hc (by decide)⟩
  | string _ => exact ⟨_, _, rfl, by decide, by decide⟩
  | noItems _ => exact ⟨_, _, rfl, by decide, by decide⟩
  | array _ => exact ⟨_, _, rfl, by decide, by decide⟩
  | noMembers _ => exact ⟨_, _, rfl, by decide, by decide⟩
  | object _ => exact ⟨_, _, rfl, by decide, by decide⟩

/-- Items do not begin with a closing bracket. -/
theorem Items.skip {text rest : List Symbol} {items : List Written} (h : Items text items rest) :
    ∃ c behind, skipBlanks text = .char c :: behind ∧ c ≠ ']' := by
  have key : ∀ {t1 t2 : List Symbol} {item : Written}, Blanks text t1 → Value t1 item t2 →
      ∃ c behind, skipBlanks text = .char c :: behind ∧ c ≠ ']' := by
    intro t1 t2 item hb hv
    obtain ⟨c, behind, rfl, hc, hne⟩ := hv.head
    exact ⟨c, behind, skipBlanks_eq_cons hb hc, hne⟩
  cases h with
  | last hb hv _ => exact key hb hv
  | more hb hv _ _ => exact key hb hv

/-- Members begin with a quote. -/
theorem Members.skip {text rest : List Symbol} {members : List (StringLiteral × Written)}
    (h : Members text members rest) : ∃ behind, skipBlanks text = .char '"' :: behind := by
  cases h with
  | last hq => exact ⟨_, skipBlanks_eq_cons hq (by decide)⟩
  | more hq => exact ⟨_, skipBlanks_eq_cons hq (by decide)⟩

theorem skipBlanks_skipBlanks (text : List Symbol) :
    skipBlanks (skipBlanks text) = skipBlanks text := by
  induction text with
  | nil => rfl
  | cons symbol text ih =>
      by_cases h : isBlank symbol = true
      · have hs : skipBlanks (symbol :: text) = skipBlanks text := List.dropWhile_cons_of_pos h
        rw [hs, ih]
      · rw [skipBlanks_cons (by simpa using h), skipBlanks_cons (by simpa using h)]

theorem readValue_skipBlanks (steps : Nat) (text : List Symbol) :
    readValue steps (skipBlanks text) = readValue steps text := by
  cases steps with
  | zero => rfl
  | succ steps => rw [readValue, readValue, skipBlanks_skipBlanks]

theorem readItems_skipBlanks (steps : Nat) (text : List Symbol) :
    readItems steps (skipBlanks text) = readItems steps text := by
  cases steps with
  | zero => rfl
  | succ steps => rw [readItems, readItems, readValue_skipBlanks]

theorem readMembers_skipBlanks (steps : Nat) (text : List Symbol) :
    readMembers steps (skipBlanks text) = readMembers steps text := by
  cases steps with
  | zero => rfl
  | succ steps => rw [readMembers, readMembers, skipBlanks_skipBlanks]

/-! ### One step of the reader

One lemma for each way in which the reader goes on, so that the induction below does not
open its definition. -/

section

variable {steps : Nat} {text t1 t2 t3 t4 t5 : List Symbol}

theorem readValue_word {c : Char} {word : List Char} {written : Written}
    (hw : (c, word, written) = ('n', ['u', 'l', 'l'], .null)
      ∨ (c, word, written) = ('t', ['r', 'u', 'e'], .bool true)
      ∨ (c, word, written) = ('f', ['a', 'l', 's', 'e'], .bool false))
    (hs : skipBlanks text = .char c :: chars word ++ t1) :
    readValue (steps + 1) text = (written, .ok t1) := by
  rcases hw with hw | hw | hw <;> obtain ⟨rfl, rfl, rfl⟩ := hw <;> rw [readValue, hs]
  · exact congrArg (ofWord _) (readWord_append ['u', 'l', 'l'] t1)
  · exact congrArg (ofWord _) (readWord_append ['r', 'u', 'e'] t1)
  · exact congrArg (ofWord _) (readWord_append ['a', 'l', 's', 'e'] t1)

theorem readValue_number {numeral : Numeral} {c : Char} (hc : c = '-' ∨ c.isDigit = true)
    (hs : skipBlanks text = .char c :: t1)
    (hn : readNumeral (.char c :: t1) = .ok (numeral, t2)) :
    readValue (steps + 1) text = (.number numeral, .ok t2) := by
  rw [readValue, hs]
  dsimp only
  -- six kinds of value are tried before a number
  rw [if_neg (ne_of_start hc (by decide)), if_neg (ne_of_start hc (by decide)),
    if_neg (ne_of_start hc (by decide)), if_neg (ne_of_start hc (by decide)),
    if_neg (ne_of_start hc (by decide)), if_neg (ne_of_start hc (by decide)), if_pos hc, hn]
  rfl

theorem readValue_string {literal : StringLiteral} (hs : skipBlanks text = .char '"' :: t1)
    (hl : StringLiteral.read t1 = (literal, .ok t2)) :
    readValue (steps + 1) text = (.string literal, .ok t2) := by
  rw [readValue, hs]
  dsimp only
  rw [if_pos rfl, hl]

theorem readValue_noItems (hs : skipBlanks text = .char '[' :: t1)
    (hc : skipBlanks t1 = .char ']' :: t2) :
    readValue (steps + 1) text = (.array [] none, .ok t2) := by
  rw [readValue, hs]
  simp [hc]

theorem readValue_items {c : Char} {items : List Written} (hs : skipBlanks text = .char '[' :: t1)
    (hc : skipBlanks t1 = .char c :: t2) (hne : c ≠ ']')
    (hi : readItems steps t1 = (items, none, .ok t3)) :
    readValue (steps + 1) text = (.array items none, .ok t3) := by
  rw [← readItems_skipBlanks] at hi
  rw [readValue, hs]
  dsimp only
  rw [if_neg (by decide), if_pos rfl]
  split
  · rename_i heq
    exact absurd (hc.symm.trans heq) (by simp)
  · rename_i heq
    injection hc.symm.trans heq with heq _
    injection heq with heq
    exact absurd heq hne
  · rw [hi]

theorem readValue_noMembers (hs : skipBlanks text = .char '\x7b' :: t1)
    (hc : skipBlanks t1 = .char '\x7d' :: t2) :
    readValue (steps + 1) text = (.object [] none, .ok t2) := by
  rw [readValue, hs]
  simp [hc]

theorem readValue_members {members : List (StringLiteral × Written)}
    (hs : skipBlanks text = .char '\x7b' :: t1) (hc : skipBlanks t1 = .char '"' :: t2)
    (hm : readMembers steps t1 = (members, none, .ok t3)) :
    readValue (steps + 1) text = (.object members none, .ok t3) := by
  rw [← readMembers_skipBlanks] at hm
  rw [readValue, hs]
  dsimp only
  rw [if_neg (by decide), if_neg (by decide), if_pos rfl]
  split
  · rename_i heq
    injection hc.symm.trans heq with heq _
    injection heq with heq
    exact absurd heq (by decide)
  · rw [hm]

theorem readItems_last {item : Written} (hv : readValue steps text = (item, .ok t1))
    (hc : skipBlanks t1 = .char ']' :: t2) :
    readItems (steps + 1) text = ([item], none, .ok t2) := by
  rw [readItems, hv]
  simp only [hc]

theorem readItems_more {item : Written} {items : List Written}
    (hv : readValue steps text = (item, .ok t1)) (hc : skipBlanks t1 = .char ',' :: t2)
    (hi : readItems steps t2 = (items, none, .ok t3)) :
    readItems (steps + 1) text = (item :: items, none, .ok t3) := by
  rw [readItems, hv]
  simp only [hc, hi]

theorem readMembers_last {name : StringLiteral} {value : Written} {t6 : List Symbol}
    (hq : skipBlanks text = .char '"' :: t1) (hl : StringLiteral.read t1 = (name, .ok t2))
    (hc : skipBlanks t2 = .char ':' :: t3) (hv : readValue steps t3 = (value, .ok t4))
    (he : skipBlanks t4 = .char '\x7d' :: t6) :
    readMembers (steps + 1) text = ([(name, value)], none, .ok t6) := by
  rw [readMembers]
  simp only [hq, hl, hc, hv, he]

theorem readMembers_more {name : StringLiteral} {value : Written}
    {members : List (StringLiteral × Written)} {t6 : List Symbol}
    (hq : skipBlanks text = .char '"' :: t1) (hl : StringLiteral.read t1 = (name, .ok t2))
    (hc : skipBlanks t2 = .char ':' :: t3) (hv : readValue steps t3 = (value, .ok t4))
    (he : skipBlanks t4 = .char ',' :: t5) (hm : readMembers steps t5 = (members, none, .ok t6)) :
    readMembers (steps + 1) text = ((name, value) :: members, none, .ok t6) := by
  rw [readMembers]
  simp only [hq, hl, hc, hv, he, hm]

end

/-! ### All steps -/

mutual

/--
A value behind white space is read, if there are two steps for each symbol. One step opens
an array and one more its first item, which is where the factor comes from.
-/
theorem readValue_eq {text t1 rest : List Symbol} {written : Written} (hb : Blanks text t1) :
    Value t1 written rest →
      ∀ {steps : Nat}, 2 * text.length ≤ steps → readValue (steps + 1) text = (written, .ok rest)
  | .null, _, _ => readValue_word (.inl rfl) (skipBlanks_eq_cons hb (by decide))
  | .yes, _, _ => readValue_word (.inr (.inl rfl)) (skipBlanks_eq_cons hb (by decide))
  | .no, _, _ => readValue_word (.inr (.inr rfl)) (skipBlanks_eq_cons hb (by decide))
  | .number hn, _, _ => by
      obtain ⟨c, behind, rfl, hc⟩ := hn.head
      exact readValue_number hc (skipBlanks_eq_cons hb (notBlank_of_start hc)) (readNumeral_eq hn)
  | .string hl, _, _ => readValue_string (skipBlanks_eq_cons hb (by decide)) (readLiteral_eq hl)
  | .noItems hc, _, _ =>
      readValue_noItems (skipBlanks_eq_cons hb (by decide)) (skipBlanks_eq_cons hc (by decide))
  | .noMembers hc, _, _ =>
      readValue_noMembers (skipBlanks_eq_cons hb (by decide)) (skipBlanks_eq_cons hc (by decide))
  | .array hi, steps, hs => by
      -- the bracket is a symbol less for the items, and so two steps more
      have hlen := hb.length_le
      simp only [List.length_cons] at hlen
      obtain ⟨steps, rfl⟩ : ∃ n, steps = n + 1 := ⟨steps - 1, by omega⟩
      obtain ⟨c, behind, hskip, hne⟩ := hi.skip
      exact readValue_items (skipBlanks_eq_cons hb (by decide)) hskip hne
        (readItems_eq hi (by omega))
  | .object hm, steps, hs => by
      have hlen := hb.length_le
      simp only [List.length_cons] at hlen
      obtain ⟨steps, rfl⟩ : ∃ n, steps = n + 1 := ⟨steps - 1, by omega⟩
      obtain ⟨behind, hskip⟩ := hm.skip
      exact readValue_members (skipBlanks_eq_cons hb (by decide)) hskip
        (readMembers_eq hm (by omega))

theorem readItems_eq {text rest : List Symbol} {items : List Written} :
    Items text items rest →
      ∀ {steps : Nat}, 2 * text.length < steps →
        readItems (steps + 1) text = (items, none, .ok rest)
  | .last hb hv hc, steps, hs => by
      obtain ⟨steps, rfl⟩ : ∃ n, steps = n + 1 := ⟨steps - 1, by omega⟩
      exact readItems_last (readValue_eq hb hv (by omega)) (skipBlanks_eq_cons hc (by decide))
  | .more hb hv hc hi, steps, hs => by
      -- the item and the comma leave less text for the items behind them
      obtain ⟨steps, rfl⟩ : ∃ n, steps = n + 1 := ⟨steps - 1, by omega⟩
      have h1 := hb.length_le
      have h2 := hv.length_lt
      have h3 := hc.length_le
      simp only [List.length_cons] at h3
      exact readItems_more (readValue_eq hb hv (by omega)) (skipBlanks_eq_cons hc (by decide))
        (readItems_eq hi (by omega))

theorem readMembers_eq {text rest : List Symbol} {members : List (StringLiteral × Written)} :
    Members text members rest →
      ∀ {steps : Nat}, 2 * text.length < steps →
        readMembers (steps + 1) text = (members, none, .ok rest)
  | .last hq hl hc hb hv he, steps, hs => by
      obtain ⟨steps, rfl⟩ : ∃ n, steps = n + 1 := ⟨steps - 1, by omega⟩
      have h1 := hq.length_le
      have h2 := hl.length_lt
      have h3 := hc.length_le
      simp only [List.length_cons] at h1 h3
      exact readMembers_last (skipBlanks_eq_cons hq (by decide)) (readLiteral_eq hl)
        (skipBlanks_eq_cons hc (by decide)) (readValue_eq hb hv (by omega))
        (skipBlanks_eq_cons he (by decide))
  | .more hq hl hc hb hv he hm, steps, hs => by
      obtain ⟨steps, rfl⟩ : ∃ n, steps = n + 1 := ⟨steps - 1, by omega⟩
      have h1 := hq.length_le
      have h2 := hl.length_lt
      have h3 := hc.length_le
      have h4 := hb.length_le
      have h5 := hv.length_lt
      have h6 := he.length_le
      simp only [List.length_cons] at h1 h3 h6
      exact readMembers_more (skipBlanks_eq_cons hq (by decide)) (readLiteral_eq hl)
        (skipBlanks_eq_cons hc (by decide)) (readValue_eq hb hv (by omega))
        (skipBlanks_eq_cons he (by decide)) (readMembers_eq hm (by omega))

end

/-- **The reader gives the tree that a text writes.** -/
theorem ofSymbols_eq {text : List Symbol} {written : Written} (h : Spells text written) :
    ofSymbols text = (written, none) := by
  cases h with
  | mk hb hv he =>
      rw [ofSymbols, readValue_eq hb hv (by omega)]
      dsimp only
      rw [skipBlanks_eq he]
      rfl

end ChainGenesis.Grammar
