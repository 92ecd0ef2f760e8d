import ChainGenesis.Proofs.Json.Reading
import ChainGenesis.Proofs.Success

/-!
# The reader keeps to the grammar

The other direction: a text that the reader of trees accepts is a text of the grammar. With
`ofSymbols_eq` this says exactly which texts are read, and as what tree.
-/

namespace ChainGenesis.Grammar

open Written

theorem blanks_skipBlanks (text : List Symbol) : Blanks text (skipBlanks text) := by
  induction text with
  | nil => exact .done
  | cons symbol text ih =>
      by_cases h : isBlank symbol = true
      · have hs : skipBlanks (symbol :: text) = skipBlanks text := List.dropWhile_cons_of_pos h
        rw [hs]
        exact .step h ih
      · rw [skipBlanks_cons (by simpa using h)]
        exact .done

/-- White space that is skipped may be taken together with white space before it. -/
theorem blanks_of_skipBlanks {text rest : List Symbol} (h : skipBlanks text = rest) :
    Blanks text rest := h ▸ blanks_skipBlanks text

/-! ## Strings -/

theorem pieces_of_readPieces {text rest : List Symbol} {pieces : List Piece}
    (h : StringLiteral.readPieces text = (pieces, .ok rest)) : Pieces text pieces rest := by
  -- one case for each branch of the reader; the branches that refuse the text are absurd
  fun_induction StringLiteral.readPieces text generalizing pieces rest with
  | case1 => simp at h
  | case2 byte tail found result hr ih =>
      injection h with h1 h2
      subst h1 h2
      exact .stray (ih hr)
  | case3 tail =>
      injection h with h1 h2
      injection h2 with h2
      subst h1 h2
      exact .close
  | case4 => simp at h
  | case5 => simp at h
  | case6 d1 d2 d3 d4 tail n hn found result hr _ ih =>
      injection h with h1 h2
      subst h1 h2
      exact .unit hn (ih hr)
  | case7 => simp at h
  | case8 => simp at h
  | case9 letter tail _ c hc found result hr _ ih =>
      injection h with h1 h2
      subst h1 h2
      exact .escape hc (ih hr)
  | case10 => simp at h
  | case11 => simp at h
  | case12 c tail hq hb hlow found result hr ih =>
      injection h with h1 h2
      subst h1 h2
      exact .plain hq hb (Nat.not_lt.mp hlow) (ih hr)

theorem literal_of_read {text rest : List Symbol} {literal : StringLiteral}
    (h : StringLiteral.read text = (literal, .ok rest)) : Literal text literal rest := by
  unfold StringLiteral.read at h
  split at h
  · rename_i pieces found hr
    injection h with h1 h2
    injection h2 with h2
    subst h1 h2
    exact .mk (pieces_of_readPieces hr)
  · injection h with _ h2
    exact absurd h2 (by simp)

/-! ## Numbers -/

theorem readDigits_sound {text rest : List Symbol} {digits : List Char}
    (h : readDigits text = (digits, rest)) :
    text = chars digits ++ rest ∧ (∀ c ∈ digits, c.isDigit = true)
      ∧ NotAhead (·.isDigit = true) rest := by
  fun_induction readDigits text generalizing digits rest with
  | case1 c tail hc found behind hr ih =>
      injection h with h1 h2
      subst h1 h2
      obtain ⟨h1, h2, h3⟩ := ih hr
      refine ⟨by rw [h1]; rfl, ?_, h3⟩
      intro d hd
      rcases List.mem_cons.mp hd with hd | hd
      · exact hd ▸ hc
      · exact h2 d hd
  | case2 c tail hc =>
      injection h with h1 h2
      subst h1 h2
      exact ⟨rfl, by simp, hc⟩
  | case3 text hne =>
      injection h with h1 h2
      subst h1 h2
      exact ⟨rfl, by simp, notAhead_of fun c rest heq => absurd heq (hne c rest)⟩

theorem digits_of_readSomeDigits {text rest : List Symbol} {digits : List Char}
    (h : readSomeDigits text = .ok (digits, rest)) : Digits text digits rest := by
  unfold readSomeDigits at h
  split at h
  · exact absurd h (by simp)
  · rename_i hne
    injection h with h
    obtain ⟨h1, h2, h3⟩ := readDigits_sound h
    rw [h1]
    refine .mk ?_ h2 h3
    rintro rfl
    exact hne rest h

theorem whole_of_readWhole {text rest : List Symbol} {digits : List Char}
    (h : readWhole text = .ok (digits, rest)) : Digits text digits rest ∧ NoLeadingZero digits := by
  unfold readWhole at h
  split at h
  · exact absurd h (by simp)
  · rename_i hne
    have hd := digits_of_readSomeDigits h
    refine ⟨hd, ?_⟩
    cases hd with
    | mk hnil _ _ =>
        obtain ⟨c, digits, rfl⟩ := List.exists_cons_of_ne_nil hnil
        by_cases hc : c = '0'
        · -- a zero with digits behind it was refused
          subst hc
          cases digits with
          | nil => exact .inl rfl
          | cons d digits => exact absurd h (hne d digits rest)
        · exact .inr (by simpa using hc)

theorem fraction_of_readFraction {text rest : List Symbol} {fraction : Option (List Char)}
    (h : readFraction text = .ok (fraction, rest)) : Fraction text fraction rest := by
  unfold readFraction at h
  split at h
  · split at h
    · rename_i hd
      injection h with h
      injection h with h1 h2
      subst h1 h2
      exact .present (digits_of_readSomeDigits hd)
    · exact absurd h (by simp)
  · rename_i hne
    injection h with h
    injection h with h1 h2
    subst h1 h2
    refine .absent (notAhead_of fun c rest heq hc => ?_)
    rw [hc] at heq
    exact hne rest heq

theorem sign_readSign (text : List Symbol) : Sign text (readSign text).1 (readSign text).2 := by
  unfold readSign
  split
  · exact .minus
  · exact .plus
  · rename_i hminus hplus
    refine .absent (notAhead_of fun c rest heq hc => ?_)
    rcases hc with rfl | rfl
    · exact hminus rest heq
    · exact hplus rest heq

theorem exponent_of_readExponent {text rest : List Symbol}
    {exponent : Option (Bool × List Char)} (h : readExponent text = .ok (exponent, rest)) :
    Exponent text exponent rest := by
  unfold readExponent at h
  split at h
  · split at h
    · rename_i hc
      dsimp only at h
      split at h
      · rename_i hd
        injection h with h
        injection h with h1 h2
        subst h1 h2
        exact .present hc (sign_readSign _) (digits_of_readSomeDigits hd)
      · exact absurd h (by simp)
    · rename_i hc
      injection h with h
      injection h with h1 h2
      subst h1 h2
      exact .absent hc
  · rename_i hne
    injection h with h
    injection h with h1 h2
    subst h1 h2
    exact .absent (notAhead_of fun c rest heq => absurd heq (hne c rest))

theorem magnitude_of_readMagnitude {negative : Bool} {text rest : List Symbol}
    {numeral : Numeral} (h : readMagnitude negative text = .ok (numeral, rest)) :
    Magnitude negative text numeral rest := by
  unfold readMagnitude at h
  obtain ⟨⟨whole, t1⟩, hw, h⟩ := bind_eq_ok.mp h
  obtain ⟨⟨fraction, t2⟩, hf, h⟩ := bind_eq_ok.mp h
  obtain ⟨⟨exponent, t3⟩, he, h⟩ := bind_eq_ok.mp h
  injection h with h
  injection h with h1 h2
  subst h1 h2
  obtain ⟨hd, hz⟩ := whole_of_readWhole hw
  exact .mk hd hz (fraction_of_readFraction hf) (exponent_of_readExponent he)

theorem signed_of_readNumeral {text rest : List Symbol} {numeral : Numeral}
    (h : readNumeral text = .ok (numeral, rest)) : Signed text numeral rest := by
  unfold readNumeral at h
  split at h
  · exact .negative (magnitude_of_readMagnitude h)
  · exact .positive (magnitude_of_readMagnitude h)

theorem eq_of_readWord {word : List Char} {text rest : List Symbol}
    (h : readWord word text = .ok rest) : text = chars word ++ rest := by
  fun_induction readWord word text with
  | case1 text =>
      injection h
  | case2 => exact absurd h (by simp)
  | case3 c word text ih =>
      rw [ih h]
      rfl
  | case4 => exact absurd h (by simp)

/-! ## Values -/

/-- A word that was read is the word that was asked for. -/
theorem of_ofWord {value written : Written} {result : Except Fault (List Symbol)}
    {rest : List Symbol} (h : ofWord value result = (written, .ok rest)) :
    written = value ∧ result = .ok rest := by
  cases result with
  | error fault =>
      injection h with _ h
      exact absurd h (by simp)
  | ok behind =>
      injection h with h1 h2
      exact ⟨h1.symm, h2⟩

theorem of_ofNumeral {written : Written} {result : Except Fault (Numeral × List Symbol)}
    {rest : List Symbol} (h : ofNumeral result = (written, .ok rest)) :
    ∃ numeral, written = .number numeral ∧ result = .ok (numeral, rest) := by
  cases result with
  | error fault =>
      injection h with _ h
      exact absurd h (by simp)
  | ok found =>
      obtain ⟨numeral, behind⟩ := found
      injection h with h1 h2
      injection h2 with h2
      exact ⟨numeral, h1.symm, by rw [h2]⟩

theorem Blanks.trans {text middle rest : List Symbol} (h : Blanks text middle)
    (h' : Blanks middle rest) : Blanks text rest := by
  induction h with
  | done => exact h'
  | step hb _ ih => exact .step hb (ih h')

theorem Items.after {text t1 rest : List Symbol} {items : List Written} (hb : Blanks text t1)
    (h : Items t1 items rest) : Items text items rest := by
  cases h with
  | last hb' hv hc => exact .last (hb.trans hb') hv hc
  | more hb' hv hc hi => exact .more (hb.trans hb') hv hc hi

theorem Members.after {text t1 rest : List Symbol} {members : List (StringLiteral × Written)}
    (hb : Blanks text t1) (h : Members t1 members rest) : Members text members rest := by
  cases h with
  | last hq hl hc hb' hv he => exact .last (hb.trans hq) hl hc hb' hv he
  | more hq hl hc hb' hv he hm => exact .more (hb.trans hq) hl hc hb' hv he hm

mutual

/-- A value that was read stands in the text, behind white space. -/
theorem value_of_readValue {text rest : List Symbol} {written : Written} :
    ∀ {steps : Nat}, readValue steps text = (written, .ok rest) →
      ∃ front, Blanks text front ∧ Value front written rest
  | 0, h => by
      injection h with _ h
      exact absurd h (by simp)
  | steps + 1, h => by
      refine ⟨skipBlanks text, blanks_skipBlanks text, ?_⟩
      rw [readValue] at h
      split at h
      · injection h with _ h
        exact absurd h (by simp)
      · injection h with _ h
        exact absurd h (by simp)
      -- the first character behind the white space says what kind of value it is
      rename_i c inner hskip
      rw [hskip]
      split at h
      · rename_i hc
        injection h with h1 h2
        rw [← h1, hc]
        exact .string (literal_of_read (Prod.ext rfl h2))
      split at h
      · rename_i hc
        rw [hc]
        split at h
        · injection h with _ h
          exact absurd h (by simp)
        · rename_i hclose
          injection h with h1 h2
          injection h2 with h2
          rw [← h1, ← h2]
          exact .noItems (blanks_of_skipBlanks hclose)
        · -- the reader skipped white space that belongs to the first item
          generalize hr : readItems steps (skipBlanks inner) = reading at h
          obtain ⟨items, fault, result⟩ := reading
          injection h with h1 h2
          obtain ⟨hf, hi⟩ := items_of_readItems (h2 ▸ hr)
          rw [← h1, hf]
          exact .array (hi.after (blanks_skipBlanks inner))
      split at h
      · rename_i hc
        rw [hc]
        split at h
        · rename_i hclose
          injection h with h1 h2
          injection h2 with h2
          rw [← h1, ← h2]
          exact .noMembers (blanks_of_skipBlanks hclose)
        · generalize hr : readMembers steps (skipBlanks inner) = reading at h
          obtain ⟨members, fault, result⟩ := reading
          injection h with h1 h2
          obtain ⟨hf, hm⟩ := members_of_readMembers (h2 ▸ hr)
          rw [← h1, hf]
          exact .object (hm.after (blanks_skipBlanks inner))
      split at h
      · rename_i hc
        obtain ⟨rfl, hw⟩ := of_ofWord h
        rw [hc, eq_of_readWord hw]
        exact .null
      split at h
      · rename_i hc
        obtain ⟨rfl, hw⟩ := of_ofWord h
        rw [hc, eq_of_readWord hw]
        exact .yes
      split at h
      · rename_i hc
        obtain ⟨rfl, hw⟩ := of_ofWord h
        rw [hc, eq_of_readWord hw]
        exact .no
      split at h
      · obtain ⟨numeral, rfl, hn⟩ := of_ofNumeral h
        exact .number (signed_of_readNumeral hn)
      · injection h with _ h
        exact absurd h (by simp)

theorem items_of_readItems {text rest : List Symbol} {items : List Written}
    {fault : Option Fault} : ∀ {steps : Nat}, readItems steps text = (items, fault, .ok rest) →
      fault = none ∧ Items text items rest
  | 0, h => by
      injection h with _ h
      injection h with _ h
      exact absurd h (by simp)
  | steps + 1, h => by
      rw [readItems] at h
      split at h
      · injection h with _ h
        injection h with _ h
        exact absurd h (by simp)
      · rename_i item t1 hv
        obtain ⟨front, hb, hv⟩ := value_of_readValue hv
        split at h
        · rename_i hc
          injection h with h1 h
          injection h with h2 h3
          obtain ⟨hf, hi⟩ := items_of_readItems (Prod.ext rfl (Prod.ext rfl h3))
          rw [← h1]
          exact ⟨h2.symm.trans hf, .more hb hv (blanks_of_skipBlanks hc) hi⟩
        · rename_i hc
          injection h with h1 h
          injection h with h2 h3
          injection h3 with h3
          rw [← h1, ← h3]
          exact ⟨h2.symm, .last hb hv (blanks_of_skipBlanks hc)⟩
        · injection h with _ h
          injection h with _ h
          exact absurd h (by simp)

theorem members_of_readMembers {text rest : List Symbol}
    {members : List (StringLiteral × Written)} {fault : Option Fault} :
    ∀ {steps : Nat}, readMembers steps text = (members, fault, .ok rest) →
      fault = none ∧ Members text members rest
  | 0, h => by
      injection h with _ h
      injection h with _ h
      exact absurd h (by simp)
  | steps + 1, h => by
      rw [readMembers] at h
      split at h
      · rename_i t1 hq
        split at h
        · injection h with _ h
          injection h with _ h
          exact absurd h (by simp)
        · rename_i name t2 hl
          have hl := literal_of_read hl
          split at h
          · rename_i t3 hc
            split at h
            · injection h with _ h
              injection h with _ h
              exact absurd h (by simp)
            · rename_i value t5 hv
              obtain ⟨t4, hb, hv⟩ := value_of_readValue hv
              split at h
              · rename_i t6 he
                injection h with h1 h
                injection h with h2 h3
                obtain ⟨hf, hm⟩ := members_of_readMembers (Prod.ext rfl (Prod.ext rfl h3))
                rw [← h1]
                exact ⟨h2.symm.trans hf, .more (blanks_of_skipBlanks hq) hl
                  (blanks_of_skipBlanks hc) hb hv (blanks_of_skipBlanks he) hm⟩
              · rename_i t6 he
                injection h with h1 h
                injection h with h2 h3
                injection h3 with h3
                rw [← h1, ← h3]
                exact ⟨h2.symm, .last (blanks_of_skipBlanks hq) hl (blanks_of_skipBlanks hc) hb hv
                  (blanks_of_skipBlanks he)⟩
              · injection h with _ h
                injection h with _ h
                exact absurd h (by simp)
          · injection h with _ h
            injection h with _ h
            exact absurd h (by simp)
      · injection h with _ h
        injection h with _ h
        exact absurd h (by simp)

end

/-- **A text has the tree that the reader gives, and a faultless text is one of the grammar.** -/
theorem ofSymbols_eq_iff {text : List Symbol} {written : Written} :
    ofSymbols text = (written, none) ↔ Spells text written := by
  refine ⟨fun h => ?_, ofSymbols_eq⟩
  unfold ofSymbols at h
  split at h
  · injection h with _ h
    exact absurd h (by simp)
  · rename_i value rest hv
    injection h with h1 h2
    obtain ⟨front, hb, hv⟩ := value_of_readValue hv
    split at h2
    · rename_i he
      rw [← h1]
      exact .mk hb hv (blanks_of_skipBlanks (List.isEmpty_iff.mp he))
    · exact absurd h2 (by simp)

end ChainGenesis.Grammar
