import ChainGenesis.Json.Layout
import ChainGenesis.Proofs.Decimal
import ChainGenesis.Proofs.Json.Grammar
import ChainGenesis.Proofs.Json.Shape

/-!
# How a writer spells a document

Every writer of this library spells strings and integers in one way. `Document.written` is
the tree that comes of it, whatever the layout: the white space is not in it. Reading that
tree gives the document back (`ofWritten_written`), so all that is left to show of a writer
is that its text has this tree.
-/

namespace ChainGenesis

open Grammar

/-! ## Strings -/

/-- The piece a character of a text is written as: controls without a letter of their own are
written by their number. -/
def Piece.ofChar (c : Char) : Piece :=
  if c.toNat < 0x20 ∧ c ∉ ['\x08', '\x0c', '\n', '\r', '\t'] then .unit c.toNat else .char c

/-- The literal of a text. -/
def StringLiteral.ofText (text : String) : StringLiteral := ⟨text.toList.map Piece.ofChar, none⟩

namespace Grammar

/-- The digits of a control are the last two of four. -/
theorem unit?_control {n : Nat} (h : n < 0x20) :
    ∃ d1 d2 d3 d4 : Char, StringLiteral.unit? (chars [d1, d2, d3, d4]) = some n
      ∧ (if n < 0x10 then ['0', '0', '0'] ++ Nat.toDigits 16 n
          else ['0', '0'] ++ Nat.toDigits 16 n) = [d1, d2, d3, d4] := by
  have key : ∀ n < 0x20,
      let digits := if n < 0x10 then ['0', '0', '0'] ++ Nat.toDigits 16 n
        else ['0', '0'] ++ Nat.toDigits 16 n
      digits.length = 4 ∧ StringLiteral.unit? (chars digits) = some n := by decide
  obtain ⟨hlen, hunit⟩ := key n h
  match hd : (if n < 0x10 then ['0', '0', '0'] ++ Nat.toDigits 16 n
      else ['0', '0'] ++ Nat.toDigits 16 n), hlen, hunit with
  | [d1, d2, d3, d4], _, hunit => exact ⟨d1, d2, d3, d4, hunit, rfl⟩

/-- A control without a letter is read as the unit it was written as. -/
theorem pieces_control {c : Char} {text rest : List Symbol} {pieces : List Piece}
    (hc : c.toNat < 0x20) (h : Pieces text pieces rest) :
    Pieces (chars (['\\', 'u'] ++ if c.toNat < 0x10 then ['0', '0', '0'] ++ Nat.toDigits 16 c.toNat
      else ['0', '0'] ++ Nat.toDigits 16 c.toNat) ++ text) (.unit c.toNat :: pieces) rest := by
  obtain ⟨d1, d2, d3, d4, hunit, hd⟩ := unit?_control hc
  rw [hd]
  exact .unit hunit h

/-- Each character is read as the piece it was written as. -/
theorem pieces_jsonChar (c : Char) {text rest : List Symbol} {pieces : List Piece}
    (h : Pieces text pieces rest) :
    Pieces (chars (Text.jsonChar c) ++ text) (Piece.ofChar c :: pieces) rest := by
  -- the seven characters that have a letter, then controls by their number, then the rest
  have letter : ∀ {letter c : Char}, StringLiteral.escaped? letter = some c →
      Piece.ofChar c = .char c →
        Pieces (chars ['\\', letter] ++ text) (Piece.ofChar c :: pieces) rest := by
    intro letter c he hp
    rw [hp]
    exact .escape he h
  unfold Text.jsonChar
  split
  · rename_i hc
    subst hc
    exact @letter '"' _ (by decide) (by decide)
  split
  · rename_i hc
    subst hc
    exact @letter '\\' _ (by decide) (by decide)
  split
  · rename_i hc
    subst hc
    exact @letter 'b' _ (by decide) (by decide)
  split
  · rename_i hc
    subst hc
    exact @letter 'f' _ (by decide) (by decide)
  split
  · rename_i hc
    subst hc
    exact @letter 'n' _ (by decide) (by decide)
  split
  · rename_i hc
    subst hc
    exact @letter 'r' _ (by decide) (by decide)
  split
  · rename_i hc
    subst hc
    exact @letter 't' _ (by decide) (by decide)
  rename_i hquote hslash hb hf hn hr ht
  split
  · rename_i hlow
    have hp : Piece.ofChar c = .unit c.toNat := if_pos ⟨by omega, by simp [hb, hf, hn, hr, ht]⟩
    have := pieces_control (c := c) (by omega) h
    rw [if_pos hlow] at this
    rw [hp]
    exact this
  split
  · rename_i hlow hctl
    have hp : Piece.ofChar c = .unit c.toNat := if_pos ⟨hctl, by simp [hb, hf, hn, hr, ht]⟩
    have := pieces_control hctl h
    rw [if_neg hlow] at this
    rw [hp]
    exact this
  · rename_i hctl
    have hp : Piece.ofChar c = .char c := if_neg fun hcon => hctl hcon.1
    rw [hp]
    exact .plain hquote hslash (Nat.not_lt.mp hctl) h

theorem pieces_flatMap (cs : List Char) (rest : List Symbol) :
    Pieces (chars (cs.flatMap Text.jsonChar) ++ .char '"' :: rest) (cs.map Piece.ofChar) rest := by
  induction cs with
  | nil => exact .close
  | cons c cs ih =>
      have := pieces_jsonChar c ih
      rwa [← List.append_assoc, ← List.map_append] at this

/-- A text between its quotes is a string of the grammar. -/
theorem literal_json (text : String) (rest : List Symbol) :
    ∃ inner, chars (Text.json text) ++ rest = .char '"' :: inner
      ∧ Literal inner (.ofText text) rest := by
  refine ⟨chars (text.toList.flatMap Text.jsonChar) ++ .char '"' :: rest, ?_,
    .mk (pieces_flatMap text.toList rest)⟩
  simp [Text.json]

end Grammar

theorem join_ofChar (cs : List Char) :
    StringLiteral.join none (cs.map Piece.ofChar) = .ok (cs.map some) := by
  induction cs with
  | nil => rfl
  | cons c cs ih =>
      rw [List.map_cons, Piece.ofChar]
      split
      · rename_i hc
        -- a control is far below the surrogates, so its unit stands alone
        have h1 : StringLiteral.isLowSurrogate c.toNat = false := by
          simp only [StringLiteral.isLowSurrogate, Bool.and_eq_false_iff, decide_eq_false_iff_not]
          omega
        have h2 : StringLiteral.isHighSurrogate c.toNat = false := by
          simp only [StringLiteral.isHighSurrogate, Bool.and_eq_false_iff, decide_eq_false_iff_not]
          omega
        unfold StringLiteral.join
        rw [h1, h2, ih, Char.ofNat_toNat]
        rfl
      · unfold StringLiteral.join
        rw [ih]
        rfl

theorem mapM_id_map_some {α : Type} (xs : List α) : (xs.map some).mapM id = some xs := by
  induction xs with
  | nil => rfl
  | cons x xs ih => simp [List.mapM_cons, ih]

/-- The literal of a text has that text. -/
theorem StringLiteral.text_ofText (text : String) :
    (StringLiteral.ofText text).text = .ok text := by
  rw [StringLiteral.text, StringLiteral.ofText, join_ofChar]
  dsimp only
  rw [mapM_id_map_some]
  dsimp only
  rw [String.ofList_toList]

/-! ## Integers -/

namespace Grammar

/-- What can follow a number, so that the number ends there. -/
def Follows (rest : List Symbol) : Prop :=
  NotAhead (fun c => c.isDigit = true ∨ c = '.' ∨ c = 'e' ∨ c = 'E') rest

theorem NotAhead.mono {p q : Char → Prop} {rest : List Symbol} (h : NotAhead p rest)
    (hpq : ∀ c, q c → p c) : NotAhead q rest := by
  cases rest with
  | nil => trivial
  | cons symbol rest =>
      cases symbol with
      | stray byte => trivial
      | char c => exact fun hq => h (hpq c hq)

theorem magnitude_toDigits (negative : Bool) (n : Nat) {rest : List Symbol} (h : Follows rest) :
    Magnitude negative (chars (Nat.toDigits 10 n) ++ rest)
      ⟨negative, Nat.toDigits 10 n, none, none⟩ rest := by
  refine .mk (.mk Nat.toDigits_ne_nil (fun c => isDigit_of_mem_toDigits)
    (NotAhead.mono h fun c hc => .inl hc)) ?_ (.absent (NotAhead.mono h fun c hc => .inr (.inl hc)))
    (.absent (NotAhead.mono h fun c hc => .inr (.inr hc)))
  by_cases hn : n = 0
  · subst hn
    exact .inl rfl
  · exact .inr (head?_toDigits hn)

/-- The text of an integer is a number of the grammar. -/
theorem signed_text (value : Int) {rest : List Symbol} (h : Follows rest) :
    Signed (chars (Number.integer value).text ++ rest) (.ofInt value) rest := by
  unfold Number.text Numeral.ofInt
  dsimp only
  by_cases hv : value < 0
  · rw [if_pos hv, decide_eq_true hv]
    exact .negative (magnitude_toDigits true value.natAbs h)
  · rw [if_neg hv, decide_eq_false hv]
    exact .positive (magnitude_toDigits false value.natAbs h)

end Grammar

/-- The numeral of an integer that is kept exact has that value. -/
theorem value_ofInt {value : Int} (h : Number.InRange value) :
    (Numeral.ofInt value).value = .ok (.integer value) := by
  have hmag : Numeral.natValue (Nat.toDigits 10 value.natAbs) = value.natAbs :=
    Nat.ofDigitChars_ten_toDigits
  have hint : (if decide (value < 0) = true then -(value.natAbs : Int) else value.natAbs)
      = value := by
    split
    · rename_i hneg
      have := of_decide_eq_true hneg
      omega
    · rename_i hneg
      rw [decide_eq_true_eq] at hneg
      omega
  unfold Numeral.value Numeral.ofInt
  dsimp only
  rw [hmag, hint, if_pos]
  refine ⟨rfl, h, ?_⟩
  rintro ⟨hneg, hzero⟩
  have := of_decide_eq_true hneg
  omega

/-! ## Documents -/

namespace Document

mutual

/-- The tree that an exact document is written as. A double, which no exact document holds,
has no numeral here. -/
def written : Document → Written
  | .null => .null
  | .bool value => .bool value
  | .number (.integer value) => .number (.ofInt value)
  | .number (.double _) => .missing .malformed
  | .string text => .string (.ofText text)
  | .array items => .array (writtenItems items) none
  | .object members => .object (writtenMembers members) none

def writtenItems : List Document → List Written
  | [] => []
  | item :: rest => written item :: writtenItems rest

def writtenMembers : List (String × Document) → List (StringLiteral × Written)
  | [] => []
  | (name, value) :: rest => (.ofText name, written value) :: writtenMembers rest

end

theorem writtenItems_eq (items : List Document) :
    writtenItems items = items.map written := by
  induction items with
  | nil => rfl
  | cons item rest ih => rw [writtenItems, ih, List.map_cons]

theorem writtenMembers_eq (members : List (String × Document)) :
    writtenMembers members
      = members.map fun member => (.ofText member.1, member.2.written) := by
  induction members with
  | nil => rfl
  | cons member rest ih => rw [writtenMembers, ih, List.map_cons]

mutual

/-- **The tree of a document gives the document back**, if there are levels enough for it. -/
theorem ofWritten_written : ∀ {doc : Document} {levels : Nat},
    doc.Exact → doc.Ordered → doc.nesting ≤ levels → ofWritten levels doc.written = .ok doc
  | .null, _, _, _, _ => by rw [written, ofWritten]
  | .bool _, _, _, _, _ => by rw [written, ofWritten]
  | .number (.integer value), _, he, _, _ => by
      rw [written, ofWritten, value_ofInt he]
      rfl
  | .number (.double _), _, he, _, _ => absurd he (by simp [Exact])
  | .string text, _, _, _, _ => by
      rw [written, ofWritten, StringLiteral.text_ofText]
      rfl
  | .array items, 0, _, _, hn => absurd hn (by simp [nesting])
  | .array items, levels + 1, he, ho, hn => by
      rw [written, ofWritten, itemsOfWritten_written he ho (Nat.le_of_succ_le_succ hn)]
      rfl
  | .object members, 0, _, _, hn => absurd hn (by simp [nesting])
  | .object members, levels + 1, he, ho, hn => by
      rw [written, ofWritten, membersOfWritten_written he ho.2 (Nat.le_of_succ_le_succ hn)]
      show Except.ok (Document.object (Named.ofList members)) = _
      rw [ho.1.ofList_eq]

theorem itemsOfWritten_written : ∀ {items : List Document} {levels : Nat},
    ExactItems items → OrderedItems items → nestingOfItems items ≤ levels →
      itemsOfWritten levels none (writtenItems items) = .ok items
  | [], _, _, _, _ => rfl
  | item :: rest, levels, he, ho, hn => by
      have hn := Nat.max_le.mp hn
      rw [writtenItems, itemsOfWritten, ofWritten_written he.1 ho.1 hn.1,
        itemsOfWritten_written he.2 ho.2 hn.2]
      rfl

theorem membersOfWritten_written : ∀ {members : List (String × Document)} {levels : Nat},
    ExactMembers members → OrderedMembers members → nestingOfMembers members ≤ levels →
      membersOfWritten levels none (writtenMembers members) = .ok members
  | [], _, _, _, _ => rfl
  | (name, value) :: rest, levels, he, ho, hn => by
      have hn := Nat.max_le.mp hn
      rw [writtenMembers, membersOfWritten, StringLiteral.text_ofText,
        ofWritten_written he.1 ho.1 hn.1, membersOfWritten_written he.2 ho.2 hn.2]
      rfl

end

end Document

end ChainGenesis
