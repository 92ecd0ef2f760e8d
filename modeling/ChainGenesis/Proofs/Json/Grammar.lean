import ChainGenesis.Json.Written

/-!
# The grammar of a JSON text

What a JSON text is, said without a reader: which texts a tree can be written as, with
white space wherever the grammar lets it stand. The relations here have no bound on steps
and no faults, and they fix no spelling: `Spells text written` holds of every text that
writes the tree `written`.

Every relation carries the text that follows, so `Value text written rest` says that the
tree stands at the front of `text` with `rest` behind it. Digits end only where no further
digit follows; this is what makes the tree of a text unique although a number has no
closing mark of its own.
-/

namespace ChainGenesis.Grammar

open Written (isBlank)

/-- The symbols of a list of characters. -/
abbrev chars (cs : List Char) : List Symbol := cs.map Symbol.char

theorem chars_append (cs ds : List Char) : chars (cs ++ ds) = chars cs ++ chars ds :=
  List.map_append

/-! ## White space -/

/-- White space at the front of a text leaves `rest`. -/
inductive Blanks : List Symbol → List Symbol → Prop where
  | done {rest : List Symbol} : Blanks rest rest
  | step {symbol : Symbol} {text rest : List Symbol} :
      isBlank symbol = true → Blanks text rest → Blanks (symbol :: text) rest

/-! ## Strings -/

/-- The pieces of a string at the front of a text, up to and with the closing quote. -/
inductive Pieces : List Symbol → List Piece → List Symbol → Prop where
  | close {rest : List Symbol} : Pieces (.char '"' :: rest) [] rest
  | stray {byte : UInt8} {text rest : List Symbol} {pieces : List Piece} :
      Pieces text pieces rest → Pieces (.stray byte :: text) (.stray byte :: pieces) rest
  | plain {c : Char} {text rest : List Symbol} {pieces : List Piece} :
      c ≠ '"' → c ≠ '\\' → 0x20 ≤ c.toNat → Pieces text pieces rest →
      Pieces (.char c :: text) (.char c :: pieces) rest
  | escape {letter c : Char} {text rest : List Symbol} {pieces : List Piece} :
      StringLiteral.escaped? letter = some c → Pieces text pieces rest →
      Pieces (.char '\\' :: .char letter :: text) (.char c :: pieces) rest
  | unit {d1 d2 d3 d4 : Symbol} {n : Nat} {text rest : List Symbol} {pieces : List Piece} :
      StringLiteral.unit? [d1, d2, d3, d4] = some n → Pieces text pieces rest →
      Pieces (.char '\\' :: .char 'u' :: d1 :: d2 :: d3 :: d4 :: text) (.unit n :: pieces) rest

/-- A string at the front of a text, behind its opening quote. -/
inductive Literal : List Symbol → StringLiteral → List Symbol → Prop where
  | mk {text rest : List Symbol} {pieces : List Piece} :
      Pieces text pieces rest → Literal text ⟨pieces, none⟩ rest

/-! ## Numbers -/

/-- A text that does not begin with a character of a kind. -/
def NotAhead (kind : Char → Prop) : List Symbol → Prop
  | .char c :: _ => ¬kind c
  | _ => True

theorem notAhead_of {kind : Char → Prop} {text : List Symbol}
    (h : ∀ c rest, text = .char c :: rest → ¬kind c) : NotAhead kind text := by
  cases text with
  | nil => trivial
  | cons symbol rest =>
      cases symbol with
      | stray byte => trivial
      | char c => exact h c rest rfl

/-- All the digits at the front of a text, of which there is one. -/
inductive Digits : List Symbol → List Char → List Symbol → Prop where
  | mk {digits : List Char} {rest : List Symbol} :
      digits ≠ [] → (∀ c ∈ digits, c.isDigit = true) → NotAhead (·.isDigit = true) rest →
      Digits (chars digits ++ rest) digits rest

/-- Digits without a leading zero, zero itself apart. -/
def NoLeadingZero (digits : List Char) : Prop := digits = ['0'] ∨ digits.head? ≠ some '0'

/-- A point and digits, or neither. -/
inductive Fraction : List Symbol → Option (List Char) → List Symbol → Prop where
  | absent {rest : List Symbol} : NotAhead (· = '.') rest → Fraction rest none rest
  | present {text rest : List Symbol} {digits : List Char} :
      Digits text digits rest → Fraction (.char '.' :: text) (some digits) rest

/-- The sign of an exponent, which may be left out. -/
inductive Sign : List Symbol → Bool → List Symbol → Prop where
  | minus {rest : List Symbol} : Sign (.char '-' :: rest) true rest
  | plus {rest : List Symbol} : Sign (.char '+' :: rest) false rest
  | absent {rest : List Symbol} :
      NotAhead (fun c => c = '-' ∨ c = '+') rest → Sign rest false rest

/-- The letter, the sign and the digits of an exponent, or none of them. -/
inductive Exponent : List Symbol → Option (Bool × List Char) → List Symbol → Prop where
  | absent {rest : List Symbol} :
      NotAhead (fun c => c = 'e' ∨ c = 'E') rest → Exponent rest none rest
  | present {letter : Char} {text behind rest : List Symbol} {negative : Bool}
      {digits : List Char} :
      letter = 'e' ∨ letter = 'E' → Sign text negative behind → Digits behind digits rest →
      Exponent (.char letter :: text) (some (negative, digits)) rest

/-- A number at the front of a text, behind its sign. -/
inductive Magnitude (negative : Bool) : List Symbol → Numeral → List Symbol → Prop where
  | mk {text t1 t2 rest : List Symbol} {whole : List Char} {fraction : Option (List Char)}
      {exponent : Option (Bool × List Char)} :
      Digits text whole t1 → NoLeadingZero whole → Fraction t1 fraction t2 →
      Exponent t2 exponent rest → Magnitude negative text ⟨negative, whole, fraction, exponent⟩ rest

/-- A number at the front of a text. -/
inductive Signed : List Symbol → Numeral → List Symbol → Prop where
  | negative {text rest : List Symbol} {numeral : Numeral} :
      Magnitude true text numeral rest → Signed (.char '-' :: text) numeral rest
  | positive {text rest : List Symbol} {numeral : Numeral} :
      Magnitude false text numeral rest → Signed text numeral rest

/-! ## Values -/

mutual

/-- A value at the front of a text, with no white space before it. -/
inductive Value : List Symbol → Written → List Symbol → Prop where
  | null {rest : List Symbol} : Value (chars ['n', 'u', 'l', 'l'] ++ rest) .null rest
  | yes {rest : List Symbol} : Value (chars ['t', 'r', 'u', 'e'] ++ rest) (.bool true) rest
  | no {rest : List Symbol} :
      Value (chars ['f', 'a', 'l', 's', 'e'] ++ rest) (.bool false) rest
  | number {text rest : List Symbol} {numeral : Numeral} :
      Signed text numeral rest → Value text (.number numeral) rest
  | string {text rest : List Symbol} {literal : StringLiteral} :
      Literal text literal rest → Value (.char '"' :: text) (.string literal) rest
  | noItems {text rest : List Symbol} :
      Blanks text (.char ']' :: rest) → Value (.char '[' :: text) (.array [] none) rest
  | array {text rest : List Symbol} {items : List Written} :
      Items text items rest → Value (.char '[' :: text) (.array items none) rest
  | noMembers {text rest : List Symbol} :
      Blanks text (.char '\x7d' :: rest) → Value (.char '\x7b' :: text) (.object [] none) rest
  | object {text rest : List Symbol} {members : List (StringLiteral × Written)} :
      Members text members rest → Value (.char '\x7b' :: text) (.object members none) rest

/-- Items at the front of a text, up to and with the closing bracket. -/
inductive Items : List Symbol → List Written → List Symbol → Prop where
  | last {text t1 t2 rest : List Symbol} {item : Written} :
      Blanks text t1 → Value t1 item t2 → Blanks t2 (.char ']' :: rest) → Items text [item] rest
  | more {text t1 t2 t3 rest : List Symbol} {item : Written} {items : List Written} :
      Blanks text t1 → Value t1 item t2 → Blanks t2 (.char ',' :: t3) → Items t3 items rest →
      Items text (item :: items) rest

/-- Members at the front of a text, up to and with the closing brace. -/
inductive Members : List Symbol → List (StringLiteral × Written) → List Symbol → Prop where
  | last {text t1 t2 t3 t4 t5 rest : List Symbol} {name : StringLiteral} {value : Written} :
      Blanks text (.char '"' :: t1) → Literal t1 name t2 → Blanks t2 (.char ':' :: t3) →
      Blanks t3 t4 → Value t4 value t5 → Blanks t5 (.char '\x7d' :: rest) →
      Members text [(name, value)] rest
  | more {text t1 t2 t3 t4 t5 t6 rest : List Symbol} {name : StringLiteral} {value : Written}
      {members : List (StringLiteral × Written)} :
      Blanks text (.char '"' :: t1) → Literal t1 name t2 → Blanks t2 (.char ':' :: t3) →
      Blanks t3 t4 → Value t4 value t5 → Blanks t5 (.char ',' :: t6) → Members t6 members rest →
      Members text ((name, value) :: members) rest

end

/-- The whole of a text writes a tree. -/
inductive Spells : List Symbol → Written → Prop where
  | mk {text t1 t2 : List Symbol} {written : Written} :
      Blanks text t1 → Value t1 written t2 → Blanks t2 [] → Spells text written

end ChainGenesis.Grammar
