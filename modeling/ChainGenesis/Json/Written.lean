import ChainGenesis.Json.Numeral
import ChainGenesis.Json.StringLiteral

/-!
# The written tree

What a JSON text says depends on who reads it: one reader wants a document and gives every
number a value, another wants three named fields and only passes over the rest. What they
share is the grammar. `Written.ofSymbols` reads it once, into a tree of what is written,
with numerals and strings as they stand, members in their order and repeated names kept.

A text that breaks off or goes wrong still has such a tree, up to the first thing that is
wrong with it, and that thing is in the tree, at the end. A reader walks the tree in the
order of the text, so it meets a fault of its own (a wrong type, a number out of range)
before or after the fault of the text as a reader of the text would.

The reading functions carry a bound on the number of steps; each step consumes a symbol or
is followed by one that does, so twice the length of the text is enough.
-/

namespace ChainGenesis

/-- A JSON value as it is written. -/
inductive Written where
  | null
  | bool (value : Bool)
  | number (numeral : Numeral)
  | string (literal : StringLiteral)
  /-- Items, and what keeps the array from being closed. -/
  | array (items : List Written) (fault : Option Fault)
  /-- Members, and what keeps the object from being closed. A member whose name cannot be
  read has what stands in the place of the name as its value. -/
  | object (members : List (StringLiteral × Written)) (fault : Option Fault)
  /-- A number that lacks digits. -/
  | brokenNumber (fault : Fault)
  /-- A word that begins as `null`, `true` or `false` does and is none of them. -/
  | brokenWord (fault : Fault)
  /-- No value begins here. -/
  | missing (fault : Fault)

namespace Written

/-! ## Words and numerals -/

/-- JSON white space: space, tab, line feed and carriage return. -/
def isBlank (symbol : Symbol) : Bool :=
  symbol = .char ' ' || symbol = .char '\n' || symbol = .char '\r' || symbol = .char '\t'

def skipBlanks (text : List Symbol) : List Symbol := text.dropWhile isBlank

/-- The fault of a text that should go on and does not go on rightly. -/
def faultAt (text : List Symbol) : Fault := if text.isEmpty then .truncated else .malformed

/-- Reads the given characters. -/
def readWord : List Char → List Symbol → Except Fault (List Symbol)
  | [], text => .ok text
  | _ :: _, [] => .error .truncated
  | c :: word, symbol :: text => if symbol = .char c then readWord word text else .error .malformed

/-- The digits at the front of a text, and the rest of it. -/
def readDigits : List Symbol → List Char × List Symbol
  | .char c :: rest =>
    if c.isDigit then
      let (digits, rest) := readDigits rest
      (c :: digits, rest)
    else ([], .char c :: rest)
  | text => ([], text)

/-- The digits at the front of a text, of which there must be one. -/
def readSomeDigits (text : List Symbol) : Except Fault (List Char × List Symbol) :=
  match readDigits text with
  | ([], rest) => .error (faultAt rest)
  | found => .ok found

/-- The digits before the point: a leading zero stands alone. -/
def readWhole (text : List Symbol) : Except Fault (List Char × List Symbol) :=
  match readSomeDigits text with
  | .ok ('0' :: _ :: _, _) => .error .malformed
  | result => result

/-- The point and the digits behind it, if there is a point. -/
def readFraction : List Symbol → Except Fault (Option (List Char) × List Symbol)
  | .char '.' :: rest =>
    match readSomeDigits rest with
    | .ok (digits, rest) => .ok (some digits, rest)
    | .error fault => .error fault
  | text => .ok (none, text)

/-- The sign of an exponent, if there is one: whether it is a minus. -/
def readSign : List Symbol → Bool × List Symbol
  | .char '-' :: rest => (true, rest)
  | .char '+' :: rest => (false, rest)
  | text => (false, text)

/-- The exponent, if there is one. -/
def readExponent (text : List Symbol) : Except Fault (Option (Bool × List Char) × List Symbol) :=
  match text with
  | .char c :: rest =>
    if c = 'e' ∨ c = 'E' then
      let (negative, rest) := readSign rest
      match readSomeDigits rest with
      | .ok (digits, rest) => .ok (some (negative, digits), rest)
      | .error fault => .error fault
    else .ok (none, text)
  | _ => .ok (none, text)

/-- Reads a numeral behind its sign. -/
def readMagnitude (negative : Bool) (text : List Symbol) :
    Except Fault (Numeral × List Symbol) := do
  let (whole, text) ← readWhole text
  let (fraction, text) ← readFraction text
  let (exponent, text) ← readExponent text
  return (⟨negative, whole, fraction, exponent⟩, text)

/-- Reads a numeral. -/
def readNumeral : List Symbol → Except Fault (Numeral × List Symbol)
  | .char '-' :: rest => readMagnitude true rest
  | text => readMagnitude false text

/-! ## Values -/

/-- A value that was read, and the text behind it or the fault that stopped the reading. -/
abbrev Reading (α : Type) := α × Except Fault (List Symbol)

def ofNumeral : Except Fault (Numeral × List Symbol) → Reading Written
  | .ok (numeral, rest) => (.number numeral, .ok rest)
  | .error fault => (.brokenNumber fault, .error fault)

def ofWord (value : Written) : Except Fault (List Symbol) → Reading Written
  | .ok rest => (value, .ok rest)
  | .error fault => (.brokenWord fault, .error fault)

/-- A name that is not there. -/
def noName (fault : Fault) : StringLiteral := ⟨[], some fault⟩

mutual

/-- Reads the value at the front of a text. -/
def readValue : Nat → List Symbol → Reading Written
  | 0, _ => (.missing .malformed, .error .malformed)
  | steps + 1, text =>
    match skipBlanks text with
    | [] => (.missing .truncated, .error .truncated)
    | .stray _ :: _ => (.missing .malformed, .error .malformed)
    | .char c :: rest =>
      if c = '"' then
        let (literal, result) := StringLiteral.read rest
        (.string literal, result)
      else if c = '[' then
        match skipBlanks rest with
        | [] => (.array [] (some .truncated), .error .truncated)
        | .char ']' :: rest => (.array [] none, .ok rest)
        | text =>
          let (items, fault, result) := readItems steps text
          (.array items fault, result)
      else if c = '\x7b' then
        match skipBlanks rest with
        | .char '\x7d' :: rest => (.object [] none, .ok rest)
        | text =>
          let (members, fault, result) := readMembers steps text
          (.object members fault, result)
      else if c = 'n' then ofWord .null (readWord ['u', 'l', 'l'] rest)
      else if c = 't' then ofWord (.bool true) (readWord ['r', 'u', 'e'] rest)
      else if c = 'f' then ofWord (.bool false) (readWord ['a', 'l', 's', 'e'] rest)
      else if c = '-' ∨ c.isDigit then ofNumeral (readNumeral (.char c :: rest))
      else (.missing .malformed, .error .malformed)

/-- Reads an item and the items behind it, up to the closing bracket. -/
def readItems : Nat → List Symbol → List Written × Option Fault × Except Fault (List Symbol)
  | 0, _ => ([], some .malformed, .error .malformed)
  | steps + 1, text =>
    match readValue steps text with
    | (item, .error fault) => ([item], some fault, .error fault)
    | (item, .ok rest) =>
      match skipBlanks rest with
      | .char ',' :: rest =>
        let (items, fault, result) := readItems steps rest
        (item :: items, fault, result)
      | .char ']' :: rest => ([item], none, .ok rest)
      | rest => ([item], some (faultAt rest), .error (faultAt rest))

/-- Reads a member and the members behind it, up to the closing brace. -/
def readMembers : Nat → List Symbol →
    List (StringLiteral × Written) × Option Fault × Except Fault (List Symbol)
  | 0, _ => ([], some .malformed, .error .malformed)
  | steps + 1, text =>
    match skipBlanks text with
    | .char '"' :: rest =>
      match StringLiteral.read rest with
      | (name, .error fault) => ([(name, .missing fault)], some fault, .error fault)
      | (name, .ok rest) =>
        match skipBlanks rest with
        | .char ':' :: rest =>
          match readValue steps rest with
          | (value, .error fault) => ([(name, value)], some fault, .error fault)
          | (value, .ok rest) =>
            match skipBlanks rest with
            | .char ',' :: rest =>
              let (members, fault, result) := readMembers steps rest
              ((name, value) :: members, fault, result)
            | .char '\x7d' :: rest => ([(name, value)], none, .ok rest)
            | rest => ([(name, value)], some (faultAt rest), .error (faultAt rest))
        | rest => ([(name, .missing (faultAt rest))], some (faultAt rest), .error (faultAt rest))
    | rest =>
      let fault := faultAt rest
      ([(noName fault, .missing fault)], some fault, .error fault)

end

/-- The tree of a whole text, and what is wrong with the text: a fault within the value, or
more text behind it. -/
def ofSymbols (text : List Symbol) : Written × Option Fault :=
  match readValue (2 * text.length + 2) text with
  | (value, .error fault) => (value, some fault)
  | (value, .ok rest) => (value, if (skipBlanks rest).isEmpty then none else some .malformed)

/-- Reads a whole text with a reader of trees. -/
def decode {α : Type} (read : Written → Except Fault α) (text : List Symbol) : Except Fault α :=
  let (value, fault) := ofSymbols text
  match read value, fault with
  | .error fault, _ => .error fault
  | .ok _, some fault => .error fault
  | .ok result, none => .ok result

/-! ## Passing over a value

A value that nobody asked for must still be JSON, but its numbers need not be in range, its
strings need not be text, and it may be nested as deeply as it likes. A number that lacks
digits is malformed here even at the end of the text. -/

mutual

/-- Passes over a value. -/
def skip : Written → Except Fault Unit
  | .null | .bool _ | .number _ => .ok ()
  | .string literal => literal.skip
  | .array items fault => skipItems fault items
  | .object members fault => skipMembers fault members
  | .brokenNumber _ => .error .malformed
  | .brokenWord fault | .missing fault => .error fault

/-- Passes over items and the end of their array. -/
def skipItems (fault : Option Fault) : List Written → Except Fault Unit
  | [] => fault.elim (.ok ()) .error
  | item :: rest =>
    match skip item with
    | .ok () => skipItems fault rest
    | .error fault => .error fault

/-- Passes over members and the end of their object. -/
def skipMembers (fault : Option Fault) : List (StringLiteral × Written) → Except Fault Unit
  | [] => fault.elim (.ok ()) .error
  | (name, value) :: rest =>
    match name.skip with
    | .error fault => .error fault
    | .ok () =>
      match skip value with
      | .ok () => skipMembers fault rest
      | .error fault => .error fault

end

end Written

end ChainGenesis
