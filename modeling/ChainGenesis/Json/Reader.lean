import ChainGenesis.Json.Written

/-!
# Reading a document

A document is the written tree with its numbers and strings given their values and its
members put in order. Three things can still be refused on the way: a number that is not
finite, a string that is no text, and nesting beyond `Document.maxDepth`. All three are
refused where they stand, so of two faults the first in the text is reported.
-/

namespace ChainGenesis.Document

/-- Arrays and objects may be nested this deep. -/
def maxDepth : Nat := 127

mutual

/-- The document of a written tree, with the levels of nesting that are left. -/
def ofWritten (depth : Nat) : Written → Except Fault Document
  | .null => .ok .null
  | .bool value => .ok (.bool value)
  | .number numeral => numeral.value.map .number
  | .string literal => literal.text.map .string
  | .array items fault =>
    match depth with
    | 0 => .error .malformed
    | depth + 1 => (itemsOfWritten depth fault items).map .array
  | .object members fault =>
    match depth with
    | 0 => .error .malformed
    | depth + 1 => (membersOfWritten depth fault members).map fun entries =>
        .object (Named.ofList entries)
  | .brokenNumber fault | .brokenWord fault | .missing fault => .error fault

/-- The documents of an array's items. -/
def itemsOfWritten (depth : Nat) (fault : Option Fault) :
    List Written → Except Fault (List Document)
  | [] => fault.elim (.ok []) .error
  | item :: rest => do
    let item ← ofWritten depth item
    let rest ← itemsOfWritten depth fault rest
    return item :: rest

/-- The documents of an object's members, in the order of the text. -/
def membersOfWritten (depth : Nat) (fault : Option Fault) :
    List (StringLiteral × Written) → Except Fault (List (String × Document))
  | [] => fault.elim (.ok []) .error
  | (name, value) :: rest => do
    let name ← name.text
    let value ← ofWritten depth value
    let rest ← membersOfWritten depth fault rest
    return (name, value) :: rest

end

/-- Reads a document from the symbols of a text. -/
def read (text : List Symbol) : Except Fault Document := Written.decode (ofWritten maxDepth) text

/-- Reads a document from a string. -/
def parse (text : String) : Except Fault Document := read (Symbol.ofString text)

end ChainGenesis.Document
