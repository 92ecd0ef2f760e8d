import ChainGenesis.Json.Document
import ChainGenesis.Number.Shortest

/-!
# Writing a document

Artifacts are written in one of two canonical layouts. The compact one has no white space;
the pretty one puts every member of an object on its own line, indented by the number of
objects around it, and leaves arrays inline. Members are written in ascending order of name,
in whatever order the document holds them, so documents that hold the same are written
alike. A canonical text ends in one line feed.

Reports use the standard two-space layout instead, in which the items of an array have
lines of their own too.
-/

namespace ChainGenesis

/-! ## Scalars -/

namespace Text

/-- How one character is written in a JSON string. -/
def jsonChar (c : Char) : List Char :=
  if c = '"' then ['\\', '"']
  else if c = '\\' then ['\\', '\\']
  else if c = '\x08' then ['\\', 'b']
  else if c = '\x0c' then ['\\', 'f']
  else if c = '\n' then ['\\', 'n']
  else if c = '\r' then ['\\', 'r']
  else if c = '\t' then ['\\', 't']
  else if c.toNat < 0x10 then ['\\', 'u', '0', '0', '0'] ++ Nat.toDigits 16 c.toNat
  else if c.toNat < 0x20 then ['\\', 'u', '0', '0'] ++ Nat.toDigits 16 c.toNat
  else [c]

/-- A JSON string. -/
def json (text : String) : List Char := '"' :: text.toList.flatMap jsonChar ++ ['"']

end Text

/-- The text of a number. -/
def Number.text : Number → List Char
  | .integer value =>
    if value < 0 then '-' :: Nat.toDigits 10 value.natAbs else Nat.toDigits 10 value.natAbs
  | .double x => DecimalFormat.document.text x

/-- The text of a truth value. -/
def Text.bool : Bool → List Char
  | true => ['t', 'r', 'u', 'e']
  | false => ['f', 'a', 'l', 's', 'e']

/-! ## The canonical layouts -/

/-- White space of a canonical text. -/
inductive Layout where
  /-- No white space. -/
  | compact
  /-- One member per line. -/
  | pretty
  deriving DecidableEq

namespace Layout

def ofPretty (pretty : Bool) : Layout := if pretty then .pretty else .compact

/-- A line break and the indentation of the line behind it, inside `depth` objects. -/
def lineBreak (layout : Layout) (depth : Nat) : List Char :=
  match layout with
  | .compact => []
  | .pretty => '\n' :: List.replicate (2 * depth) ' '

/-- What stands between a name and its value. -/
def colon : Layout → List Char
  | .compact => [':']
  | .pretty => [':', ' ']

mutual

/-- The text of a document inside `depth` objects. -/
def write (layout : Layout) (depth : Nat) : Document → List Char
  | .null => ['n', 'u', 'l', 'l']
  | .bool value => Text.bool value
  | .number value => value.text
  | .string text => Text.json text
  | .array [] => ['[', ']']
  | .array (item :: rest) => '[' :: write layout depth item ++ writeItems layout depth rest
  | .object [] => ['\x7b', '\x7d']
  | .object ((name, value) :: rest) =>
    '\x7b' :: layout.lineBreak (depth + 1) ++ Text.json name ++ layout.colon
      ++ write layout (depth + 1) value ++ writeMembers layout depth rest

/-- The rest of an array behind one of its items. -/
def writeItems (layout : Layout) (depth : Nat) : List Document → List Char
  | [] => [']']
  | item :: rest => ',' :: write layout depth item ++ writeItems layout depth rest

/-- The rest of an object behind one of its members. -/
def writeMembers (layout : Layout) (depth : Nat) : List (String × Document) → List Char
  | [] => layout.lineBreak depth ++ ['\x7d']
  | (name, value) :: rest =>
    ',' :: layout.lineBreak (depth + 1) ++ Text.json name ++ layout.colon
      ++ write layout (depth + 1) value ++ writeMembers layout depth rest

end

end Layout

namespace Document

mutual

/-- The document with the members of every object in ascending order of name. -/
def sorted : Document → Document
  | .array items => .array (sortedItems items)
  | .object members => .object (sortedMembers members)
  | .null => .null
  | .bool value => .bool value
  | .number value => .number value
  | .string text => .string text

def sortedItems : List Document → List Document
  | [] => []
  | item :: rest => sorted item :: sortedItems rest

/-- Each member is put in its place among the others. Of two with one name the first stays. -/
def sortedMembers : List (String × Document) → Members
  | [] => []
  | (name, value) :: rest => Named.put name (sorted value) (sortedMembers rest)

end

/-- The text of a document in a layout, members in the order in which they stand, with a final
line feed. -/
def textIn (layout : Layout) (doc : Document) : String :=
  String.ofList (layout.write 0 doc ++ ['\n'])

/-- The canonical text of a document. -/
def canonical (layout : Layout) (doc : Document) : String := doc.sorted.textIn layout

end Document

/-! ## The two-space layout -/

namespace Document

/-- A line break and the indentation of a line inside `depth` arrays and objects. -/
def indentedLine (depth : Nat) : List Char := '\n' :: List.replicate (2 * depth) ' '

mutual

/-- The text of a document inside `depth` arrays and objects. -/
def writeIndented (depth : Nat) : Document → List Char
  | .null => ['n', 'u', 'l', 'l']
  | .bool value => Text.bool value
  | .number value => value.text
  | .string text => Text.json text
  | .array [] => ['[', ']']
  | .array (item :: rest) =>
    '[' :: indentedLine (depth + 1) ++ writeIndented (depth + 1) item
      ++ writeIndentedItems depth rest
  | .object [] => ['\x7b', '\x7d']
  | .object ((name, value) :: rest) =>
    '\x7b' :: indentedLine (depth + 1) ++ Text.json name ++ [':', ' ']
      ++ writeIndented (depth + 1) value ++ writeIndentedMembers depth rest

/-- The rest of an array behind one of its items. -/
def writeIndentedItems (depth : Nat) : List Document → List Char
  | [] => indentedLine depth ++ [']']
  | item :: rest =>
    ',' :: indentedLine (depth + 1) ++ writeIndented (depth + 1) item
      ++ writeIndentedItems depth rest

/-- The rest of an object behind one of its members. -/
def writeIndentedMembers (depth : Nat) : List (String × Document) → List Char
  | [] => indentedLine depth ++ ['\x7d']
  | (name, value) :: rest =>
    ',' :: indentedLine (depth + 1) ++ Text.json name ++ [':', ' ']
      ++ writeIndented (depth + 1) value ++ writeIndentedMembers depth rest

end

/-- The two-space text of a document, members in the order in which they stand, with no
final line feed. -/
def indented (doc : Document) : String := String.ofList (doc.writeIndented 0)

end Document

end ChainGenesis
