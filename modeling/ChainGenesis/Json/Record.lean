import ChainGenesis.Named
import ChainGenesis.Json.Written

/-!
# Reading values of a known kind

Input files with a fixed shape are read into records. A record is written as an object, or
as an array of its fields in their order. Members that the record does not know are passed
over, a known name may stand only once, and a field that is not written keeps its starting
value.

A value of another kind is `mistyped`, but only once it has been read: a wrong number that
is also out of range is malformed. An array or object of the wrong kind is refused at its
bracket, whatever it holds.
-/

namespace ChainGenesis.Written

/-- The fault of a value that is not of the kind that belongs there. -/
def wrongKind : Written → Fault
  | .null | .bool _ | .array _ _ | .object _ _ => .mistyped
  | .number numeral =>
    match numeral.value with
    | .ok _ => .mistyped
    | .error fault => fault
  | .string literal =>
    match literal.text with
    | .ok _ => .mistyped
    | .error fault => fault
  | .brokenNumber fault | .brokenWord fault | .missing fault => fault

/-- Reads a string. -/
def readText : Written → Except Fault String
  | .string literal => literal.text
  | other => .error other.wrongKind

/-- Reads an integer that fits 64 bits with a sign. -/
def readInt64 : Written → Except Fault Int
  | .number numeral =>
    match numeral.value with
    | .ok (.integer value) => if value < 9223372036854775808 then .ok value else .error .mistyped
    | .ok (.double _) => .error .mistyped
    | .error fault => .error fault
  | other => .error other.wrongKind

/-- Reads an array of values of one kind. -/
def readList {α : Type} (read : Written → Except Fault α) : Written → Except Fault (List α)
  | .array items fault => do
    let values ← items.mapM read
    fault.elim (.ok values) .error
  | other => .error other.wrongKind

/-- Reads an object of values of one kind; a repeated name keeps its last value. -/
def readNamed {α : Type} (read : Written → Except Fault α) : Written → Except Fault (Named α)
  | .object members fault => do
    let entries ← members.mapM fun (name, value) => do
      let name ← name.text
      let value ← read value
      return (name, value)
    fault.elim (.ok (Named.ofList entries)) .error
  | other => .error other.wrongKind

/-! ## Records -/

/-- A field of a record: its name, and how a value written for it changes the record. -/
structure Field (α : Type) where
  name : String
  set : Written → α → Except Fault α

/-- A field that is read one way and stored another. -/
def field {α β : Type} (name : String) (read : Written → Except Fault β) (store : α → β → α) :
    Field α :=
  { name, set := fun written record => (read written).map (store record) }

/-- Reads the fields of a record from members. -/
def readMembersInto {α : Type} (fields : List (Field α)) (fault : Option Fault) :
    List String → List (StringLiteral × Written) → α → Except Fault α
  | _, [], record => fault.elim (.ok record) .error
  | seen, (name, value) :: rest, record => do
    let name ← name.text
    match fields.find? fun field => field.name = name with
    | some field =>
      if seen.contains name then .error .mistyped
      else readMembersInto fields fault (name :: seen) rest (← field.set value record)
    | none =>
      value.skip
      readMembersInto fields fault seen rest record

/-- Reads the fields of a record from items in the order of the fields. -/
def readItemsInto {α : Type} (fault : Option Fault) :
    List (Field α) → List Written → α → Except Fault α
  | _, [], record => fault.elim (.ok record) .error
  | [], _ :: _, _ => .error .malformed
  | field :: fields, item :: rest, record => do
    readItemsInto fault fields rest (← field.set item record)

/-- Reads a record that starts out as given. -/
def readRecord {α : Type} (fields : List (Field α)) (start : α) : Written → Except Fault α
  | .object members fault => readMembersInto fields fault [] members start
  | .array items fault => readItemsInto fault fields items start
  | other => .error other.wrongKind

end ChainGenesis.Written
