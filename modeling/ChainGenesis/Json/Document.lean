import ChainGenesis.Named
import ChainGenesis.Number.Binary64

/-!
# Documents

Every stage of a genesis build works on one kind of tree: JSON, with integers kept exact
and everything else that is written as a number kept as a double.

The members of an object are a list in strictly ascending order of their names, so two
objects that hold the same members are the same list. Reading a text establishes that
order and every operation here keeps it (`Document.Ordered`); a name given twice keeps its
last value. Names are ordered by code point, which is also the order of their UTF-8 bytes.
-/

namespace ChainGenesis

/-- A JSON number: an exact integer, or a double. -/
inductive Number where
  | integer (value : Int)
  | double (value : Binary64)
  deriving DecidableEq

namespace Number

/-- Integers from `-2 ^ 63` up to `2 ^ 64` are kept exact. -/
def InRange (value : Int) : Prop :=
  -9223372036854775808 ≤ value ∧ value < 18446744073709551616

instance (value : Int) : Decidable (InRange value) := by unfold InRange; infer_instance

end Number

/-- A JSON document. -/
inductive Document where
  | null
  | bool (value : Bool)
  | number (value : Number)
  | string (text : String)
  | array (items : List Document)
  | object (members : List (String × Document))

/-- The members of an object. -/
abbrev Members := Named Document

namespace Document

/-! ## Looking into a document -/

/-- The members of an object; none for any other document. -/
def members? : Document → Option Members
  | .object members => some members
  | _ => none

/-- The text of a string; none for any other document. -/
def text? : Document → Option String
  | .string text => some text
  | _ => none

def isObject (doc : Document) : Bool := doc.members?.isSome

def isString (doc : Document) : Bool := doc.text?.isSome

def isNumber : Document → Bool
  | .number _ => true
  | _ => false

def isBool : Document → Bool
  | .bool _ => true
  | _ => false

/-- The member of an object; none if the document is no object or has no such member. -/
def get? (doc : Document) (name : String) : Option Document :=
  doc.members?.bind (Named.lookup? name)

/-- The members of the object under a name; none at all if there is no object there. -/
def objectAt (members : Members) (name : String) : Members :=
  ((Named.lookup? name members).bind members?).getD []

/-- The value below a path of names. -/
def at? (doc : Document) : List String → Option Document
  | [] => some doc
  | name :: path => (doc.get? name).bind fun child => child.at? path

/-- Sets a member of an object; any other document stays as it is. -/
def set (doc : Document) (name : String) (value : Document) : Document :=
  match doc with
  | .object members => .object (Named.put name value members)
  | other => other

mutual

/-- Every object of the tree lists its members in strictly ascending order of name. -/
def Ordered : Document → Prop
  | .array items => OrderedItems items
  | .object members => Named.Ordered members ∧ OrderedMembers members
  | _ => True

/-- Every item is ordered. -/
def OrderedItems : List Document → Prop
  | [] => True
  | item :: rest => Ordered item ∧ OrderedItems rest

/-- Every member's value is ordered. -/
def OrderedMembers : List (String × Document) → Prop
  | [] => True
  | (_, value) :: rest => Ordered value ∧ OrderedMembers rest

end

end Document

end ChainGenesis
