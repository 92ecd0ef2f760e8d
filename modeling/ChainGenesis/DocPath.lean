/-!
# Paths into a document

A finding about a document says where it was found: `params.forks.london` or
`operators[2].address`. The document itself is called `root`.
-/

namespace ChainGenesis

/-- One step into a document. -/
inductive Segment where
  | field (name : String)
  | index (n : Nat)
  deriving DecidableEq

/-- The steps from the root of a document to a value in it. -/
abbrev DocPath := List Segment

namespace DocPath

/-- The document itself. -/
def root : DocPath := []

def field (path : DocPath) (name : String) : DocPath := path ++ [.field name]

def index (path : DocPath) (n : Nat) : DocPath := path ++ [.index n]

/-- The text of a step behind the first. -/
def stepText : Segment → String
  | .field name => "." ++ name
  | .index n => "[" ++ Nat.repr n ++ "]"

/-- The text of the steps behind the first. -/
def stepsText : DocPath → String
  | [] => ""
  | segment :: rest => stepText segment ++ stepsText rest

/-- The text of a path; a first name has no point before it. -/
def text : DocPath → String
  | [] => "root"
  | .field name :: rest => name ++ stepsText rest
  | .index n :: rest => stepText (.index n) ++ stepsText rest

example : (root |>.field "operators" |>.index 2 |>.field "address").text
    = "operators[2].address" := by decide

end DocPath

end ChainGenesis
