/-!
# What can be wrong with a JSON text

A text is read from the left, and the first thing that is wrong with it is what a reader
reports. There are three kinds of wrong: the text stopped too early, what stands there is
no JSON, or it is JSON of a shape that the reader did not ask for.
-/

namespace ChainGenesis

/-- Why a JSON text was refused. -/
inductive Fault where
  /-- The text ends before the value does. -/
  | truncated
  /-- What stands there is not JSON, or is beyond what a document can hold. -/
  | malformed
  /-- A well-formed value is not of the kind that belongs there. -/
  | mistyped
  deriving DecidableEq

end ChainGenesis
