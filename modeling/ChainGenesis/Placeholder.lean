import ChainGenesis.Json.Reader

/-!
# Placeholders

A template marks the places that a build fills in with tokens such as `CHAIN_ID` between
double braces. A string that is one token and nothing else becomes whatever its replacement
text says in JSON, so a number can stand where the template has a string; a replacement
that is no JSON is taken as text. Tokens inside longer strings are replaced by the text
itself. Replacement texts are not looked into again.

A string splits into tokens and characters in one way only, found from the left: where a
token can begin it does, and what is not part of a token stands for itself.
-/

namespace ChainGenesis

namespace Placeholder

/-- A character of a string that stands for itself, or a token with its name. -/
inductive Part where
  | char (c : Char)
  | token (name : List Char)
  deriving DecidableEq

/-- The characters of a token's name. -/
def isNameChar (c : Char) : Bool := ('A' ≤ c && c ≤ 'Z') || c.isDigit || c = '_'

/-- The name of the token at the front of a text, and the rest of the text. -/
def token? : List Char → Option (List Char × List Char)
  | '\x7b' :: '\x7b' :: rest =>
    match rest.takeWhile isNameChar, rest.dropWhile isNameChar with
    | c :: name, '\x7d' :: '\x7d' :: rest => some (c :: name, rest)
    | _, _ => none
  | _ => none

theorem length_lt_of_token? {text name rest : List Char} (h : token? text = some (name, rest)) :
    rest.length < text.length := by
  unfold token? at h
  split at h
  · rename_i inner
    split at h
    · rename_i hdrop
      have hle := (List.dropWhile_sublist (l := inner) isNameChar).length_le
      simp only [hdrop, List.length_cons] at hle
      simp only [Option.some.injEq, Prod.mk.injEq] at h
      simp only [List.length_cons, ← h.2]
      omega
    · exact absurd h (by simp)
  · exact absurd h (by simp)

/-- The parts of a text. -/
def parts (text : List Char) : List Part :=
  match h : token? text with
  | some (name, rest) =>
    have := length_lt_of_token? h
    .token name :: parts rest
  | none =>
    match text with
    | [] => []
    | c :: rest => .char c :: parts rest
termination_by text.length

/-- The text of a part as it stands in the string. -/
def Part.text : Part → List Char
  | .char c => [c]
  | .token name => ['\x7b', '\x7b'] ++ name ++ ['\x7d', '\x7d']

/-- Replacement texts by name. -/
abbrev Values := Named String

/-- The text of a part once it is replaced; a token without a replacement stays. -/
def Part.fill (values : Values) : Part → List Char
  | .char c => [c]
  | .token name =>
    match Named.lookup? (String.ofList name) values with
    | some value => value.toList
    | none => (Part.token name).text

/-- What a replacement text says: JSON if it is JSON, and the text itself if it is not. -/
def meaning (value : String) : Document :=
  match Document.parse value with
  | .ok doc => doc
  | .error _ => .string value

/-- What a string becomes. -/
def fill (values : Values) (text : String) : Document :=
  match parts text.toList with
  | [.token name] =>
    match Named.lookup? (String.ofList name) values with
    | some value => meaning value
    | none => .string text
  | parts => .string (String.ofList (parts.flatMap (Part.fill values)))

/-- The names of the tokens in a string, from the left. -/
def names (text : String) : List String :=
  (parts text.toList).filterMap fun part =>
    match part with
    | .char _ => none
    | .token name => some (String.ofList name)

/-- A list of names in ascending order, without repetitions. -/
def sortNames (names : List String) : List String :=
  (Named.ofList (names.map fun name => (name, ()))).map Prod.fst

end Placeholder

namespace Document

mutual

/-- The document with its strings filled in. Names of members are left as they are. -/
def fill (values : Placeholder.Values) : Document → Document
  | .string text => Placeholder.fill values text
  | .array items => .array (fillItems values items)
  | .object members => .object (fillMembers values members)
  | .null => .null
  | .bool value => .bool value
  | .number value => .number value

def fillItems (values : Placeholder.Values) : List Document → List Document
  | [] => []
  | item :: rest => fill values item :: fillItems values rest

def fillMembers (values : Placeholder.Values) : List (String × Document) → Members
  | [] => []
  | (name, value) :: rest => (name, fill values value) :: fillMembers values rest

end

mutual

/-- The names of the tokens in the strings of a document. -/
def tokens : Document → List String
  | .string text => Placeholder.names text
  | .array items => tokensOfItems items
  | .object members => tokensOfMembers members
  | .null | .bool _ | .number _ => []

def tokensOfItems : List Document → List String
  | [] => []
  | item :: rest => tokens item ++ tokensOfItems rest

def tokensOfMembers : List (String × Document) → List String
  | [] => []
  | (_, value) :: rest => tokens value ++ tokensOfMembers rest

end

/-- The names that have no replacement, in ascending order. -/
def unresolved (values : Placeholder.Values) (doc : Document) : List String :=
  Placeholder.sortNames (doc.tokens.filter fun name => !Named.has values name)

end Document

/-- A document with its placeholders filled in, and the names that had no replacement. -/
structure Resolved where
  document : Document
  unresolved : List String

/-- Fills in the placeholders of a document. A strict resolution fails with the names that
have no replacement; any other leaves their tokens standing. -/
def resolve (values : Placeholder.Values) (strict : Bool) (doc : Document) :
    Except (List String) Resolved :=
  let unresolved := doc.unresolved values
  if strict && !unresolved.isEmpty then .error unresolved
  else .ok ⟨doc.fill values, unresolved⟩

end ChainGenesis
