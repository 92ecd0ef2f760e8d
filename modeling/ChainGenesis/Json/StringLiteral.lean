import ChainGenesis.Text.Symbol
import ChainGenesis.Json.Fault

/-!
# Strings as they are written

Between its quotes a JSON string is a list of pieces: characters, UTF-16 code units written
as `\u` escapes, and bytes that are no UTF-8. Which of these make a text is a second
question, asked only by a reader that wants the text: a surrogate must stand in a pair and
there may be no stray bytes. A reader that skips the string does not ask it.
-/

namespace ChainGenesis

/-- One piece of a string. -/
inductive Piece where
  | char (c : Char)
  | unit (n : Nat)
  | stray (byte : UInt8)
  deriving DecidableEq

/-- A string as it is written, behind its opening quote. -/
structure StringLiteral where
  pieces : List Piece
  /-- What keeps the string from being closed; none if it is closed. -/
  fault : Option Fault
  deriving DecidableEq

namespace StringLiteral

/-! ## Reading the pieces -/

/-- The character that a one-letter escape stands for. -/
def escaped? (c : Char) : Option Char :=
  if c = '"' ∨ c = '\\' ∨ c = '/' then some c
  else if c = 'b' then some '\x08'
  else if c = 'f' then some '\x0c'
  else if c = 'n' then some '\n'
  else if c = 'r' then some '\r'
  else if c = 't' then some '\t'
  else none

/-- The value of a hexadecimal digit of either case. -/
def hexValue? (c : Char) : Option Nat :=
  if '0' ≤ c ∧ c ≤ '9' then some (c.toNat - '0'.toNat)
  else if 'a' ≤ c ∧ c ≤ 'f' then some (c.toNat - 'a'.toNat + 10)
  else if 'A' ≤ c ∧ c ≤ 'F' then some (c.toNat - 'A'.toNat + 10)
  else none

/-- The code unit that four hexadecimal digits denote. -/
def unit? (digits : List Symbol) : Option Nat :=
  digits.foldlM (fun n symbol =>
    match symbol with
    | .char c => (hexValue? c).map (16 * n + ·)
    | .stray _ => none) 0

/-- Reads the pieces of a string and what follows its closing quote. -/
def readPieces : List Symbol → List Piece × Except Fault (List Symbol)
  | [] => ([], .error .truncated)
  | .stray byte :: rest =>
    let (pieces, result) := readPieces rest
    (.stray byte :: pieces, result)
  | .char c :: rest =>
    if c = '"' then ([], .ok rest)
    else if c = '\\' then
      match rest with
      | [] => ([], .error .truncated)
      | .stray _ :: _ => ([], .error .malformed)
      | .char letter :: rest =>
        if letter = 'u' then
          match rest with
          | d1 :: d2 :: d3 :: d4 :: rest =>
            match unit? [d1, d2, d3, d4] with
            | some n =>
              let (pieces, result) := readPieces rest
              (.unit n :: pieces, result)
            | none => ([], .error .malformed)
          -- an escape is cut short when fewer than four bytes are left for its digits
          | short =>
            ([], .error (if Symbol.totalWidth short < 4 then .truncated else .malformed))
        else
          match escaped? letter with
          | some c =>
            let (pieces, result) := readPieces rest
            (.char c :: pieces, result)
          | none => ([], .error .malformed)
    else if c.toNat < 0x20 then ([], .error .malformed)
    else
      let (pieces, result) := readPieces rest
      (.char c :: pieces, result)

/-- Reads a string behind its opening quote. -/
def read (text : List Symbol) : StringLiteral × Except Fault (List Symbol) :=
  match readPieces text with
  | (pieces, .ok rest) => (⟨pieces, none⟩, .ok rest)
  | (pieces, .error fault) => (⟨pieces, some fault⟩, .error fault)

/-! ## The text of a string -/

def isHighSurrogate (n : Nat) : Bool := 0xd800 ≤ n && n ≤ 0xdbff

def isLowSurrogate (n : Nat) : Bool := 0xdc00 ≤ n && n ≤ 0xdfff

/-- The character of a surrogate pair. -/
def pairChar (high low : Nat) : Char :=
  Char.ofNat ((high - 0xd800) * 0x400 + (low - 0xdc00) + 0x10000)

/--
The characters of the pieces, none standing for a stray byte. A surrogate out of place is
refused where it stands; one at the very end waits for its partner, so there it is the end
of the string that decides.
-/
def join (fault : Option Fault) : List Piece → Except Fault (List (Option Char))
  | [] =>
    match fault with
    | none => .ok []
    | some fault => .error fault
  | .char c :: rest => (join fault rest).map (some c :: ·)
  | .stray _ :: rest => (join fault rest).map (none :: ·)
  | .unit n :: rest =>
    if isLowSurrogate n then .error .malformed
    else if isHighSurrogate n then
      match rest with
      | [] => .error (fault.getD .malformed)
      | .unit m :: rest =>
        if isLowSurrogate m then (join fault rest).map (some (pairChar n m) :: ·)
        else .error .malformed
      | _ :: _ => .error .malformed
    else (join fault rest).map (some (Char.ofNat n) :: ·)

/-- The text of a string. Stray bytes are refused once the string is complete. -/
def text (literal : StringLiteral) : Except Fault String :=
  match join literal.fault literal.pieces with
  | .error fault => .error fault
  | .ok chars =>
    match chars.mapM id with
    | some cs => .ok (String.ofList cs)
    | none => .error .malformed

/-- Passes over a string without asking for its text. -/
def skip (literal : StringLiteral) : Except Fault Unit :=
  match literal.fault with
  | none => .ok ()
  | some fault => .error fault

end StringLiteral

end ChainGenesis
