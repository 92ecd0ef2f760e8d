import ChainGenesis.Rejection
import ChainGenesis.Text.Ascii

/-!
# Account addresses

An account is a number of 160 bits, written as `0x` and forty hexadecimal digits. Digits
may be of either case; a parsed address has them in lowercase, so that two addresses are
the same account exactly when they are the same text.
-/

namespace ChainGenesis

/-- An account address. One that was parsed is in canonical form. -/
structure Address where
  text : String
  deriving DecidableEq

namespace Address

/-- Digits of an address. -/
def digitCount : Nat := 40

def isHexDigit (c : Char) : Bool :=
  c.isDigit || ('a' ≤ c && c ≤ 'f') || ('A' ≤ c && c ≤ 'F')

/-- Whether a text is an address in digits of any case. -/
def isValid (text : String) : Bool :=
  match text.toList with
  | '0' :: 'x' :: digits => digits.length = digitCount && digits.all isHexDigit
  | _ => false

/-- Parses an address into its canonical form. -/
def parse (text : String) : Except Rejection Address :=
  if isValid text then .ok ⟨Text.lowercase text⟩ else .error (.malformed .address text)

/-- The address of no account. -/
def zero : Address := ⟨String.ofList ('0' :: 'x' :: List.replicate digitCount '0')⟩

def isZero (address : Address) : Bool := address = zero

end Address

end ChainGenesis
