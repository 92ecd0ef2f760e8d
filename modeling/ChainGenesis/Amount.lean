import ChainGenesis.Rejection

/-!
# Amounts

Token amounts are natural numbers of wei, of any size, and nothing about them is ever
rounded: an amount is parsed from decimal digits, added exactly, and shown in units of
`10 ^ 18` wei by cutting digits off.
-/

namespace ChainGenesis

/-- An amount in wei. -/
structure Wei where
  value : Nat
  deriving DecidableEq

namespace Wei

def zero : Wei := ⟨0⟩

def isZero (amount : Wei) : Bool := amount.value = 0

instance : Add Wei := ⟨fun a b => ⟨a.value + b.value⟩⟩

@[simp] theorem value_add (a b : Wei) : (a + b).value = a.value + b.value := rfl

/-- Amounts are compared as numbers. -/
instance : Ord Wei := ⟨fun a b => compare a.value b.value⟩

/-- The exact sum of a list of amounts. -/
def sum (amounts : List Wei) : Wei := amounts.foldl (· + ·) zero

/-- Decimal places of the display unit. -/
def decimals : Nat := 18

/-- Whether a text is a string of decimal digits, at least one. -/
def isDigitString (text : String) : Bool := !text.toList.isEmpty && text.toList.all Char.isDigit

/-- Whether a text is a minus sign and a string of decimal digits. -/
def isNegative (text : String) : Bool :=
  match text.toList with
  | '-' :: digits => isDigitString (String.ofList digits)
  | _ => false

/-- Parses a string of decimal digits. -/
def parse (text : String) : Except Rejection Wei :=
  if isNegative text then .error (.negative text)
  else if isDigitString text then .ok ⟨Nat.ofDigitChars 10 text.toList 0⟩
  else .error (.malformed .amount text)

/-- The amount in decimal, without leading zeros. -/
def text (amount : Wei) : String := String.ofList (Nat.toDigits 10 amount.value)

/-- The decimal digits of a number below `10 ^ width`, with leading zeros. -/
def paddedDigits (width n : Nat) : List Char :=
  let digits := Nat.toDigits 10 n
  List.replicate (width - digits.length) '0' ++ digits

/-- A list without the zeros at its end. -/
def dropTrailingZeros (digits : List Char) : List Char :=
  (digits.reverse.dropWhile (· = '0')).reverse

/-- The amount in display units with at most so many decimals: further digits are cut off,
and so are zeros at the end. -/
def inUnits (amount : Wei) (maxDecimals : Int) : String :=
  let unit := Nat.pow 10 decimals
  let whole := Nat.toDigits 10 (amount.value / unit)
  let kept := (paddedDigits decimals (amount.value % unit)).take maxDecimals.toNat
  match dropTrailingZeros kept with
  | [] => String.ofList whole
  | fraction => String.ofList (whole ++ '.' :: fraction)

example : (Wei.mk 4100000000000000000).inUnits 6 = "4.1" := by decide
example : (Wei.mk 1).inUnits 17 = "0" := by decide
example : (Wei.mk 1).inUnits 40 = "0.000000000000000001" := by decide

end Wei

end ChainGenesis
