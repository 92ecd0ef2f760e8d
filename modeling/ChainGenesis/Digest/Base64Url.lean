/-!
# Base64 for URLs, without padding

Three bytes are four digits of six bits, and one or two bytes at the end are two or three
digits. The two digits beyond letters and figures are `-` and `_`, so the text can stand
in a file name or a URL.
-/

namespace ChainGenesis.Base64Url

/-- The digit of a value below sixty-four. -/
def digit (n : Nat) : Char :=
  if n < 26 then Char.ofNat ('A'.toNat + n)
  else if n < 52 then Char.ofNat ('a'.toNat + (n - 26))
  else if n < 62 then Char.ofNat ('0'.toNat + (n - 52))
  else if n = 62 then '-'
  else '_'

/-- Whether a character is a digit of the alphabet. -/
def isDigit (c : Char) : Bool :=
  ('A' ≤ c && c ≤ 'Z') || ('a' ≤ c && c ≤ 'z') || ('0' ≤ c && c ≤ '9') || c = '-' || c = '_'

/-- The digits of a byte string. -/
def encode : List UInt8 → List Char
  | [] => []
  | [a] =>
    let n := a.toNat * 16
    [digit (n / 64), digit (n % 64)]
  | [a, b] =>
    let n := (a.toNat * 256 + b.toNat) * 4
    [digit (n / 4096), digit (n / 64 % 64), digit (n % 64)]
  | a :: b :: c :: rest =>
    let n := (a.toNat * 256 + b.toNat) * 256 + c.toNat
    digit (n / 262144) :: digit (n / 4096 % 64) :: digit (n / 64 % 64) :: digit (n % 64)
      :: encode rest

example : encode [] = [] ∧ encode [0x66] = ['Z', 'g'] ∧ encode [0x66, 0x6f] = ['Z', 'm', '8']
    ∧ encode [0xfb, 0xff, 0xfe] = ['-', '_', '_', '-'] := by decide

/-- Every digit is in the alphabet. -/
theorem isDigit_digit {n : Nat} (h : n < 64) : isDigit (digit n) = true := by
  have : ∀ m < 64, isDigit (digit m) = true := by decide
  exact this n h

/-- Three bytes take four digits. -/
theorem length_encode (bytes : List UInt8) :
    (encode bytes).length = (bytes.length * 4 + 2) / 3 := by
  fun_induction encode bytes with
  | case1 => rfl
  | case2 => simp
  | case3 => simp
  | case4 a b c rest n ih => simp only [List.length_cons, ih]; omega

end ChainGenesis.Base64Url
