/-!
# Case

Words and addresses are read in any case, and case here is that of the ASCII letters: every
other character is its own lowercase form.
-/

namespace ChainGenesis.Text

/-- A text with its ASCII letters in lowercase. -/
def lowercase (text : String) : String := String.ofList (text.toList.map Char.toLower)

/-- Whether two texts differ at most in the case of ASCII letters. -/
def sameWord (a b : String) : Bool := lowercase a = lowercase b

end ChainGenesis.Text
