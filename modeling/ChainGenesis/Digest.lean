import ChainGenesis.Digest.Base64Url
import ChainGenesis.Digest.Sha256
import ChainGenesis.Json.Layout
import ChainGenesis.Json.Record
import ChainGenesis.Rejection

/-!
# Digests

The fingerprint of an artifact is the SHA-256 of its exact bytes. It is shown as
`sha-256:` and the hash in base64url, forty-three digits without padding; `Digest.parse`
accepts exactly that shape. Inside other JSON it is an object of the algorithm and the
code, and there the code is taken as it stands.
-/

namespace ChainGenesis

/-- The fingerprint of a byte string under SHA-256, the only algorithm. -/
structure Digest where
  code : String
  deriving DecidableEq

namespace Digest

/-- The name of the algorithm. -/
def algorithm : String := "sha-256"

/-- The fingerprint of a byte string. -/
def ofBytes (bytes : List UInt8) : Digest := ⟨String.ofList (Base64Url.encode (Sha256.hash bytes))⟩

/-- The fingerprint of a text's UTF-8 bytes. -/
def ofText (text : String) : Digest := ofBytes text.toUTF8.toList

/-- Whether a byte string has this fingerprint. -/
def isOf (digest : Digest) (bytes : List UInt8) : Bool := ofBytes bytes = digest

/-- How a digest is shown. -/
def display (digest : Digest) : String := algorithm ++ ":" ++ digest.code

/-- Digits in the code of a hash. -/
def codeLength : Nat := 43

/-- Whether a text has the shape of a code. -/
def isCode (text : String) : Bool :=
  text.toList.length = codeLength && text.toList.all Base64Url.isDigit

/-- The rest of a list of characters behind the given ones. -/
def afterLabel? : List Char → List Char → Option (List Char)
  | [], text => some text
  | _ :: _, [] => none
  | c :: label, d :: text => if c = d then afterLabel? label text else none

/-- Parses the shown form. -/
def parse (text : String) : Except Rejection Digest :=
  match afterLabel? (algorithm ++ ":").toList text.toList with
  | some code =>
    if isCode (String.ofList code) then .ok ⟨String.ofList code⟩
    else .error (.malformed .digest text)
  | none => .error (.malformed .digest text)

/-! ## The JSON form -/

/-- The object of a digest. -/
def document (digest : Digest) : Document :=
  .object [("alg", .string algorithm), ("b64", .string digest.code)]

/-- The JSON text of a digest. -/
def json (digest : Digest) : String := String.ofList (Layout.compact.write 0 digest.document)

/-- Reads the name of the algorithm. It may also be written as an object whose one member
has that name and holds null; any value but a string or an object is malformed. -/
def readAlgorithm : Written → Except Fault Unit
  | .string literal =>
    match literal.text with
    | .ok text => if text = algorithm then .ok () else .error .mistyped
    | .error fault => .error fault
  | .object ((name, value) :: rest) fault =>
    match name.text with
    | .ok text =>
      if text ≠ algorithm then .error .mistyped
      else
        match value with
        | .null => if rest.isEmpty then fault.elim (.ok ()) .error else .error .malformed
        | other => .error other.wrongKind
    | .error fault => .error fault
  | .missing fault => .error fault
  | _ => .error .malformed

/-- The fields of a digest that have been read. -/
structure Partial where
  hasAlgorithm : Bool
  code : Option String

def fields : List (Written.Field Partial) := [
  Written.field "alg" readAlgorithm fun record _ => { record with hasAlgorithm := true },
  Written.field "b64" Written.readText fun record code => { record with code := some code }]

/-- Reads a digest, of which both fields must be written. -/
def ofWritten (written : Written) : Except Fault Digest := do
  match ← written.readRecord fields ⟨false, none⟩ with
  | ⟨true, some code⟩ => .ok ⟨code⟩
  | _ => .error .mistyped

end Digest

end ChainGenesis
