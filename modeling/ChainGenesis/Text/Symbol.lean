/-!
# Text as it is read

A file is bytes and the readers of this library look at characters. A byte that is
not part of any UTF-8 character is no error by itself: whether it matters depends
on where it stands, and a reader that skips a string never looks at it. So a text is
read as a list of **symbols**, each a character or a stray byte, and it is left to
the reader to say which stray bytes it refuses.

A text that came from a string holds no stray bytes (`Symbol.ofBytes_toUTF8`), so
reading a written artifact back is reading its characters.
-/

namespace ChainGenesis

/-- A unit of text being read: a character, or a byte that belongs to no character. -/
inductive Symbol where
  | char (c : Char)
  | stray (byte : UInt8)
  deriving DecidableEq

namespace Symbol

/-- Bytes the symbol takes in the text. -/
def width : Symbol → Nat
  | .char c => c.utf8Size
  | .stray _ => 1

/-- Bytes that a list of symbols takes in the text. -/
def totalWidth : List Symbol → Nat
  | [] => 0
  | symbol :: rest => symbol.width + totalWidth rest

/-- The symbols of a string are its characters. -/
def ofString (text : String) : List Symbol := text.toList.map .char

/--
The symbols from position `i` on. Where a character can be read it is taken whole;
where none can, one byte is passed over and reading starts again behind it, so a
broken character never hides the ASCII that follows it.
-/
def readFrom (bytes : ByteArray) (i : Nat) : List Symbol :=
  if h : i < bytes.size then
    match bytes.utf8DecodeChar? i with
    | some c => .char c :: readFrom bytes (i + c.utf8Size)
    | none => .stray bytes[i] :: readFrom bytes (i + 1)
  else []
termination_by bytes.size - i
decreasing_by
  · have := c.utf8Size_pos; omega
  · omega

/-- The symbols of a file's bytes. -/
def ofBytes (bytes : ByteArray) : List Symbol := readFrom bytes 0

/-! ## A string's bytes are its characters -/

theorem size_utf8Encode_singleton (c : Char) : [c].utf8Encode.size = c.utf8Size := by
  rw [List.utf8Encode_singleton, List.size_toByteArray, String.length_utf8EncodeChar]

theorem readFrom_append_utf8Encode (front : ByteArray) (cs : List Char) :
    readFrom (front ++ cs.utf8Encode) front.size = cs.map .char := by
  induction cs generalizing front with
  | nil => rw [readFrom]; simp
  | cons c cs ih =>
    have hcons : front ++ (c :: cs).utf8Encode = front ++ [c].utf8Encode ++ cs.utf8Encode := by
      rw [List.utf8Encode_cons, ByteArray.append_assoc]
    have hsize : front.size < (front ++ (c :: cs).utf8Encode).size := by
      have := c.utf8Size_pos
      rw [hcons, ByteArray.size_append, ByteArray.size_append, size_utf8Encode_singleton]
      omega
    have hread : (front ++ (c :: cs).utf8Encode).utf8DecodeChar? front.size = some c := by
      rw [ByteArray.utf8DecodeChar?_eq_utf8DecodeChar?_extract,
        ByteArray.extract_append_eq_right rfl (by simp)]
      exact List.utf8DecodeChar?_utf8Encode_cons
    have hnext := ih (front ++ [c].utf8Encode)
    rw [ByteArray.size_append, size_utf8Encode_singleton, ← hcons] at hnext
    rw [readFrom, dif_pos hsize, hread]
    simp only [List.map_cons, List.cons.injEq, true_and]
    exact hnext

/-- Reading the bytes of a string gives the string's characters. -/
theorem ofBytes_toUTF8 (text : String) : ofBytes text.toUTF8 = ofString text := by
  have h := readFrom_append_utf8Encode ByteArray.empty text.toList
  simpa [ofBytes, ofString, String.toUTF8, ← String.toByteArray_ofList] using h

end Symbol

end ChainGenesis
