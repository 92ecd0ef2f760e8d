import ChainGenesis.Proofs.Json.Layouts
import ChainGenesis.Proofs.Json.Records
import ChainGenesis.Proofs.Load
import ChainGenesis.Token

/-!
# The token is passed on

The metadata of a chain is the token file in another spelling: whatever the token says is read back
from it, and nothing else is. This holds of any token that a file can say, also of one that this
program would refuse.
-/

namespace ChainGenesis

open Written

/-! ## Integers of 64 bits -/

/-- An integer of 64 bits with a sign. -/
def FitsInt64 (value : Int) : Prop :=
  -9223372036854775808 ≤ value ∧ value < 9223372036854775808

instance (value : Int) : Decidable (FitsInt64 value) := inferInstanceAs (Decidable (_ ∧ _))

theorem FitsInt64.inRange {value : Int} (h : FitsInt64 value) : Number.InRange value :=
  ⟨h.1, Int.lt_trans h.2 (by decide)⟩

namespace Written

theorem readInt64_ofInt {value : Int} (h : FitsInt64 value) :
    readInt64 (.number (.ofInt value)) = .ok value := by
  rw [readInt64, value_ofInt h.inRange]
  exact if_pos h.2

end Written

namespace Token

/-! ## Tokens as JSON -/

/-- A token has no arrays, so it looks the same in the two-space layout and in the pretty one. -/
theorem metadata_eq (token : Token) : token.metadata = token.document.textIn .pretty := by
  have hsame : token.document.writeIndented 0 = Layout.pretty.write 0 token.document := rfl
  rw [metadata, Document.indented, hsame, Document.textIn, String.ofList_append]

section

variable {token : Token} (h : FitsInt64 token.decimals)
include h

theorem exact_document : token.document.Exact :=
  ⟨trivial, trivial, h.inRange, trivial, trivial, trivial⟩

/-- The tree of a token is read as the token, whatever its texts hold. -/
theorem ofWritten_written : ofWritten token.document.written = .ok token := by
  have hmembers : token.document.written = .object (membersOf fields
      [.string (.ofText token.name), .string (.ofText token.symbol),
        .number (.ofInt token.decimals), .string (.ofText token.supplyPolicy),
        .string (.ofText token.phase1PosRewards)]) none := rfl
  have htext (text : String) : readText (.string (.ofText text)) = .ok text :=
    StringLiteral.text_ofText text
  rw [hmembers, ofWritten, readRecord_membersOf (by decide) rfl, readRecord, fields,
    readItemsInto_field (htext _), readItemsInto_field (htext _),
    readItemsInto_field (readInt64_ofInt h), readItemsInto_field (htext _),
    readItemsInto_field (htext _)]
  rfl

/-- What the metadata says is read as the token. -/
theorem decode_metadata :
    Written.decode ofWritten (Symbol.ofBytes token.metadata.toUTF8) = .ok token := by
  rw [metadata_eq, Written.decode_eq_ok_iff (spells_textIn_bytes .pretty (exact_document h))]
  exact ofWritten_written h

theorem load_metadata {fs : FileSystem} {path : String}
    (hfile : fs.read path = .ok token.metadata.toUTF8) : fs.load ofWritten path = .ok token := by
  rw [metadata_eq] at hfile
  exact FileSystem.load_textIn token.document hfile (exact_document h) (ofWritten_written h)

end

/-! ## Metadata -/

/--
**Metadata passes a token through unchanged**, whatever its texts hold and whether or not this
program would accept it. The metadata ends in one line feed and not in two; a file with these bytes
is loaded as the token; and two tokens have the same metadata only if they are the same.
-/
theorem metadata_passes_through {token : Token} (h : FitsInt64 token.decimals) :
    (∃ front b, token.metadata.toUTF8.data.toList = front ++ [b, '\n'.toUInt8]
        ∧ b ≠ '\n'.toUInt8)
      ∧ (∀ (fs : FileSystem) (path : String), fs.read path = .ok token.metadata.toUTF8 →
          fs.load ofWritten path = .ok token)
      ∧ ∀ other : Token, FitsInt64 other.decimals →
          (token.metadata.toUTF8 = other.metadata.toUTF8 ↔ token = other) := by
  refine ⟨?_, fun fs path => load_metadata h,
    fun other hother => ⟨fun heq => ?_, fun heq => by rw [heq]⟩⟩
  · rw [metadata_eq]
    exact token.document.ends_textIn .pretty
  · have hdecode := decode_metadata h
    rw [heq, decode_metadata hother] at hdecode
    injection hdecode with hdecode
    exact hdecode.symm

/-- A token with the least decimals, a name of controls and quotes and a symbol beyond ASCII. -/
theorem metadata_passes_through_extremes :
    let token : Token := ⟨"\"\\\n\x00", "€😀", -9223372036854775808, "", "\t"⟩
    let fs : FileSystem :=
      { nodes := [(["metadata"], .file token.metadata.toUTF8)], workingDirectory := [] }
    FitsInt64 token.decimals ∧ fs.load ofWritten "metadata" = .ok token
      ∧ token.metadata.toUTF8 ≠ { token with decimals := 9223372036854775807 }.metadata.toUTF8 := by
  intro token fs
  have hfits : FitsInt64 token.decimals := by decide
  obtain ⟨_, hload, hsame⟩ := metadata_passes_through hfits
  refine ⟨hfits, hload fs "metadata" rfl, ?_⟩
  rw [Ne, hsame _ (by decide)]
  decide

end Token

end ChainGenesis
