import ChainGenesis.Proofs.FileSystem
import ChainGenesis.Proofs.Json.Accepting
import ChainGenesis.Proofs.Json.RoundTrip

/-!
# Loading what was written

A file is loaded from the tree that its text writes, by whatever reader is asked for, and the
text of a document in a layout writes the document's own tree. So files can be compared by their
trees: where these are related, what is loaded is related as the reader has it.
-/

namespace ChainGenesis

open Grammar

/-- A reader of trees reads a text as it reads the tree that the text writes. -/
theorem Written.decode_eq_ok_iff {α : Type} {read : Written → Except Fault α}
    {text : List Symbol} {written : Written} {value : α} (h : Spells text written) :
    Written.decode read text = .ok value ↔ read written = .ok value := by
  unfold Written.decode
  rw [ofSymbols_eq h]
  dsimp only
  cases read written with
  | error fault => exact Iff.rfl
  | ok found => exact Iff.rfl

/-- What a reader of trees makes of a text it makes of the tree that the text writes. -/
theorem Written.exists_of_decode {α : Type} {read : Written → Except Fault α}
    {text : List Symbol} {value : α} (h : Written.decode read text = .ok value) :
    ∃ written, Spells text written ∧ read written = .ok value := by
  unfold Written.decode at h
  generalize hsymbols : Written.ofSymbols text = found at h
  obtain ⟨written, fault⟩ := found
  dsimp only at h
  split at h
  · exact absurd h (by simp)
  · exact absurd h (by simp)
  · rename_i result hread
    injection h with h
    exact ⟨written, ofSymbols_eq_iff.mp hsymbols, h ▸ hread⟩

/-- The bytes of a document in a layout write the document's own tree. -/
theorem spells_textIn_bytes (layout : Layout) {doc : Document} (hexact : doc.Exact) :
    Spells (Symbol.ofBytes (doc.textIn layout).toUTF8) doc.written := by
  rw [Symbol.ofBytes_toUTF8]
  exact spells_textIn layout hexact

theorem spells_canonical_bytes (layout : Layout) {doc : Document} (hexact : doc.Exact)
    (hordered : doc.Ordered) :
    Spells (Symbol.ofBytes (doc.canonical layout).toUTF8) doc.written := by
  rw [hordered.canonical_eq]
  exact spells_textIn_bytes layout hexact

namespace FileSystem

theorem load_eq_ok_iff {α : Type} {fs : FileSystem} {path : String}
    {read : Written → Except Fault α} {content : ByteArray} {written : Written} {value : α}
    (hfile : fs.read path = .ok content) (h : Spells (Symbol.ofBytes content) written) :
    fs.load read path = .ok value ↔ read written = .ok value := by
  rw [← Written.decode_eq_ok_iff h]
  unfold load
  rw [hfile]
  dsimp only
  cases Written.decode read (Symbol.ofBytes content) with
  | error fault => simp
  | ok found => simp

/-- What is loaded is what a file writes. -/
theorem exists_of_load {α : Type} {fs : FileSystem} {path : String}
    {read : Written → Except Fault α} {value : α} (h : fs.load read path = .ok value) :
    ∃ content written, fs.read path = .ok content ∧ Spells (Symbol.ofBytes content) written
      ∧ read written = .ok value := by
  unfold load at h
  split at h
  · exact absurd h (by simp)
  · rename_i content hfile
    split at h
    · exact absurd h (by simp)
    · rename_i found hfound
      injection h with h
      obtain ⟨written, hspells, hread⟩ := Written.exists_of_decode hfound
      exact ⟨content, written, hfile, hspells, h ▸ hread⟩

theorem load_textIn {α : Type} {fs : FileSystem} {path : String}
    {read : Written → Except Fault α} {layout : Layout} {value : α} (doc : Document)
    (hfile : fs.read path = .ok (doc.textIn layout).toUTF8) (hexact : doc.Exact)
    (hread : read doc.written = .ok value) : fs.load read path = .ok value :=
  (load_eq_ok_iff hfile (spells_textIn_bytes layout hexact)).mpr hread

theorem load_canonical {α : Type} {fs : FileSystem} {path : String}
    {read : Written → Except Fault α} {layout : Layout} {value : α} (doc : Document)
    (hfile : fs.read path = .ok (doc.canonical layout).toUTF8) (hexact : doc.Exact)
    (hordered : doc.Ordered) (hread : read doc.written = .ok value) :
    fs.load read path = .ok value := by
  rw [hordered.canonical_eq] at hfile
  exact load_textIn doc hfile hexact hread

/-- **A document that was written in a canonical layout is loaded.** -/
theorem loadDocument_canonical {fs : FileSystem} {path : String} {layout : Layout}
    {doc : Document} (hfile : fs.read path = .ok (doc.canonical layout).toUTF8)
    (hexact : doc.Exact) (hordered : doc.Ordered) (hnesting : doc.nesting ≤ Document.maxDepth) :
    fs.loadDocument path = .ok doc :=
  load_canonical doc hfile hexact hordered (Document.ofWritten_written hexact hordered hnesting)

/-- A document that was loaded lists its members in order. -/
theorem ordered_of_loadDocument {fs : FileSystem} {path : String} {doc : Document}
    (h : fs.loadDocument path = .ok doc) : doc.Ordered := by
  obtain ⟨_, _, _, _, hread⟩ := exists_of_load h
  exact (Document.ordered_of_ofWritten hread).1

/-! ## Two files -/

/-- The file at a path is the same in two file systems, or it holds trees that are related. -/
def Related (R : Written → Written → Prop) (fs other : FileSystem) (path : String) : Prop :=
  fs.read path = other.read path
    ∨ ∃ content content' v w, fs.read path = .ok content ∧ other.read path = .ok content'
      ∧ Spells (Symbol.ofBytes content) v ∧ Spells (Symbol.ofBytes content') w ∧ R v w

theorem Related.symm {R : Written → Written → Prop} (hsymm : ∀ {v w}, R v w → R w v)
    {fs other : FileSystem} {path : String} (h : Related R fs other path) :
    Related R other fs path := by
  rcases h with heq | ⟨content, content', v, w, hfs, hother, hv, hw, hR⟩
  · exact .inl heq.symm
  · exact .inr ⟨content', content, w, v, hother, hfs, hw, hv, hsymm hR⟩

/-- Where trees are related, so is what is loaded. -/
theorem Related.load {α : Type} {R : Written → Written → Prop} {S : α → α → Prop}
    (hrefl : ∀ value, S value value) {fs other : FileSystem} {path : String}
    (h : Related R fs other path) {read : Written → Except Fault α}
    (hread : ∀ {v w value}, R v w → read v = .ok value →
      ∃ value', read w = .ok value' ∧ S value value')
    {value : α} (hload : fs.load read path = .ok value) :
    ∃ value', other.load read path = .ok value' ∧ S value value' := by
  rcases h with heq | ⟨content, content', v, w, hfs, hother, hv, hw, hR⟩
  · exact ⟨value, load_congr heq read ▸ hload, hrefl value⟩
  · obtain ⟨value', hvalue', hS⟩ := hread hR ((load_eq_ok_iff hfs hv).mp hload)
    exact ⟨value', (load_eq_ok_iff hother hw).mpr hvalue', hS⟩

/-- A file that is there is there in the other file system. -/
theorem Related.isFile {R : Written → Written → Prop} {fs other : FileSystem} {path : String}
    (h : Related R fs other path) (hthere : other.isFile path = true) : fs.isFile path = true := by
  obtain ⟨found, hfound⟩ := isFile_iff.mp hthere
  rcases h with heq | ⟨content, _, _, _, hfs, _⟩
  · exact isFile_iff.mpr ⟨found, heq.trans hfound⟩
  · exact isFile_iff.mpr ⟨content, hfs⟩

end FileSystem

end ChainGenesis
