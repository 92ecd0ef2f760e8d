import ChainGenesis.Proofs.Json.Reading
import ChainGenesis.Proofs.Json.Sorted
import ChainGenesis.Proofs.Json.Spelling

/-!
# A canonical text is read back

The text of an exact document, in either layout, is a text of the grammar, and its tree is
the one that the document is written as. So reading the canonical text of a document with its
members in order gives the document back: no two such documents share a canonical text.
-/

namespace ChainGenesis

open Grammar

/-! ## The writer keeps to the grammar -/

namespace Grammar

theorem blanks_replicate (n : Nat) (rest : List Symbol) :
    Blanks (chars (List.replicate n ' ') ++ rest) rest := by
  induction n with
  | zero => exact .done
  | succ n ih => exact .step (by decide) ih

/-- A line break is white space. -/
theorem blanks_lineBreak (layout : Layout) (depth : Nat) (rest : List Symbol) :
    Blanks (chars (layout.lineBreak depth) ++ rest) rest := by
  cases layout with
  | compact => exact .done
  | pretty => exact .step (by decide) (blanks_replicate (2 * depth) rest)

/-- White space may follow the colon behind a name. -/
theorem blanks_colon (layout : Layout) (rest : List Symbol) :
    ∃ behind, chars layout.colon ++ rest = .char ':' :: behind ∧ Blanks behind rest := by
  cases layout with
  | compact => exact ⟨rest, rfl, .done⟩
  | pretty => exact ⟨.char ' ' :: rest, rfl, .step (by decide) .done⟩

theorem follows_cons {c : Char} {rest : List Symbol}
    (h : ¬(c.isDigit = true ∨ c = '.' ∨ c = 'e' ∨ c = 'E')) : Follows (.char c :: rest) := h

theorem follows_writeItems (layout : Layout) (depth : Nat) (items : List Document)
    (rest : List Symbol) : Follows (chars (layout.writeItems depth items) ++ rest) := by
  cases items with
  | nil => exact @follows_cons ']' _ (by decide)
  | cons item items => exact @follows_cons ',' _ (by decide)

theorem follows_writeMembers (layout : Layout) (depth : Nat) (members : List (String × Document))
    (rest : List Symbol) : Follows (chars (layout.writeMembers depth members) ++ rest) := by
  cases members with
  | nil =>
      cases layout with
      | compact => exact @follows_cons '\x7d' _ (by decide)
      | pretty => exact @follows_cons '\n' _ (by decide)
  | cons member members => exact @follows_cons ',' _ (by decide)

/-- The text of a member, up to its value. -/
theorem name_write (layout : Layout) (depth : Nat) (name : String) (rest : List Symbol) :
    ∃ t1 t2 t3, Blanks (chars (layout.lineBreak depth ++ Text.json name ++ layout.colon) ++ rest)
        (.char '"' :: t1)
      ∧ Literal t1 (.ofText name) t2 ∧ Blanks t2 (.char ':' :: t3) ∧ Blanks t3 rest := by
  obtain ⟨t3, hcolon, hbehind⟩ := blanks_colon layout rest
  obtain ⟨t1, hname, hl⟩ := literal_json name (.char ':' :: t3)
  refine ⟨t1, .char ':' :: t3, t3, ?_, hl, .done, hbehind⟩
  rw [chars_append, chars_append, List.append_assoc, List.append_assoc, hcolon, hname]
  exact blanks_lineBreak layout depth _

mutual

/-- What the canonical writer writes of a document is the document's tree. -/
theorem value_write (layout : Layout) : ∀ (depth : Nat) {doc : Document} {rest : List Symbol},
    doc.Exact → Follows rest → Value (chars (layout.write depth doc) ++ rest) doc.written rest
  | _, .null, _, _, _ => .null
  | _, .bool true, _, _, _ => .yes
  | _, .bool false, _, _, _ => .no
  | _, .number (.integer value), _, _, hf => .number (signed_text value hf)
  | _, .number (.double _), _, he, _ => absurd he (by simp [Document.Exact])
  | _, .string text, rest, _, _ => by
      obtain ⟨inner, heq, hl⟩ := literal_json text rest
      rw [Layout.write, heq]
      exact .string hl
  | _, .array [], _, _, _ => .noItems .done
  | depth, .array (item :: items), rest, he, _ => by
      have hv := value_write layout depth he.1 (follows_writeItems layout depth items rest)
      have hi := items_write .done hv he.2
      rw [← List.append_assoc, ← chars_append] at hi
      exact .array hi
  | _, .object [], _, _, _ => .noMembers .done
  | depth, .object ((name, value) :: members), rest, he, _ => by
      have hv := value_write layout (depth + 1) he.1
        (follows_writeMembers layout depth members rest)
      obtain ⟨t1, t2, t3, hq, hl, hc, hb⟩ := name_write layout (depth + 1) name
        (chars (layout.write (depth + 1) value)
          ++ (chars (layout.writeMembers depth members) ++ rest))
      have hm := members_write hq hl hc hb hv he.2
      rw [← List.append_assoc, ← List.append_assoc, ← chars_append, ← chars_append] at hm
      exact .object hm

/-- Behind an item the rest of the array follows. -/
theorem items_write {layout : Layout} : ∀ {others : List Document} {depth : Nat}
    {text front rest : List Symbol} {item : Written}, Blanks text front →
    Value front item (chars (layout.writeItems depth others) ++ rest) →
    Document.ExactItems others → Items text (item :: Document.writtenItems others) rest
  | [], _, _, _, _, _, hb, hv, _ => .last hb hv .done
  | next :: others, depth, _, _, rest, _, hb, hv, he => by
      have hv' := value_write layout depth he.1 (follows_writeItems layout depth others rest)
      have hi := items_write .done hv' he.2
      rw [← List.append_assoc, ← chars_append] at hi
      exact .more hb hv .done hi

/-- Behind the value of a member the rest of the object follows. -/
theorem members_write {layout : Layout} : ∀ {others : List (String × Document)} {depth : Nat}
    {text t1 t2 t3 front rest : List Symbol} {name : StringLiteral} {value : Written},
    Blanks text (.char '"' :: t1) → Literal t1 name t2 → Blanks t2 (.char ':' :: t3) →
    Blanks t3 front → Value front value (chars (layout.writeMembers depth others) ++ rest) →
    Document.ExactMembers others →
    Members text ((name, value) :: Document.writtenMembers others) rest
  | [], depth, _, _, _, _, _, rest, _, _, hq, hl, hc, hb, hv, _ => by
      refine .last hq hl hc hb hv ?_
      rw [Layout.writeMembers, chars_append, List.append_assoc]
      exact blanks_lineBreak layout depth _
  | (next, nextValue) :: others, depth, _, _, _, _, _, rest, _, _, hq, hl, hc, hb, hv, he => by
      have hv' := value_write layout (depth + 1) he.1
        (follows_writeMembers layout depth others rest)
      obtain ⟨u1, u2, u3, hq', hl', hc', hb'⟩ := name_write layout (depth + 1) next
        (chars (layout.write (depth + 1) nextValue)
          ++ (chars (layout.writeMembers depth others) ++ rest))
      have hm := members_write hq' hl' hc' hb' hv' he.2
      rw [← List.append_assoc, ← List.append_assoc, ← chars_append, ← chars_append] at hm
      exact .more hq hl hc hb hv .done hm

end

/-- **The text of a document in a layout writes the tree of the document.** -/
theorem spells_textIn (layout : Layout) {doc : Document} (h : doc.Exact) :
    Spells (Symbol.ofString (doc.textIn layout)) doc.written := by
  have hv := value_write layout 0 h
    (@follows_cons '\n' [] (by decide))
  refine .mk .done ?_ (@Blanks.step (.char '\n') _ _ (by decide) .done)
  rw [Symbol.ofString, Document.textIn, String.toList_ofList, List.map_append]
  exact hv

/-- The canonical text writes the tree of the document with its members in order. -/
theorem spells_canonical (layout : Layout) {doc : Document} (h : doc.Exact) :
    Spells (Symbol.ofString (doc.canonical layout)) doc.sorted.written :=
  spells_textIn layout (Document.exact_sorted h)

/-- What is written of a document writes its tree also without a line feed behind it. -/
theorem spells_write (layout : Layout) {doc : Document} (h : doc.Exact) :
    Spells (Symbol.ofString (String.ofList (layout.write 0 doc))) doc.written := by
  -- nothing follows a document that stands alone
  have hv := @value_write layout 0 doc [] h trivial
  rw [List.append_nil] at hv
  refine .mk .done ?_ .done
  rw [Symbol.ofString, String.toList_ofList]
  exact hv

end Grammar

/-! ## The round trip -/

namespace Document

/-- A canonical text is read as its document with the members in order. -/
theorem parse_canonical (layout : Layout) {doc : Document} (hexact : doc.Exact)
    (hnesting : doc.nesting ≤ maxDepth) : parse (doc.canonical layout) = .ok doc.sorted :=
  read_eq_ok_iff.mpr ⟨doc.sorted.written, ofSymbols_eq (spells_canonical layout hexact),
    ofWritten_written (exact_sorted hexact) (ordered_sorted doc)
      (Nat.le_trans (nesting_sorted_le doc) hnesting)⟩

/-- A document that is in order is read back as it was. -/
theorem Ordered.parse_canonical (layout : Layout) {doc : Document} (hordered : doc.Ordered)
    (hexact : doc.Exact) (hnesting : doc.nesting ≤ maxDepth) :
    parse (doc.canonical layout) = .ok doc :=
  (Document.parse_canonical layout hexact hnesting).trans (congrArg Except.ok hordered.sorted_eq)

/-- What is written of a document is read as the document also without a line feed behind it. -/
theorem parse_write (layout : Layout) {doc : Document} (hexact : doc.Exact)
    (hordered : doc.Ordered) (hnesting : doc.nesting ≤ maxDepth) :
    parse (String.ofList (layout.write 0 doc)) = .ok doc :=
  read_eq_ok_iff.mpr ⟨doc.written, ofSymbols_eq (spells_write layout hexact),
    ofWritten_written hexact hordered hnesting⟩

/-- The decimal of an integer that is kept exact is read as that integer. -/
theorem parse_integer {value : Int} (h : Number.InRange value) :
    parse (String.ofList (Number.integer value).text) = .ok (.number (.integer value)) :=
  @parse_write .compact (.number (.integer value)) h trivial (Nat.zero_le _)

/-- A JSON string is read as the text that was written, whatever it holds. -/
theorem parse_json (text : String) : parse (String.ofList (Text.json text)) = .ok (.string text) :=
  @parse_write .compact (.string text) trivial trivial (Nat.zero_le _)

theorem parse_bool (value : Bool) : parse (String.ofList (Text.bool value)) = .ok (.bool value) :=
  @parse_write .compact (.bool value) trivial trivial (Nat.zero_le _)

/-- **Exact documents have one canonical text if and only if they say the same**, in whatever
order their members stand. -/
theorem canonical_eq_iff {layout : Layout} {d e : Document} (hd : d.Exact) (he : e.Exact)
    (hnd : d.nesting ≤ maxDepth) (hne : e.nesting ≤ maxDepth) :
    d.canonical layout = e.canonical layout ↔ d.tree = e.tree := by
  refine ⟨fun h => ?_, fun h => canonical_eq_of_tree h layout⟩
  have hparse := parse_canonical layout hd hnd
  rw [h, parse_canonical layout he hne] at hparse
  injection hparse with hsorted
  rw [← tree_sorted d, ← hsorted, tree_sorted]

/-- Exact documents in order that are written alike are one document. -/
theorem eq_of_canonical_eq {layout : Layout} {d e : Document} (hd : d.Exact) (he : e.Exact)
    (hod : d.Ordered) (hoe : e.Ordered) (hnd : d.nesting ≤ maxDepth) (hne : e.nesting ≤ maxDepth)
    (h : d.canonical layout = e.canonical layout) : d = e :=
  hod.eq_of_tree hoe ((canonical_eq_iff hd he hnd hne).mp h)

/--
**Canonical bytes are read back as the document they were written from**, in either layout:
whatever its strings and names hold, and down to the last level that a reader goes. Members
are in order in every document that was read or put together; the numbers must be integers.
-/
theorem read_canonical_bytes (layout : Layout) {doc : Document} (hexact : doc.Exact)
    (hordered : doc.Ordered) (hnesting : doc.nesting ≤ maxDepth) :
    read (Symbol.ofBytes (doc.canonical layout).toUTF8) = .ok doc := by
  rw [Symbol.ofBytes_toUTF8]
  exact hordered.parse_canonical layout hexact hnesting

/-- A document with the extreme integers, escapes of every kind and empty containers. -/
theorem read_canonical_bytes_extremes :
    let doc : Document := .object [
      ("\x00\"\\\n", .array [.number (.integer 18446744073709551615),
        .number (.integer (-9223372036854775808)), .array [],
        .object [("", .string "\t\x1f\x7f😀")]]),
      ("b", .object [])]
    doc.Exact ∧ doc.Ordered ∧ doc.nesting ≤ maxDepth
      ∧ read (Symbol.ofBytes (doc.canonical .pretty).toUTF8) = .ok doc := by
  intro doc
  have hexact : doc.Exact := by decide
  have hordered : doc.Ordered := by decide
  have hnesting : doc.nesting ≤ maxDepth := by decide
  exact ⟨hexact, hordered, hnesting, read_canonical_bytes .pretty hexact hordered hnesting⟩

end Document

end ChainGenesis
