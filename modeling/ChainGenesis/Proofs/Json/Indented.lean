import ChainGenesis.Proofs.Json.RoundTrip

/-!
# A two-space text is read back

The two-space layout differs from the pretty one in what stands around the items of an array, which
is white space. So its text has the same tree as a canonical one, and reading it gives the document
back.
-/

namespace ChainGenesis

open Grammar

namespace Grammar

theorem follows_writeIndentedItems (depth : Nat) (items : List Document) (rest : List Symbol) :
    Follows (chars (Document.writeIndentedItems depth items) ++ rest) := by
  cases items with
  | nil => exact @follows_cons '\n' _ (by decide)
  | cons item items => exact @follows_cons ',' _ (by decide)

theorem follows_writeIndentedMembers (depth : Nat) (members : List (String × Document))
    (rest : List Symbol) :
    Follows (chars (Document.writeIndentedMembers depth members) ++ rest) := by
  cases members with
  | nil => exact @follows_cons '\n' _ (by decide)
  | cons member members => exact @follows_cons ',' _ (by decide)

/-- White space stands before an item, and before the bracket behind the last one. -/
theorem blanks_indentedLine (depth : Nat) (text : List Char) (rest : List Symbol) :
    Blanks (chars (Document.indentedLine depth ++ text) ++ rest) (chars text ++ rest) := by
  rw [chars_append, List.append_assoc]
  exact blanks_lineBreak .pretty depth _

mutual

/-- What the two-space writer writes of a document is the document's tree. -/
theorem value_writeIndented : ∀ (depth : Nat) {doc : Document} {rest : List Symbol},
    doc.Exact → Follows rest → Value (chars (doc.writeIndented depth) ++ rest) doc.written rest
  | _, .null, _, _, _ => .null
  | _, .bool true, _, _, _ => .yes
  | _, .bool false, _, _, _ => .no
  | _, .number (.integer value), _, _, hf => .number (signed_text value hf)
  | _, .number (.double _), _, he, _ => absurd he (by simp [Document.Exact])
  | _, .string text, rest, _, _ => by
      obtain ⟨inner, heq, hl⟩ := literal_json text rest
      rw [Document.writeIndented, heq]
      exact .string hl
  | _, .array [], _, _, _ => .noItems .done
  | depth, .array (item :: items), rest, he, _ => by
      have hv := value_writeIndented (depth + 1) he.1 (follows_writeIndentedItems depth items rest)
      have hb := blanks_indentedLine (depth + 1) (item.writeIndented (depth + 1))
        (chars (Document.writeIndentedItems depth items) ++ rest)
      have hi := items_writeIndented hb hv he.2
      rw [← List.append_assoc, ← chars_append] at hi
      exact .array hi
  | _, .object [], _, _, _ => .noMembers .done
  | depth, .object ((name, value) :: members), rest, he, _ => by
      have hv := value_writeIndented (depth + 1) he.1
        (follows_writeIndentedMembers depth members rest)
      obtain ⟨t1, t2, t3, hq, hl, hc, hb⟩ := name_write .pretty (depth + 1) name
        (chars (value.writeIndented (depth + 1))
          ++ (chars (Document.writeIndentedMembers depth members) ++ rest))
      have hm := members_writeIndented hq hl hc hb hv he.2
      rw [← List.append_assoc, ← List.append_assoc, ← chars_append, ← chars_append] at hm
      exact .object hm

/-- Behind an item the rest of the array follows. -/
theorem items_writeIndented : ∀ {others : List Document} {depth : Nat}
    {text front rest : List Symbol} {item : Written}, Blanks text front →
    Value front item (chars (Document.writeIndentedItems depth others) ++ rest) →
    Document.ExactItems others → Items text (item :: Document.writtenItems others) rest
  | [], depth, _, _, rest, _, hb, hv, _ => .last hb hv (blanks_indentedLine depth [']'] rest)
  | next :: others, depth, _, _, rest, _, hb, hv, he => by
      have hv' := value_writeIndented (depth + 1) he.1
        (follows_writeIndentedItems depth others rest)
      have hb' := blanks_indentedLine (depth + 1) (next.writeIndented (depth + 1))
        (chars (Document.writeIndentedItems depth others) ++ rest)
      have hi := items_writeIndented hb' hv' he.2
      rw [← List.append_assoc, ← chars_append] at hi
      exact .more hb hv .done hi

/-- Behind the value of a member the rest of the object follows. -/
theorem members_writeIndented : ∀ {others : List (String × Document)} {depth : Nat}
    {text t1 t2 t3 front rest : List Symbol} {name : StringLiteral} {value : Written},
    Blanks text (.char '"' :: t1) → Literal t1 name t2 → Blanks t2 (.char ':' :: t3) →
    Blanks t3 front →
    Value front value (chars (Document.writeIndentedMembers depth others) ++ rest) →
    Document.ExactMembers others →
    Members text ((name, value) :: Document.writtenMembers others) rest
  | [], depth, _, _, _, _, _, rest, _, _, hq, hl, hc, hb, hv, _ =>
      .last hq hl hc hb hv (blanks_indentedLine depth ['\x7d'] rest)
  | (next, nextValue) :: others, depth, _, _, _, _, _, rest, _, _, hq, hl, hc, hb, hv, he => by
      have hv' := value_writeIndented (depth + 1) he.1
        (follows_writeIndentedMembers depth others rest)
      obtain ⟨u1, u2, u3, hq', hl', hc', hb'⟩ := name_write .pretty (depth + 1) next
        (chars (nextValue.writeIndented (depth + 1))
          ++ (chars (Document.writeIndentedMembers depth others) ++ rest))
      have hm := members_writeIndented hq' hl' hc' hb' hv' he.2
      rw [← List.append_assoc, ← List.append_assoc, ← chars_append, ← chars_append] at hm
      exact .more hq hl hc hb hv .done hm

end

/-- **A two-space text on a line of its own writes the tree of its document.** -/
theorem spells_indented {doc : Document} (h : doc.Exact) :
    Spells (Symbol.ofString (doc.indented ++ "\n")) doc.written := by
  have hv := value_writeIndented 0 h (@follows_cons '\n' [] (by decide))
  refine .mk .done ?_ (@Blanks.step (.char '\n') _ _ (by decide) .done)
  rw [Symbol.ofString, Document.indented, String.toList_append, String.toList_ofList,
    List.map_append]
  exact hv

end Grammar

/-- **A two-space text on a line of its own is read as its document.** -/
theorem Document.parse_indented {doc : Document} (hexact : doc.Exact) (hordered : doc.Ordered)
    (hnesting : doc.nesting ≤ maxDepth) : parse (doc.indented ++ "\n") = .ok doc :=
  read_eq_ok_iff.mpr ⟨doc.written, ofSymbols_eq (spells_indented hexact),
    ofWritten_written hexact hordered hnesting⟩

end ChainGenesis
