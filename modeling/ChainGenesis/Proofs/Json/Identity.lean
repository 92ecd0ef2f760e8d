import ChainGenesis.Digest
import ChainGenesis.Proofs.Json.Accepting
import ChainGenesis.Proofs.Json.RoundTrip
import ChainGenesis.Proofs.Json.Tree

/-!
# Canonical bytes identify what a text says

Texts that say the same have the same canonical bytes, and texts that say different things
never do. The first half is that a tree has one ordered document; the second is the round
trip. White space is not in the tree of a text at all, and that the order of members and the
spelling of strings do not matter either is `Rearranged.tree?_eq`.
-/

namespace ChainGenesis

open Grammar

/-- What a text of the grammar says. -/
def Says (text : List Symbol) (tree : Tree) : Prop :=
  ∃ written, Spells text written ∧ written.tree? = some tree

/-- A document that was read says what the text says, and nothing else is said by the text. -/
theorem says_iff {text : List Symbol} {doc : Document} (h : Document.read text = .ok doc)
    {tree : Tree} : Says text tree ↔ doc.tree = tree := by
  obtain ⟨written, hs, hd⟩ := Document.read_eq_ok_iff.mp h
  have htree := Document.tree?_of_ofWritten hd
  constructor
  · rintro ⟨other, hs', ht⟩
    have heq := (ofSymbols_eq hs').symm.trans hs
    injection heq with heq _
    rw [heq, htree] at ht
    injection ht
  · intro ht
    exact ⟨written, ofSymbols_eq_iff.mp hs, ht ▸ htree⟩

/-! ## Rearranging -/

namespace Written

/-- One written tree is another with members in another order and strings spelled otherwise.
Members of one name keep their order, as the last of them counts. -/
inductive Rearranged : Written → Written → Prop where
  | refl {w : Written} : Rearranged w w
  | trans {u v w : Written} : Rearranged u v → Rearranged v w → Rearranged u w
  | respelled {a b : StringLiteral} : a.text = b.text → Rearranged (.string a) (.string b)
  | item {v w : Written} {front back : List Written} {fault : Option Fault} :
      Rearranged v w →
      Rearranged (.array (front ++ v :: back) fault) (.array (front ++ w :: back) fault)
  | value {name : StringLiteral} {v w : Written} {front back : List (StringLiteral × Written)}
      {fault : Option Fault} : Rearranged v w →
      Rearranged (.object (front ++ (name, v) :: back) fault)
        (.object (front ++ (name, w) :: back) fault)
  | name {a b : StringLiteral} {v : Written} {front back : List (StringLiteral × Written)}
      {fault : Option Fault} : a.text = b.text →
      Rearranged (.object (front ++ (a, v) :: back) fault) (.object (front ++ (b, v) :: back) fault)
  | swap {a b : StringLiteral} {v w : Written} {front back : List (StringLiteral × Written)}
      {fault : Option Fault} : a.text ≠ b.text →
      Rearranged (.object (front ++ (a, v) :: (b, w) :: back) fault)
        (.object (front ++ (b, w) :: (a, v) :: back) fault)

/-- Items with one item replaced by another that says the same. -/
theorem treeOfItems?_replace {v w : Written} (h : v.tree? = w.tree?) (front back : List Written) :
    treeOfItems? (front ++ v :: back) = treeOfItems? (front ++ w :: back) := by
  induction front with
  | nil =>
      show treeOfItems? (v :: back) = treeOfItems? (w :: back)
      rw [treeOfItems?, treeOfItems?, h]
  | cons item front ih =>
      show treeOfItems? (item :: (front ++ v :: back)) = treeOfItems? (item :: (front ++ w :: back))
      rw [treeOfItems?, treeOfItems?, ih]

/-- What stands before does not matter. -/
theorem treeOfMembers?_append {rest others : List (StringLiteral × Written)}
    (h : treeOfMembers? rest = treeOfMembers? others) (front : List (StringLiteral × Written)) :
    treeOfMembers? (front ++ rest) = treeOfMembers? (front ++ others) := by
  induction front with
  | nil => exact h
  | cons member front ih =>
      obtain ⟨name, value⟩ := member
      show treeOfMembers? ((name, value) :: (front ++ rest))
        = treeOfMembers? ((name, value) :: (front ++ others))
      rw [treeOfMembers?, treeOfMembers?, ih]

/-- Of two values under different names it does not matter which is added first. -/
theorem or_or_comm {f : String → Option Tree} {a b : String} {v w : Tree} (h : a ≠ b) :
    (fun other => ((f other).or (if b = other then some w else none)).or
        (if a = other then some v else none))
      = fun other => ((f other).or (if a = other then some v else none)).or
        (if b = other then some w else none) := by
  funext other
  -- at most one of the two names is asked for
  by_cases ha : a = other
  · have hb : b ≠ other := fun hb => h (ha.trans hb.symm)
    rw [if_neg hb, Option.or_none, Option.or_none]
  · rw [if_neg ha, Option.or_none, Option.or_none]

theorem treeOfMembers?_swap {a b : StringLiteral} {v w : Written} (h : a.text ≠ b.text)
    (back : List (StringLiteral × Written)) :
    treeOfMembers? ((a, v) :: (b, w) :: back) = treeOfMembers? ((b, w) :: (a, v) :: back) := by
  simp only [treeOfMembers?]
  cases ha : a.text with
  | error fault => cases b.text <;> cases w.tree? <;> rfl
  | ok na =>
      cases hb : b.text with
      | error fault => cases v.tree? <;> rfl
      | ok nb =>
          have hne : na ≠ nb := fun heq => h (by rw [ha, hb, heq])
          cases v.tree? with
          | none => cases w.tree? <;> rfl
          | some tv =>
              cases w.tree? with
              | none => rfl
              | some tw =>
                  cases treeOfMembers? back with
                  | none => rfl
                  | some f => exact congrArg some (or_or_comm hne)

/-- **Rearranging a text does not change what it says.** -/
theorem Rearranged.tree?_eq {v w : Written} (h : Rearranged v w) : v.tree? = w.tree? := by
  induction h with
  | refl => rfl
  | trans _ _ ih ih' => exact ih.trans ih'
  | respelled h => rw [tree?, tree?, h]
  | @item v w front back fault _ ih =>
      cases fault with
      | none => rw [tree?, tree?, treeOfItems?_replace ih]
      | some fault => rfl
  | @value name v w front back fault _ ih =>
      cases fault with
      | none =>
          rw [tree?, tree?, treeOfMembers?_append]
          rw [treeOfMembers?, treeOfMembers?, ih]
      | some fault => rfl
  | @name a b v front back fault h =>
      cases fault with
      | none =>
          rw [tree?, tree?, treeOfMembers?_append]
          rw [treeOfMembers?, treeOfMembers?, h]
      | some fault => rfl
  | @swap a b v w front back fault h =>
      cases fault with
      | none => rw [tree?, tree?, treeOfMembers?_append (treeOfMembers?_swap h back)]
      | some fault => rfl

end Written

/-! ## Identity -/

namespace Document

/-- Two exact documents that were read have the same canonical bytes if and only if they are
one document. -/
theorem canonical_toUTF8_eq_iff {layout : Layout} {s t : List Symbol} {d e : Document}
    (hs : read s = .ok d) (ht : read t = .ok e) (hd : d.Exact) (he : e.Exact) :
    (d.canonical layout).toUTF8 = (e.canonical layout).toUTF8 ↔ d = e := by
  have hod := ordered_of_read hs
  have hoe := ordered_of_read ht
  constructor
  · intro h
    exact eq_of_canonical_eq hd he hod.1 hoe.1 hod.2 hoe.2 (String.toByteArray_inj.mp h)
  · rintro rfl
    rfl

/--
**Canonical bytes identify what a text says.** Of two texts that are read, with integers
for numbers, the canonical bytes are the same in a layout if and only if the texts say the
same. In particular they, and their digests, are the same if one text is the other with
members rearranged, strings respelled and white space anywhere.
-/
theorem canonical_bytes_identify (layout : Layout) {s t : List Symbol} {d e : Document}
    (hs : read s = .ok d) (ht : read t = .ok e) (hd : d.Exact) (he : e.Exact) :
    (∃ a, Says s a) ∧ (∃ b, Says t b)
    ∧ (∀ a b, Says s a → Says t b →
        ((d.canonical layout).toUTF8 = (e.canonical layout).toUTF8 ↔ a = b))
    ∧ (∀ v w, Spells s v → Spells t w → v.Rearranged w →
        (d.canonical layout).toUTF8 = (e.canonical layout).toUTF8
          ∧ Digest.ofText (d.canonical layout) = Digest.ofText (e.canonical layout)) := by
  have hod := ordered_of_read hs
  have hoe := ordered_of_read ht
  refine ⟨⟨d.tree, (says_iff hs).mpr rfl⟩, ⟨e.tree, (says_iff ht).mpr rfl⟩, ?_, ?_⟩
  · intro a b ha hb
    rw [← (says_iff hs).mp ha, ← (says_iff ht).mp hb, canonical_toUTF8_eq_iff hs ht hd he]
    exact ⟨congrArg tree, hod.1.eq_of_tree hoe.1⟩
  · intro v w hv hw hvw
    -- what the first text says is said by the second, so they were read as one document
    have hsame : Says t d.tree := by
      obtain ⟨v', hv', htree⟩ := (says_iff hs).mpr rfl
      have heq := (ofSymbols_eq hv').symm.trans (ofSymbols_eq hv)
      injection heq with heq _
      exact ⟨w, hw, by rw [← hvw.tree?_eq, ← heq, htree]⟩
    have hde : d = e := hod.1.eq_of_tree hoe.1 ((says_iff ht).mp hsame).symm
    rw [hde]
    exact ⟨rfl, rfl⟩

/-- A text with its members out of order, an escape where none is needed, and a space. -/
theorem spells_rearranged :
    Spells (Symbol.ofString "\x7b\"b\": \"\\u0078\",\"a\":1\x7d") (.object [
      (⟨[.char 'b'], none⟩, .string ⟨[.unit 0x78], none⟩),
      (⟨[.char 'a'], none⟩, .number (.ofInt 1))] none) := by
  have ha : Literal [.char 'a', .char '"', .char ':', .char '1', .char '\x7d'] ⟨[.char 'a'], none⟩
      [.char ':', .char '1', .char '\x7d'] :=
    .mk (.plain (by decide) (by decide) (by decide) .close)
  have hone : Value [.char '1', .char '\x7d'] (.number (.ofInt 1)) [.char '\x7d'] :=
    .number (signed_text 1 (follows_cons (by decide)))
  refine .mk .done (.object (.more .done (.mk (.plain ?_ ?_ ?_ .close)) .done (.step rfl .done)
    (.string (.mk (.unit rfl .close))) .done (.last .done ha .done .done hone .done))) .done
  all_goals decide

/-- Two texts that differ in the order of members, an escape and white space say the same. -/
theorem canonical_bytes_identify_rearranged :
    let doc : Document := .object [("a", .number (.integer 1)), ("b", .string "x")]
    read (Symbol.ofString (doc.canonical .compact)) = .ok doc
      ∧ read (Symbol.ofString "\x7b\"b\": \"\\u0078\",\"a\":1\x7d") = .ok doc
      ∧ doc.Exact
      ∧ ∀ a b, Says (Symbol.ofString (doc.canonical .compact)) a →
        Says (Symbol.ofString "\x7b\"b\": \"\\u0078\",\"a\":1\x7d") b → a = b := by
  intro doc
  have hexact : doc.Exact := by decide
  have hordered : doc.Ordered := by decide
  have hs := hordered.parse_canonical .compact hexact (by decide)
  have ht : read (Symbol.ofString "\x7b\"b\": \"\\u0078\",\"a\":1\x7d") = .ok doc :=
    read_eq_ok_iff.mpr ⟨_, ofSymbols_eq spells_rearranged, rfl⟩
  exact ⟨hs, ht, hexact, fun a b ha hb =>
    ((canonical_bytes_identify .pretty hs ht hexact hexact).2.2.1 a b ha hb).mp rfl⟩

end Document

end ChainGenesis
