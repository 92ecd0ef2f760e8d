import ChainGenesis.Proofs.Placeholder.Split
import Mathlib.Data.List.Forall2

/-!
# What a resolution makes of a document

A string is cut at its tokens, and the cut says what becomes of it: nothing happens to a string
without a token, a string that is one token becomes what its replacement says, and in any other
string each token gives way to its replacement text, or stays. A document keeps its shape, and
only its strings are replaced. The names that are left over are those of the tokens in its
strings that have no replacement, and a strict resolution fails exactly if there are any.
-/

namespace ChainGenesis

/-! ## Strings -/

namespace Placeholder

/-- What becomes of a string that is cut at every token. -/
inductive Split.Becomes (values : Values) : Split → Document → Prop where
  /-- A string without a token stays. -/
  | plain (front : List Char) : Becomes values ⟨front, []⟩ (.string (String.ofList front))
  /-- A token alone becomes what its replacement is the JSON text of. -/
  | typed {name : List Char} {value : String} {doc : Document} :
      Named.lookup? (String.ofList name) values = some value → Document.parse value = .ok doc →
      Becomes values ⟨[], [(name, [])]⟩ doc
  /-- A token alone becomes its replacement text if that is no JSON. -/
  | literal {name : List Char} {value : String} {fault : Fault} :
      Named.lookup? (String.ofList name) values = some value →
      Document.parse value = .error fault →
      Becomes values ⟨[], [(name, [])]⟩ (.string value)
  /-- A token alone stays if it has no replacement. -/
  | left {name : List Char} : Named.lookup? (String.ofList name) values = none →
      Becomes values ⟨[], [(name, [])]⟩ (.string (String.ofList (marked name)))
  /-- In a longer string each token gives way to its replacement text, or stays. -/
  | mixed {split : Split} : split.tokens ≠ [] → (∀ name, split ≠ ⟨[], [(name, [])]⟩) →
      Becomes values split (.string (String.ofList (split.filled values)))

theorem Split.parts_injective : Function.Injective Split.parts :=
  Function.LeftInverse.injective Split.ofParts_parts

/-- A string that is not one token is replaced piece by piece. -/
theorem fill_of_ne_token (values : Values) {text : String} {split : Split} (hexact : split.Exact)
    (htext : split.text = text.toList) (h : ∀ name, split ≠ ⟨[], [(name, [])]⟩) :
    fill values text = .string (String.ofList (split.filled values)) := by
  have hparts : parts text.toList = split.parts := htext ▸ hexact.parts_text
  rw [fill_of_parts, hparts, Split.flatMap_parts (Part.fill values) fun _ => rfl]
  · rfl
  · intro name heq
    have hone : (Split.mk [] [(name, [])]).parts = [.token name] := rfl
    exact h name (Split.parts_injective ((hparts.symm.trans heq).trans hone.symm))

/-- A token alone becomes what the string of its text is filled in with. -/
theorem becomes_token_iff {values : Values} {name : List Char} {found : Document}
    (h : IsName name) :
    Split.Becomes values ⟨[], [(name, [])]⟩ found
      ↔ found = fill values (String.ofList (marked name)) := by
  cases hvalue : Named.lookup? (String.ofList name) values with
  | none =>
      rw [fill_marked_left h hvalue]
      constructor
      · intro hfound
        cases hfound with
        | left _ => rfl
        | typed hsome _ | literal hsome _ => exact absurd (hvalue.symm.trans hsome) (by simp)
        | mixed _ hne => exact absurd rfl (hne name)
      · rintro rfl
        exact .left hvalue
  | some value =>
      rw [fill_marked h hvalue]
      constructor
      · intro hfound
        cases hfound with
        | left hnone => exact absurd (hvalue.symm.trans hnone) (by simp)
        | typed hsome hparse =>
            injection hvalue.symm.trans hsome with hsame
            exact (meaning_of_parse (hsame ▸ hparse)).symm
        | literal hsome hparse =>
            injection hvalue.symm.trans hsome with hsame
            rw [hsame, meaning_of_error hparse]
        | mixed _ hne => exact absurd rfl (hne name)
      · rintro rfl
        cases hparse : Document.parse value with
        | ok doc =>
            rw [meaning_of_parse hparse]
            exact .typed hvalue hparse
        | error fault =>
            rw [meaning_of_error hparse]
            exact .literal hvalue hparse

/-- **The cut of a string says what becomes of it.** -/
theorem becomes_iff {values : Values} {text : String} {split : Split} {found : Document}
    (hexact : split.Exact) (htext : split.text = text.toList) :
    split.Becomes values found ↔ found = fill values text := by
  by_cases hone : ∃ name, split = ⟨[], [(name, [])]⟩
  · obtain ⟨name, rfl⟩ := hone
    have hwhole : text = String.ofList (marked name) := by
      rw [← String.ofList_toList (s := text), ← htext, Split.text_cons]
      exact congrArg String.ofList (List.append_nil _)
    rw [hwhole]
    exact becomes_token_iff (hexact.named _ List.mem_cons_self)
  · rw [not_exists] at hone
    rw [fill_of_ne_token values hexact htext hone]
    have hplain : ∀ front, (Split.mk front []).filled values = front :=
      fun front => List.append_nil front
    constructor
    · intro hfound
      cases hfound with
      | plain front => rw [hplain]
      | mixed _ _ => rfl
      | typed _ _ | literal _ _ | left _ => exact absurd rfl (hone _)
    · rintro rfl
      by_cases htokens : split.tokens = []
      · obtain ⟨front, tokens⟩ := split
        subst htokens
        rw [hplain]
        exact .plain front
      · exact .mixed htokens hone

/-- The names in a string are those of the tokens at which it is cut. -/
theorem names_eq {text : String} {split : Split} (hexact : split.Exact)
    (htext : split.text = text.toList) : names text = split.names := by
  rw [names, ← htext, hexact.parts_text, Split.filterMap_parts _ fun _ => rfl, Split.names]
  exact congrFun List.filterMap_eq_map split.tokens

end Placeholder

/-! ## Documents -/

namespace Document

open Placeholder (Values Split)

/-- What becomes of a document: its strings are replaced and nothing else. -/
inductive Filled (values : Values) : Document → Document → Prop where
  | null : Filled values .null .null
  | bool (value : Bool) : Filled values (.bool value) (.bool value)
  | number (value : Number) : Filled values (.number value) (.number value)
  | string {text : String} {split : Split} {found : Document} : split.Exact →
      split.text = text.toList → split.Becomes values found → Filled values (.string text) found
  | array {items found : List Document} :
      List.Forall₂ (Filled values) items found → Filled values (.array items) (.array found)
  | object {members found : List (String × Document)} :
      found.map Prod.fst = members.map Prod.fst →
      List.Forall₂ (Filled values) (members.map Prod.snd) (found.map Prod.snd) →
      Filled values (.object members) (.object found)

/-- Lists are related item by item if and only if the second is made from the first item by item,
where each item is related to what is made from it. -/
theorem forall₂_iff_eq_map {α β : Type} {R : α → β → Prop} {f : α → β} {items : List α}
    (h : ∀ item ∈ items, ∀ other, R item other ↔ other = f item) {others : List β} :
    List.Forall₂ R items others ↔ others = items.map f := by
  constructor
  · intro hall
    induction hall with
    | nil => rfl
    | cons hfirst _ ih =>
        rw [List.forall_mem_cons] at h
        rw [(h.1 _).mp hfirst, ih h.2, List.map_cons]
  · rintro rfl
    rw [List.forall₂_map_right_iff, List.forall₂_same]
    exact fun item hmem => (h item hmem _).mpr rfl

/-- **What becomes of a document is the document filled in.** -/
theorem filled_iff {values : Values} {doc found : Document} :
    doc.Filled values found ↔ found = doc.fill values := by
  induction doc using nested_induction generalizing found with
  | null | bool _ | number _ =>
      constructor
      · intro h
        cases h
        rfl
      · rintro rfl
        constructor
  | string text =>
      rw [fill]
      constructor
      · intro h
        cases h with
        | string hexact htext hbecomes => exact (Placeholder.becomes_iff hexact htext).mp hbecomes
      · intro h
        obtain ⟨split, ⟨hexact, htext⟩, _⟩ := Placeholder.existsUnique_split text.toList
        exact .string hexact htext ((Placeholder.becomes_iff hexact htext).mpr h)
  | array items ih =>
      have hitems := @forall₂_iff_eq_map _ _ _ (fill values) items fun item hmem _ => ih item hmem
      rw [fill, fillItems_eq_map]
      constructor
      · intro h
        cases h with
        | array hall => exact congrArg _ (hitems.mp hall)
      · rintro rfl
        exact .array (hitems.mpr rfl)
  | object members ih =>
      have hvalues := @forall₂_iff_eq_map _ _ _ (fill values) (members.map Prod.snd)
        fun value hmem _ => by
          obtain ⟨member, hmember, rfl⟩ := List.mem_map.mp hmem
          exact ih member hmember
      rw [fill, fillMembers_eq_map]
      constructor
      · intro h
        cases h with
        | object hnames hall =>
            have hfound := List.zip_of_prod hnames (hvalues.mp hall)
            rw [hfound]
            refine congrArg _ (List.zip_of_prod ?_ ?_).symm
            · rw [List.map_map]; rfl
            · rw [List.map_map, List.map_map]; rfl
      · rintro rfl
        refine .object ?_ (hvalues.mpr ?_)
        · rw [List.map_map]; rfl
        · rw [List.map_map, List.map_map]; rfl

end Document

/-! ## Resolving -/

open Placeholder (Split)

/--
**A resolution replaces the tokens of a document and nothing else.** Every text is cut at its
tokens in one way, and by these cuts one document is what becomes of the document. Left over are,
in order and each once, the names of the tokens in its strings that have no replacement. A
resolution that is not strict gives both, and a strict one does if nothing is left over, and fails
with what is left over otherwise.
-/
theorem resolve_exact (values : Placeholder.Values) (doc : Document) :
    (∀ text : List Char, ∃! split : Split, split.Exact ∧ split.text = text)
      ∧ ∃ found names, (∀ other, doc.Filled values other ↔ other = found)
        ∧ names.Pairwise (· < ·)
        ∧ (∀ name, name ∈ names ↔ Named.lookup? name values = none
          ∧ ∃ (text : String) (split : Split), doc.HasString text
            ∧ split.Exact ∧ split.text = text.toList ∧ name ∈ split.names)
        ∧ resolve values false doc = .ok ⟨found, names⟩
        ∧ (names = [] → resolve values true doc = .ok ⟨found, names⟩)
        ∧ (names ≠ [] → resolve values true doc = .error names) := by
  refine ⟨Placeholder.existsUnique_split, doc.fill values, doc.unresolved values,
    fun _ => Document.filled_iff, Placeholder.pairwise_sortNames _, fun name => ?_, rfl, ?_, ?_⟩
  · rw [Document.mem_unresolved_iff, Document.mem_tokens_iff, and_comm]
    refine and_congr_right fun _ => ⟨?_, ?_⟩
    · rintro ⟨text, htext, hname⟩
      obtain ⟨split, ⟨hexact, hcut⟩, _⟩ := Placeholder.existsUnique_split text.toList
      exact ⟨text, split, htext, hexact, hcut, Placeholder.names_eq hexact hcut ▸ hname⟩
    · rintro ⟨text, split, htext, hexact, hcut, hname⟩
      exact ⟨text, htext, Placeholder.names_eq hexact hcut ▸ hname⟩
  · intro hnone
    exact resolve_eq_ok_iff.mpr ⟨.inr hnone, rfl⟩
  · exact resolve_of_unresolved

/-- A document with a string of each kind. One token stands in the name of a member. -/
def everyKind : Document := .object [
  ("mixed", .string "a \x7b\x7bA\x7d\x7d-\x7b\x7bB\x7d\x7d z"),
  ("open", .array [.string "\x7b\x7bB\x7d\x7d", .string "\x7b\x7bb\x7d\x7d", .null]),
  ("typed", .string "\x7b\x7bN\x7d\x7d"),
  ("untyped", .string "\x7b\x7bA\x7d\x7d"),
  ("\x7b\x7bA\x7d\x7d", .bool true)]

/-- What becomes of it. The replacement of one token has the other in it, which stays. -/
def everyKindFilled : Document := .object [
  ("mixed", .string "a -\x7b\x7bN\x7d\x7d--\x7b\x7bB\x7d\x7d z"),
  ("open", .array [.string "\x7b\x7bB\x7d\x7d", .string "\x7b\x7bb\x7d\x7d", .null]),
  ("typed", .number (.integer 7)),
  ("untyped", .string "-\x7b\x7bN\x7d\x7d-"),
  ("\x7b\x7bA\x7d\x7d", .bool true)]

theorem resolve_exact_everyKind :
    let values : Placeholder.Values := [("A", "-\x7b\x7bN\x7d\x7d-"), ("N", "7")]
    everyKind.Filled values everyKindFilled
      ∧ resolve values false everyKind = .ok ⟨everyKindFilled, ["B"]⟩
      ∧ resolve values true everyKind = .error ["B"] := by
  intro values
  obtain ⟨_, found, names, hfound, _, _, hopen, _, hstrict⟩ := resolve_exact values everyKind
  have hresolved : resolve values false everyKind = .ok ⟨everyKindFilled, ["B"]⟩ := by
    with_unfolding_all rfl
  obtain ⟨rfl, rfl⟩ : found = everyKindFilled ∧ names = ["B"] := by
    simpa using hopen.symm.trans hresolved
  exact ⟨(hfound _).mpr rfl, hresolved, hstrict (List.cons_ne_nil _ _)⟩

end ChainGenesis
