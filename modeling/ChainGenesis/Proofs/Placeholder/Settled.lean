import ChainGenesis.Proofs.Placeholder.Filled

/-!
# What a strict resolution leaves

A strict resolution replaces every token, but replacement texts are not looked into again, so
tokens can be there afterwards. Replacements without braces bring none along. Still, braces that
belong to no token can close around what tokens were replaced by: in `{{{{X}}}}` the inner four
braces are the token's, and the outer four make another token of its replacement. This
is the only way, and a document that has no such string is settled for good: no later resolution
finds anything to do.
-/

namespace ChainGenesis

namespace Placeholder

/-! ## Strings without tokens -/

theorem tokenless_of_plain {text : List Char} (h : '\x7b' ∉ text) : Tokenless text :=
  fun _ _ hwithin => h (hwithin.subset List.mem_cons_self)

theorem Tokenless.exact {text : List Char} (h : Tokenless text) : (Split.mk text []).Exact :=
  ⟨List.forall_mem_nil _, h, List.forall_mem_nil _⟩

theorem Split.text_front (front : List Char) : (Split.mk front []).text = front :=
  List.append_nil front

theorem fill_of_tokenless (values : Values) {text : String} (h : Tokenless text.toList) :
    fill values text = .string text := by
  have hplain := (becomes_iff h.exact (Split.text_front _)).mp
    (@Split.Becomes.plain values text.toList)
  rw [← hplain, String.ofList_toList]

/-- A string has no names in it if and only if it has no tokens. -/
theorem names_eq_nil_iff {text : String} : names text = [] ↔ Tokenless text.toList := by
  obtain ⟨split, ⟨hexact, htext⟩, _⟩ := existsUnique_split text.toList
  constructor
  · intro h
    obtain ⟨front, tokens⟩ := split
    rw [names_eq hexact htext, Split.names, List.map_eq_nil_iff] at h
    dsimp only at h
    rw [h, Split.text_front] at htext
    exact htext ▸ hexact.front
  · intro h
    exact names_eq h.exact (Split.text_front _)

/-! ## Replacements without braces -/

/-- No brace stands in a text. -/
def Braceless (text : String) : Prop := '\x7b' ∉ text.toList ∧ '\x7d' ∉ text.toList

/-- No replacement has a brace in it, nor in a string that it has as JSON. -/
def NoBraces (values : Values) : Prop :=
  ∀ name value, Named.lookup? name values = some value → Braceless value ∧
    ∀ doc, Document.parse value = .ok doc → ∀ text, doc.HasString text → Braceless text

theorem tokenless_of_meaning {values : Values} (h : NoBraces values) {name value text : String}
    (hvalue : Named.lookup? name values = some value) (htext : (meaning value).HasString text) :
    Tokenless text.toList := by
  obtain ⟨hbare, hread⟩ := h name value hvalue
  cases hparse : Document.parse value with
  | ok doc =>
      rw [meaning_of_parse hparse] at htext
      exact tokenless_of_plain (hread doc hparse text htext).1
  | error fault =>
      rw [meaning_of_error hparse, Document.hasString_string_iff] at htext
      exact tokenless_of_plain (htext ▸ hbare.1)

/-! ## Where the braces come from -/

/-- Every brace in what becomes of some parts is one of the parts. -/
def OwnBraces (values : Values) (found : List Part) : Prop :=
  ∀ part ∈ found, ∀ c, c = '\x7b' ∨ c = '\x7d' → c ∈ part.fill values → part = .char c

theorem OwnBraces.tail {values : Values} {part : Part} {rest : List Part}
    (h : OwnBraces values (part :: rest)) : OwnBraces values rest :=
  fun other hmem => h other (List.mem_cons_of_mem part hmem)

/-- Braces come from no token that has a replacement. -/
theorem ownBraces {values : Values} (h : NoBraces values) {found : List Part}
    (hmapped : ∀ name, .token name ∈ found →
      Named.lookup? (String.ofList name) values ≠ none) : OwnBraces values found := by
  intro part hmem c hc hfill
  cases part with
  | char d =>
      rw [List.mem_singleton.mp hfill]
  | token name =>
      obtain ⟨value, hvalue⟩ := Option.ne_none_iff_exists'.mp (hmapped name hmem)
      rw [Part.fill, hvalue] at hfill
      obtain ⟨hopen, hclose⟩ := (h _ _ hvalue).1
      rcases hc with rfl | rfl
      · exact absurd hfill hopen
      · exact absurd hfill hclose

/-- **A brace in what becomes of some parts is found among the parts**, with what is before it in
what becomes of the parts before, and the same behind. -/
theorem exists_of_flatMap_eq {values : Values} {found : List Part} {c : Char}
    (before : List Char) {behind : List Char} (h : OwnBraces values found)
    (hc : c = '\x7b' ∨ c = '\x7d')
    (heq : found.flatMap (Part.fill values) = before ++ c :: behind) :
    ∃ front rest, found = front ++ .char c :: rest
      ∧ front.flatMap (Part.fill values) = before ∧ rest.flatMap (Part.fill values) = behind
      ∧ OwnBraces values rest := by
  induction found generalizing before with
  | nil =>
      rw [List.flatMap_nil] at heq
      exact absurd heq (by simp)
  | cons part found ih =>
      rw [List.flatMap_cons] at heq
      rcases List.append_eq_append_iff.mp heq with ⟨more, rfl, hrest⟩ | ⟨more, hpart, hrest⟩
      · obtain ⟨front, rest, rfl, rfl, hbehind⟩ := ih more h.tail hrest
        exact ⟨part :: front, rest, rfl, List.flatMap_cons .., hbehind⟩
      · cases more with
        | nil =>
            rw [List.append_nil] at hpart
            obtain ⟨front, rest, rfl, hfront, hbehind⟩ := ih [] h.tail hrest.symm
            refine ⟨part :: front, rest, rfl, ?_, hbehind⟩
            rw [List.flatMap_cons, hfront, hpart, List.append_nil]
        | cons d more =>
            -- the brace is in what becomes of this part, so it is this part
            injection hrest with hd hrest
            have hmem : c ∈ part.fill values := by
              rw [hpart, hd]
              exact List.mem_append_right _ List.mem_cons_self
            obtain rfl := h part List.mem_cons_self c hc hmem
            obtain ⟨rfl, hmore⟩ | ⟨_, hmore⟩ := List.singleton_eq_append_iff.mp hpart
            · injection hmore with _ hmore
              rw [hrest, hmore]
              exact ⟨[], found, rfl, rfl, rfl, h.tail⟩
            · exact absurd hmore (List.cons_ne_nil _ _)

/-- Four braces of a text that belong to no token enclose a name once the tokens are replaced. -/
def Encloses (values : Values) (text : List Char) : Prop :=
  ∃ before opening name closing behind, parts text
      = before ++ .char '\x7b' :: opening ++ .char '\x7b' :: name ++ .char '\x7d' :: closing
        ++ .char '\x7d' :: behind
    ∧ opening.flatMap (Part.fill values) = []
    ∧ IsName (name.flatMap (Part.fill values))
    ∧ closing.flatMap (Part.fill values) = []

/-- **Four braces of the text enclose the name of every token that is there afterwards.** -/
theorem encloses_of_token {values : Values} {text name : List Char}
    (h : OwnBraces values (parts text)) (hname : IsName name)
    (hwithin : marked name <:+: (parts text).flatMap (Part.fill values)) :
    Encloses values text := by
  obtain ⟨before, behind, heq⟩ := hwithin
  have hfilled : (parts text).flatMap (Part.fill values)
      = before ++ '\x7b' :: '\x7b' :: (name ++ '\x7d' :: '\x7d' :: behind) := by
    rw [← heq, marked]
    simp
  -- the braces are found one after the other, each behind the last
  obtain ⟨front, rest, hparts, _, hfilled, h⟩ := exists_of_flatMap_eq _ h (.inl rfl) hfilled
  obtain ⟨opening, rest, rfl, hopening, hfilled, h⟩ :=
    exists_of_flatMap_eq [] h (.inl rfl) hfilled
  obtain ⟨inner, rest, rfl, rfl, hfilled, h⟩ := exists_of_flatMap_eq _ h (.inr rfl) hfilled
  obtain ⟨closing, rest, rfl, hclosing, _⟩ :=
    exists_of_flatMap_eq [] h (.inr rfl) hfilled
  refine ⟨front, opening, inner, closing, rest, ?_, hopening, hname, hclosing⟩
  rw [hparts]
  simp

/-- And where four braces of the text enclose a name afterwards, there is a token. -/
theorem Encloses.exists_token {values : Values} {text : List Char} (h : Encloses values text) :
    ∃ name, IsName name
      ∧ marked name <:+: (parts text).flatMap (Part.fill values) := by
  obtain ⟨before, opening, inner, closing, behind, hparts, hopening, hname, hclosing⟩ := h
  refine ⟨_, hname, before.flatMap (Part.fill values), behind.flatMap (Part.fill values), ?_⟩
  rw [hparts, marked]
  simp [Part.fill, hopening, hclosing]

/-- A string with fewer than two braces of a kind beside its tokens has none that enclose. -/
theorem Encloses.two_le_count {values : Values} {text : List Char} (h : Encloses values text) :
    2 ≤ (parts text).count (.char '\x7b') ∧ 2 ≤ (parts text).count (.char '\x7d') := by
  obtain ⟨before, opening, inner, closing, behind, hparts, _⟩ := h
  rw [hparts]
  simp only [List.count_append, List.count_cons_self, List.count_cons]
  constructor <;> omega

/-- **A string has a token afterwards if and only if four of its braces enclose a name then.** -/
theorem encloses_iff {values : Values} (h : NoBraces values) {text : String}
    (hmapped : ∀ name, .token name ∈ parts text.toList →
      Named.lookup? (String.ofList name) values ≠ none) :
    Encloses values text.toList
      ↔ ∃ found, (fill values text).HasString found ∧ ¬ Tokenless found.toList := by
  by_cases hone : ∃ name, parts text.toList = [.token name]
  · -- one token becomes what its replacement says, and there is no brace around it
    obtain ⟨name, hparts⟩ := hone
    constructor
    · rintro ⟨before, opening, inner, closing, behind, hbraces, _⟩
      have hlength := congrArg List.length (hparts.symm.trans hbraces)
      simp at hlength
      omega
    · rintro ⟨found, hfound, htoken⟩
      obtain ⟨value, hvalue⟩ := Option.ne_none_iff_exists'.mp
        (hmapped name (hparts ▸ List.mem_cons_self))
      rw [fill_of_parts_token hparts hvalue] at hfound
      exact absurd (tokenless_of_meaning h hvalue hfound) htoken
  · rw [not_exists] at hone
    rw [fill_of_parts values hone]
    constructor
    · intro hencloses
      obtain ⟨name, hname, hwithin⟩ := hencloses.exists_token
      refine ⟨_, .string _, fun htokenless => htokenless name hname ?_⟩
      rw [String.toList_ofList]
      exact hwithin
    · rintro ⟨found, hfound, htoken⟩
      rw [Document.hasString_string_iff.mp hfound, String.toList_ofList] at htoken
      simp only [Tokenless, not_forall, Decidable.not_not] at htoken
      obtain ⟨name, hname, hwithin⟩ := htoken
      exact encloses_of_token (ownBraces h hmapped) hname hwithin

end Placeholder

/-! ## Documents -/

namespace Document

open Placeholder (Values)

/-- No string of a document has a token in it. -/
def Settled (doc : Document) : Prop :=
  ∀ text, doc.HasString text → Placeholder.Tokenless text.toList

theorem fill_of_settled (values : Values) {doc : Document} (h : doc.Settled) :
    doc.fill values = doc := by
  induction doc using nested_induction with
  | null | bool _ | number _ => rfl
  | string text =>
      rw [fill]
      exact Placeholder.fill_of_tokenless values (h text (.string text))
  | array items ih =>
      have hitems : ∀ item ∈ items, item.fill values = id item := fun item hmem =>
        ih item hmem fun text htext => h text (.item hmem htext)
      rw [fill, fillItems_eq_map, List.map_congr_left hitems, List.map_id]
  | object members ih =>
      have hmembers : ∀ member ∈ members, (member.1, member.2.fill values) = id member :=
        fun member hmem => Prod.ext rfl
          (ih member hmem fun text htext => h text (.member hmem htext))
      rw [fill, fillMembers_eq_map, List.map_congr_left hmembers, List.map_id]

/-- A document without tokens is settled. -/
theorem settled_of_tokens {doc : Document} (h : doc.tokens = []) : doc.Settled := by
  intro text htext
  refine Placeholder.names_eq_nil_iff.mp (List.eq_nil_iff_forall_not_mem.mpr fun name hname => ?_)
  have hmem := mem_tokens_iff.mpr ⟨text, htext, hname⟩
  rw [h] at hmem
  exact absurd hmem List.not_mem_nil

/-- **A document is settled if and only if no resolution finds anything to do.** -/
theorem settled_iff {doc : Document} :
    doc.Settled ↔ ∀ values strict, resolve values strict doc = .ok ⟨doc, []⟩ := by
  constructor
  · intro h values strict
    have hnone : doc.unresolved values = [] := by
      refine unresolved_eq_nil_iff.mpr fun text htext name hname => ?_
      rw [Placeholder.names_eq_nil_iff.mpr (h text htext)] at hname
      exact absurd hname List.not_mem_nil
    exact resolve_eq_ok_iff.mpr ⟨.inr hnone, by rw [fill_of_settled values h, hnone]⟩
  · intro h text htext
    -- where no name has a replacement all names are left over
    obtain ⟨_, hsame⟩ := resolve_eq_ok_iff.mp (h [] false)
    injection hsame with _ hnone
    refine Placeholder.names_eq_nil_iff.mp (List.eq_nil_iff_forall_not_mem.mpr fun name hname => ?_)
    exact unresolved_eq_nil_iff.mp hnone.symm text htext name hname rfl

/-- Where nothing is left over every token has a replacement. -/
theorem lookup?_of_unresolved_eq_nil {values : Values} {doc : Document}
    (h : doc.unresolved values = []) {text : String} (htext : doc.HasString text)
    {name : List Char} (hname : .token name ∈ Placeholder.parts text.toList) :
    Named.lookup? (String.ofList name) values ≠ none :=
  unresolved_eq_nil_iff.mp h text htext _ (List.mem_filterMap.mpr ⟨.token name, hname, rfl⟩)

end Document

/-! ## Strict resolutions -/

/--
**A strict resolution settles a document unless braces close in on replacements.** If no
replacement has a brace in it, then no string has a token afterwards, and no later resolution
finds anything to do, if and only if no string of the document has four braces, in none of its
tokens, that enclose a name once the tokens are replaced.
-/
theorem settled_of_strict_iff {values : Placeholder.Values} {doc : Document} {resolved : Resolved}
    (hvalues : Placeholder.NoBraces values) (h : resolve values true doc = .ok resolved) :
    (resolved.document.Settled
        ↔ ∀ text, doc.HasString text → ¬ Placeholder.Encloses values text.toList)
      ∧ (resolved.document.Settled ↔ ∀ others strict,
        resolve others strict resolved.document = .ok ⟨resolved.document, []⟩) := by
  obtain ⟨hstrict, rfl⟩ := resolve_eq_ok_iff.mp h
  have hnone : doc.unresolved values = [] := hstrict.resolve_left (by simp)
  have hencloses : ∀ text, doc.HasString text → (Placeholder.Encloses values text.toList
      ↔ ∃ found, (Placeholder.fill values text).HasString found
        ∧ ¬ Placeholder.Tokenless found.toList) := fun text htext =>
    Placeholder.encloses_iff hvalues fun _ => Document.lookup?_of_unresolved_eq_nil hnone htext
  refine ⟨⟨fun hsettled text htext hbraces => ?_, fun hfree found hfound => ?_⟩,
    Document.settled_iff⟩
  · obtain ⟨found, hfound, htoken⟩ := (hencloses text htext).mp hbraces
    exact htoken (hsettled found ((Document.hasString_fill_iff values).mpr ⟨text, htext, hfound⟩))
  · obtain ⟨text, htext, hfound⟩ := (Document.hasString_fill_iff values).mp hfound
    by_contra htoken
    exact hfree text htext ((hencloses text htext).mpr ⟨found, hfound, htoken⟩)

/-- Braces around one token, a token that becomes an array, and braces without a token. -/
theorem settled_of_strict_iff_nested :
    let values : Placeholder.Values := [("A", "[\"x\"]"), ("B", "Y")]
    let doc := Document.object [("a", .string "\x7b\x7b\x7bB\x7d\x7d\x7d-\x7b\x7bB\x7d\x7d"),
      ("b", .array [.string "\x7b\x7bA\x7d\x7d", .string "\x7d\x7b"])]
    let found := Document.object [("a", .string "\x7bY\x7d-Y"),
      ("b", .array [.array [.string "x"], .string "\x7d\x7b"])]
    Placeholder.NoBraces values ∧ resolve values true doc = .ok ⟨found, []⟩ ∧ found.Settled
      ∧ ∀ others strict, resolve others strict found = .ok ⟨found, []⟩ := by
  intro values doc found
  have hvalues : Placeholder.NoBraces values := by
    intro name value hvalue
    have hmem := Named.mem_of_lookup? hvalue
    simp only [values, List.mem_cons, Prod.mk.injEq, List.not_mem_nil, or_false] at hmem
    rcases hmem with ⟨rfl, rfl⟩ | ⟨rfl, rfl⟩
    · have hparse : Document.parse "[\"x\"]" = .ok (.array [.string "x"]) :=
        @Document.parse_write .compact (.array [.string "x"]) ⟨trivial, trivial⟩
          ⟨trivial, trivial⟩ (by decide)
      refine ⟨⟨by decide, by decide⟩, fun read hread text htext => ?_⟩
      obtain rfl := Except.ok.inj (hread.symm.trans hparse)
      obtain ⟨item, hitem, htext⟩ := Document.hasString_array_iff.mp htext
      rw [List.mem_singleton.mp hitem, Document.hasString_string_iff] at htext
      exact htext ▸ ⟨by decide, by decide⟩
    · have hparse : Document.parse "Y" = .error .malformed := rfl
      refine ⟨⟨by decide, by decide⟩, fun read hread => ?_⟩
      exact absurd (hparse.symm.trans hread) (by simp)
  have hresolve : resolve values true doc = .ok ⟨found, []⟩ := by with_unfolding_all rfl
  have hstrings : ∀ text, doc.HasString text →
      (Placeholder.parts text.toList).count (.char '\x7b') < 2 := by
    intro text htext
    simp only [doc, Document.hasString_object_iff, Document.hasString_array_iff,
      List.exists_mem_cons_iff, Document.hasString_string_iff] at htext
    rcases htext with rfl | (rfl | rfl | ⟨_, h, _⟩) | ⟨_, h, _⟩
    · decide +kernel
    · decide +kernel
    · decide +kernel
    · exact absurd h List.not_mem_nil
    · exact absurd h List.not_mem_nil
  obtain ⟨hsettled, hlater⟩ := settled_of_strict_iff hvalues hresolve
  have hfound : found.Settled := hsettled.mpr fun text htext hencloses =>
    absurd (hstrings text htext) (Nat.not_lt.mpr hencloses.two_le_count.1)
  exact ⟨hvalues, hresolve, hfound, hlater.mp hfound⟩

/-- **A strict resolution can leave a token behind**: the braces around a token close in on its
replacement. -/
theorem replacement_enclosed :
    let values : Placeholder.Values := [("X", "A")]
    let found := Document.string "\x7b\x7bA\x7d\x7d"
    Placeholder.NoBraces values
      ∧ resolve values true (.string "\x7b\x7b\x7b\x7bX\x7d\x7d\x7d\x7d") = .ok ⟨found, []⟩
      ∧ ¬ found.Settled
      ∧ resolve [] false found = .ok ⟨found, ["A"]⟩
      ∧ resolve [("A", "B")] false found = .ok ⟨.string "B", []⟩ := by
  intro values found
  refine ⟨fun name value hvalue => ?_, by with_unfolding_all rfl, fun hsettled => ?_,
    by with_unfolding_all rfl, by with_unfolding_all rfl⟩
  · obtain ⟨rfl, rfl⟩ := Prod.mk.inj (List.mem_singleton.mp (Named.mem_of_lookup? hvalue))
    have hparse : Document.parse "A" = .error .malformed := rfl
    refine ⟨⟨by decide, by decide⟩, fun read hread => ?_⟩
    exact absurd (hparse.symm.trans hread) (by simp)
  · have hname : Placeholder.IsName ['A'] := by decide
    exact hsettled _ (.string _) ['A'] hname ⟨[], [], rfl⟩

end ChainGenesis
