import ChainGenesis.DocPath
import ChainGenesis.Placeholder
import ChainGenesis.Proofs.Json.RoundTrip
import ChainGenesis.Proofs.Paths

/-!
# What filling in does to a document

Filling in changes strings and nothing else, so every path leads to where it led before,
with its value filled in. A string that is one token becomes what the token's replacement
says: this is how a balance sheet that was written as text becomes an object again, and a
chain id a number.
-/

namespace ChainGenesis

/-! ## Tokens -/

namespace Placeholder

theorem takeWhile_token {name rest : List Char} (h : name.all isNameChar = true) :
    (name ++ '\x7d' :: rest).takeWhile isNameChar = name := by
  rw [List.takeWhile_append_of_pos (List.all_eq_true.mp h)]
  show name ++ [] = name
  rw [List.append_nil]

theorem dropWhile_token {name rest : List Char} (h : name.all isNameChar = true) :
    (name ++ '\x7d' :: rest).dropWhile isNameChar = '\x7d' :: rest := by
  rw [List.dropWhile_append_of_pos (List.all_eq_true.mp h)]
  rfl

/-- A token has a name of capital letters, digits and underscores. -/
def IsName (name : List Char) : Prop :=
  name ≠ [] ∧ ∀ c ∈ name, 'A' ≤ c ∧ c ≤ 'Z' ∨ '0' ≤ c ∧ c ≤ '9' ∨ c = '_'

theorem isNameChar_iff {c : Char} :
    isNameChar c = true ↔ 'A' ≤ c ∧ c ≤ 'Z' ∨ '0' ≤ c ∧ c ≤ '9' ∨ c = '_' := by
  have hdigit : c.isDigit = true ↔ '0' ≤ c ∧ c ≤ '9' := by
    rw [Char.isDigit, Bool.and_eq_true, decide_eq_true_iff, decide_eq_true_iff]
    rfl
  rw [isNameChar, Bool.or_eq_true, Bool.or_eq_true, Bool.and_eq_true, hdigit, or_assoc,
    decide_eq_true_iff, decide_eq_true_iff, decide_eq_true_iff]

theorem isName_iff {name : List Char} :
    IsName name ↔ name ≠ [] ∧ name.all isNameChar = true := by
  rw [IsName, List.all_eq_true]
  exact and_congr_right fun _ => forall₂_congr fun _ _ => isNameChar_iff.symm

instance (name : List Char) : Decidable (IsName name) := decidable_of_iff _ isName_iff.symm

/-- A name between double braces. -/
def marked (name : List Char) : List Char := '\x7b' :: '\x7b' :: (name ++ ['\x7d', '\x7d'])

/-- **A token is found exactly where its text stands.** -/
theorem token?_eq_some_iff {text name rest : List Char} :
    token? text = some (name, rest) ↔ IsName name ∧ text = marked name ++ rest := by
  rw [isName_iff]
  constructor
  · intro h
    unfold token? at h
    split at h
    · rename_i inner
      split at h
      · rename_i c first others htake hdrop
        injection h with h
        injection h with hname hrest
        subst hname hrest
        refine ⟨⟨List.cons_ne_nil _ _, ?_⟩, ?_⟩
        · rw [← htake]
          exact List.all_takeWhile
        · have hinner := List.takeWhile_append_dropWhile (p := isNameChar) (l := inner)
          rw [htake, hdrop] at hinner
          simp [← hinner, marked]
      · exact absurd h (by simp)
    · exact absurd h (by simp)
  · rintro ⟨⟨hne, hall⟩, rfl⟩
    have htext : marked name ++ rest
        = '\x7b' :: '\x7b' :: (name ++ '\x7d' :: '\x7d' :: rest) := by
      simp [marked]
    rw [htext, token?, takeWhile_token hall, dropWhile_token hall]
    cases name with
    | nil => exact absurd rfl hne
    | cons c name => rfl

theorem token?_eq_none {text : List Char} (h : '\x7b' ∉ text) : token? text = none := by
  unfold token?
  split
  · exact absurd List.mem_cons_self h
  · rfl

/-! ## Parts -/

theorem parts_nil : parts [] = [] := by
  rw [parts]
  rfl

theorem parts_of_token? {text name rest : List Char} (h : token? text = some (name, rest)) :
    parts text = .token name :: parts rest := by
  rw [parts]
  split
  · rename_i heq
    injection h.symm.trans heq with heq
    injection heq with hname hrest
    rw [hname, hrest]
  · rename_i heq
    exact absurd (h.symm.trans heq) (by simp)

theorem parts_cons {c : Char} {rest : List Char} (h : token? (c :: rest) = none) :
    parts (c :: rest) = .char c :: parts rest := by
  rw [parts]
  split
  · rename_i heq
    exact absurd (h.symm.trans heq) (by simp)
  · rfl

/-- The text of a token has that token at its front, whatever follows. -/
theorem parts_marked_append {name : List Char} (h : IsName name) (rest : List Char) :
    parts (marked name ++ rest) = .token name :: parts rest :=
  parts_of_token? (token?_eq_some_iff.mpr ⟨h, rfl⟩)

/-- The text of a token has that token and nothing else in it. -/
theorem parts_marked {name : List Char} (h : IsName name) :
    parts (marked name) = [.token name] := by
  have htoken := parts_marked_append h []
  rwa [List.append_nil, parts_nil] at htoken

/-- A text without an opening brace has no tokens. -/
theorem parts_plain {text : List Char} (h : '\x7b' ∉ text) : parts text = text.map .char := by
  induction text with
  | nil => exact parts_nil
  | cons c rest ih =>
      rw [parts_cons (token?_eq_none h), ih fun hmem => h (List.mem_cons_of_mem c hmem)]
      rfl

/-- The name of the one token of a string. -/
theorem names_marked {name : List Char} (h : IsName name) :
    names (String.ofList (marked name)) = [String.ofList name] := by
  rw [names, String.toList_ofList, parts_marked h]
  rfl

theorem names_plain {text : String} (h : '\x7b' ∉ text.toList) : names text = [] := by
  rw [names, parts_plain h, List.filterMap_map, List.filterMap_eq_nil_iff]
  exact fun _ _ => rfl

theorem flatMap_fill_char (values : Values) (text : List Char) :
    (text.map Part.char).flatMap (Part.fill values) = text := by
  induction text with
  | nil => rfl
  | cons c rest ih => exact congrArg (c :: ·) ih

/-- A string that is no single token is replaced part by part. -/
theorem fill_of_parts (values : Values) {text : String}
    (h : ∀ name, parts text.toList ≠ [.token name]) :
    fill values text
      = .string (String.ofList ((parts text.toList).flatMap (Part.fill values))) := by
  unfold fill
  split
  · rename_i name hparts
    exact absurd hparts (h name)
  · rfl

/-- A string without an opening brace stays as it is. -/
theorem fill_plain (values : Values) {text : String} (h : '\x7b' ∉ text.toList) :
    fill values text = .string text := by
  have hparts := parts_plain h
  rw [fill_of_parts, hparts, flatMap_fill_char, String.ofList_toList]
  -- a list of characters is never one token
  intro name heq
  rw [hparts] at heq
  cases htext : text.toList with
  | nil => exact absurd heq (by rw [htext]; simp)
  | cons c rest => exact absurd heq (by rw [htext]; simp)

theorem fill_of_parts_token {values : Values} {text value : String} {name : List Char}
    (h : parts text.toList = [.token name])
    (hv : Named.lookup? (String.ofList name) values = some value) :
    fill values text = meaning value := by
  unfold fill
  rw [h]
  dsimp only
  rw [hv]

/-- **A string that is one token becomes what its replacement says.** -/
theorem fill_marked {values : Values} {name : List Char} {value : String} (h : IsName name)
    (hv : Named.lookup? (String.ofList name) values = some value) :
    fill values (String.ofList (marked name)) = meaning value :=
  fill_of_parts_token (by rw [String.toList_ofList, parts_marked h]) hv

/-- A string that is one token stays if the token has no replacement. -/
theorem fill_marked_left {values : Values} {name : List Char} (h : IsName name)
    (hv : Named.lookup? (String.ofList name) values = none) :
    fill values (String.ofList (marked name)) = .string (String.ofList (marked name)) := by
  unfold fill
  rw [String.toList_ofList, parts_marked h]
  dsimp only
  rw [hv]

/-- The text of the token with a name. -/
def tokenText (name : String) : String := String.ofList (marked name.toList)

example : tokenText "CHAIN_ID" = "\x7b\x7bCHAIN_ID\x7d\x7d" := by decide

theorem fill_tokenText {values : Values} {name value : String} (hname : IsName name.toList)
    (hv : Named.lookup? name values = some value) :
    fill values (tokenText name) = meaning value :=
  fill_marked hname (by rwa [String.ofList_toList])

theorem names_tokenText {name : String} (hname : IsName name.toList) :
    names (tokenText name) = [name] := by
  rw [tokenText, names_marked hname, String.ofList_toList]

/-! ## Names in order -/

theorem mem_sortNames {names : List String} {name : String} :
    name ∈ sortNames names ↔ name ∈ names := by
  have hnames : (names.map fun name => (name, ())).reverse.map Prod.fst = names.reverse := by
    rw [List.map_reverse, List.map_map]
    exact congrArg List.reverse (List.map_id names)
  rw [sortNames, Named.mem_map_fst_iff, Named.lookup?_ofList, ← Named.mem_map_fst_iff, hnames,
    List.mem_reverse]

/-- Names are put in strictly ascending order, so none is there twice. -/
theorem pairwise_sortNames (names : List String) : (sortNames names).Pairwise (· < ·) :=
  List.pairwise_map.mpr (Named.ordered_ofList _)

/-! ## Replacements that are JSON -/

theorem meaning_of_parse {value : String} {doc : Document} (h : Document.parse value = .ok doc) :
    meaning value = doc := by
  rw [meaning, h]

theorem meaning_of_error {value : String} {fault : Fault}
    (h : Document.parse value = .error fault) : meaning value = .string value := by
  rw [meaning, h]

/-- Whatever a string becomes lists its members in order. -/
theorem ordered_fill (values : Values) (text : String) : (fill values text).Ordered := by
  have hmeaning : ∀ value, (meaning value).Ordered := by
    intro value
    unfold meaning
    split
    · rename_i doc hparse
      exact (Document.ordered_of_read hparse).1
    · exact trivial
  unfold fill
  split
  · split
    · exact hmeaning _
    · exact trivial
  · exact trivial

/-- The decimal of a number that is kept exact means that number. -/
theorem meaning_integer {value : Int} (h : Number.InRange value) :
    meaning (String.ofList (Number.integer value).text) = .number (.integer value) :=
  meaning_of_parse (Document.parse_integer h)

end Placeholder

/-! ## Documents -/

namespace Document

theorem lookup?_fillMembers (values : Placeholder.Values) (members : Members) (name : String) :
    Named.lookup? name (fillMembers values members)
      = (Named.lookup? name members).map (fill values) := by
  induction members with
  | nil => rfl
  | cons member rest ih =>
      obtain ⟨first, value⟩ := member
      rw [fillMembers, Named.lookup?_cons, Named.lookup?_cons, ih]
      by_cases h : first = name <;> simp [h]

/-- **Below every path of a document stands, filled in, what stood there before.** -/
theorem at?_fill (values : Placeholder.Values) {doc value : Document} {path : List String}
    (h : doc.at? path = some value) : (doc.fill values).at? path = some (value.fill values) := by
  induction path generalizing doc with
  | nil =>
      injection h with h
      rw [h]
      rfl
  | cons name path ih =>
      obtain ⟨child, hc, hv⟩ := Option.bind_eq_some_iff.mp h
      obtain ⟨members, rfl, hl⟩ := get?_eq_some hc
      rw [fill, at?_cons, get?_object, lookup?_fillMembers, hl]
      exact ih hv

/-- Filling in mentions nothing that was not mentioned. -/
theorem Leaves.fill (values : Placeholder.Values) {doc : Document} {path : List String}
    (h : doc.Leaves path) : (doc.fill values).Leaves path := by
  induction h with
  | absent h =>
      rw [Document.fill]
      exact .absent (by rw [lookup?_fillMembers, h]; rfl)
  | inside h _ ih =>
      rw [Document.fill]
      exact .inside (by rw [lookup?_fillMembers, h]; rfl) ih

/-! ## Values at any depth -/

/-- The value at the end of a path of names and positions. -/
def valueAt? : Document → DocPath → Option Document
  | doc, [] => some doc
  | .object members, .field name :: path =>
    (Named.lookup? name members).bind fun child => child.valueAt? path
  | .array items, .index n :: path => items[n]?.bind fun item => item.valueAt? path
  | _, _ :: _ => none

theorem fillItems_eq_map (values : Placeholder.Values) (items : List Document) :
    fillItems values items = items.map (fill values) := by
  induction items with
  | nil => rfl
  | cons item rest ih => rw [fillItems, ih, List.map_cons]

theorem fillMembers_eq_map (values : Placeholder.Values) (members : List (String × Document)) :
    fillMembers values members = members.map fun member => (member.1, member.2.fill values) := by
  induction members with
  | nil => rfl
  | cons member rest ih =>
      obtain ⟨name, value⟩ := member
      rw [fillMembers, ih, List.map_cons]

/-- **At the end of every path of a document stands, filled in, what stood there before.** -/
theorem valueAt?_fill (values : Placeholder.Values) {doc value : Document} {path : DocPath}
    (h : doc.valueAt? path = some value) :
    (doc.fill values).valueAt? path = some (value.fill values) := by
  fun_induction valueAt? doc path with
  | case1 doc =>
      injection h with h
      rw [h, valueAt?]
  | case2 members name path ih =>
      obtain ⟨child, hlookup, hchild⟩ := Option.bind_eq_some_iff.mp h
      rw [fill, valueAt?, lookup?_fillMembers, hlookup]
      exact ih child hchild
  | case3 items n path ih =>
      obtain ⟨item, hitem, hvalue⟩ := Option.bind_eq_some_iff.mp h
      rw [fill, valueAt?, fillItems_eq_map, List.getElem?_map, hitem]
      exact ih item hvalue
  | case4 => exact absurd h (by simp)

/-! ## The strings of a document -/

/-- Filling in keeps the members in order. -/
theorem Ordered.fill (values : Placeholder.Values) {doc : Document} (h : doc.Ordered) :
    (doc.fill values).Ordered := by
  induction doc using nested_induction with
  | null | bool _ | number _ => exact h
  | string text => exact Placeholder.ordered_fill values text
  | array items ih =>
      have hitems := orderedItems_iff.mp h
      rw [Document.fill, fillItems_eq_map]
      refine orderedItems_iff.mpr fun item hmem => ?_
      obtain ⟨old, hold, rfl⟩ := List.mem_map.mp hmem
      exact ih old hold (hitems old hold)
  | object members ih =>
      have hmembers := orderedMembers_iff.mp h.2
      rw [Document.fill, fillMembers_eq_map]
      refine ⟨List.pairwise_map.mpr h.1, orderedMembers_iff.mpr fun member hmem => ?_⟩
      obtain ⟨old, hold, rfl⟩ := List.mem_map.mp hmem
      exact ih old hold (hmembers old hold)

/-- A document has a string somewhere for a value. The names of members do not count. -/
inductive HasString : Document → String → Prop where
  | string (text : String) : HasString (.string text) text
  | item {items : List Document} {item : Document} {text : String} :
      item ∈ items → HasString item text → HasString (.array items) text
  | member {members : List (String × Document)} {member : String × Document} {text : String} :
      member ∈ members → HasString member.2 text → HasString (.object members) text

theorem hasString_string_iff {text found : String} :
    (string text).HasString found ↔ found = text :=
  ⟨fun h => by cases h; rfl, fun h => h ▸ .string text⟩

theorem hasString_array_iff {items : List Document} {text : String} :
    (array items).HasString text ↔ ∃ item ∈ items, item.HasString text :=
  ⟨fun h => by cases h with | item hmem h => exact ⟨_, hmem, h⟩,
    fun ⟨_, hmem, h⟩ => .item hmem h⟩

theorem hasString_object_iff {members : List (String × Document)} {text : String} :
    (object members).HasString text ↔ ∃ member ∈ members, member.2.HasString text :=
  ⟨fun h => by cases h with | member hmem h => exact ⟨_, hmem, h⟩,
    fun ⟨_, hmem, h⟩ => .member hmem h⟩

/-- **The strings of a filled-in document are those that its strings became.** -/
theorem hasString_fill_iff (values : Placeholder.Values) {doc : Document} {text : String} :
    (doc.fill values).HasString text
      ↔ ∃ source, doc.HasString source ∧ (Placeholder.fill values source).HasString text := by
  induction doc using nested_induction with
  | null | bool _ | number _ =>
      rw [fill]
      constructor
      · exact fun h => nomatch h
      · exact fun ⟨_, h, _⟩ => nomatch h
  | string source =>
      rw [fill]
      exact ⟨fun h => ⟨source, .string source, h⟩,
        fun ⟨_, h, htext⟩ => hasString_string_iff.mp h ▸ htext⟩
  | array items ih =>
      rw [fill, fillItems_eq_map, hasString_array_iff]
      constructor
      · rintro ⟨item, hmem, h⟩
        obtain ⟨old, hold, rfl⟩ := List.mem_map.mp hmem
        obtain ⟨source, hsource, htext⟩ := (ih old hold).mp h
        exact ⟨source, .item hold hsource, htext⟩
      · rintro ⟨source, hsource, htext⟩
        obtain ⟨old, hold, hsource⟩ := hasString_array_iff.mp hsource
        exact ⟨_, List.mem_map_of_mem hold, (ih old hold).mpr ⟨source, hsource, htext⟩⟩
  | object members ih =>
      rw [fill, fillMembers_eq_map, hasString_object_iff]
      constructor
      · rintro ⟨member, hmem, h⟩
        obtain ⟨old, hold, rfl⟩ := List.mem_map.mp hmem
        obtain ⟨source, hsource, htext⟩ := (ih old hold).mp h
        exact ⟨source, .member hold hsource, htext⟩
      · rintro ⟨source, hsource, htext⟩
        obtain ⟨old, hold, hsource⟩ := hasString_object_iff.mp hsource
        exact ⟨_, List.mem_map_of_mem hold, (ih old hold).mpr ⟨source, hsource, htext⟩⟩

/-! ## The names in a document -/

theorem tokensOfItems_eq (items : List Document) : tokensOfItems items = items.flatMap tokens := by
  induction items with
  | nil => rfl
  | cons item rest ih => rw [tokensOfItems, ih, List.flatMap_cons]

theorem tokensOfMembers_eq (members : List (String × Document)) :
    tokensOfMembers members = members.flatMap fun member => member.2.tokens := by
  induction members with
  | nil => rfl
  | cons member rest ih =>
      obtain ⟨name, value⟩ := member
      rw [tokensOfMembers, ih, List.flatMap_cons]

/-- The names in a document are those in its strings. -/
theorem mem_tokens_iff {doc : Document} {name : String} :
    name ∈ doc.tokens ↔ ∃ text, doc.HasString text ∧ name ∈ Placeholder.names text := by
  induction doc using nested_induction with
  | null | bool _ | number _ =>
      constructor
      · exact fun h => nomatch h
      · exact fun ⟨_, h, _⟩ => nomatch h
  | string text =>
      exact ⟨fun h => ⟨text, .string text, h⟩, fun ⟨_, h, hname⟩ =>
        hasString_string_iff.mp h ▸ hname⟩
  | array items ih =>
      rw [tokens, tokensOfItems_eq, List.mem_flatMap]
      constructor
      · rintro ⟨item, hmem, h⟩
        obtain ⟨text, htext, hname⟩ := (ih item hmem).mp h
        exact ⟨text, .item hmem htext, hname⟩
      · rintro ⟨text, htext, hname⟩
        obtain ⟨item, hmem, htext⟩ := hasString_array_iff.mp htext
        exact ⟨item, hmem, (ih item hmem).mpr ⟨text, htext, hname⟩⟩
  | object members ih =>
      rw [tokens, tokensOfMembers_eq, List.mem_flatMap]
      constructor
      · rintro ⟨member, hmem, h⟩
        obtain ⟨text, htext, hname⟩ := (ih member hmem).mp h
        exact ⟨text, .member hmem htext, hname⟩
      · rintro ⟨text, htext, hname⟩
        obtain ⟨member, hmem, htext⟩ := hasString_object_iff.mp htext
        exact ⟨member, hmem, (ih member hmem).mpr ⟨text, htext, hname⟩⟩

theorem mem_unresolved_iff {values : Placeholder.Values} {doc : Document} {name : String} :
    name ∈ doc.unresolved values ↔ name ∈ doc.tokens ∧ Named.lookup? name values = none := by
  rw [unresolved, Placeholder.mem_sortNames, List.mem_filter, Bool.not_eq_true', Named.has,
    Option.isSome_eq_false_iff, Option.isNone_iff_eq_none]

/-- Nothing is left over if and only if every name in a string has a replacement. -/
theorem unresolved_eq_nil_iff {values : Placeholder.Values} {doc : Document} :
    doc.unresolved values = [] ↔ ∀ text, doc.HasString text →
      ∀ name ∈ Placeholder.names text, Named.lookup? name values ≠ none := by
  rw [List.eq_nil_iff_forall_not_mem]
  constructor
  · intro h text htext name hname hnone
    exact h name (mem_unresolved_iff.mpr ⟨mem_tokens_iff.mpr ⟨text, htext, hname⟩, hnone⟩)
  · intro h name hmem
    obtain ⟨htoken, hnone⟩ := mem_unresolved_iff.mp hmem
    obtain ⟨text, htext, hname⟩ := mem_tokens_iff.mp htoken
    exact h text htext name hname hnone

end Document

/-! ## Resolving -/

/-- A resolution succeeds unless it is strict and something has no replacement. -/
theorem resolve_eq_ok_iff {values : Placeholder.Values} {strict : Bool} {doc : Document}
    {resolved : Resolved} :
    resolve values strict doc = .ok resolved
      ↔ (strict = false ∨ doc.unresolved values = [])
        ∧ resolved = ⟨doc.fill values, doc.unresolved values⟩ := by
  unfold resolve
  dsimp only
  split
  · rename_i h
    rw [Bool.and_eq_true, Bool.not_eq_true', List.isEmpty_eq_false_iff] at h
    constructor
    · exact fun heq => absurd heq (by simp)
    · rintro ⟨hs | hs, _⟩
      · exact absurd hs (by rw [h.1]; simp)
      · exact absurd hs h.2
  · rename_i h
    rw [Bool.and_eq_true, Bool.not_eq_true', List.isEmpty_eq_false_iff,
      Decidable.not_and_iff_or_not, Bool.not_eq_true, Decidable.not_not] at h
    constructor
    · intro heq
      injection heq with heq
      exact ⟨h, heq.symm⟩
    · rintro ⟨_, rfl⟩
      rfl

/-- Resolving one token that has a replacement leaves nothing over. -/
theorem resolve_token {values : Placeholder.Values} {name value : String} {doc : Document}
    (hname : Placeholder.IsName name.toList) (hv : Named.lookup? name values = some value)
    (hparse : Document.parse value = .ok doc) (strict : Bool) :
    resolve values strict (.string (Placeholder.tokenText name)) = .ok ⟨doc, []⟩ := by
  have hnone : (Document.string (Placeholder.tokenText name)).unresolved values = [] := by
    refine Document.unresolved_eq_nil_iff.mpr fun text htext other hother => ?_
    rw [Document.hasString_string_iff.mp htext, Placeholder.names_tokenText hname,
      List.mem_singleton] at hother
    rw [hother, hv]
    exact Option.some_ne_none value
  refine resolve_eq_ok_iff.mpr ⟨.inr hnone, ?_⟩
  rw [hnone, Document.fill, Placeholder.fill_tokenText hname hv,
    Placeholder.meaning_of_parse hparse]

/-- A strict resolution fails with what has no replacement. -/
theorem resolve_of_unresolved {values : Placeholder.Values} {doc : Document}
    (h : doc.unresolved values ≠ []) :
    resolve values true doc = .error (doc.unresolved values) := by
  have hstrict : (true && !(doc.unresolved values).isEmpty) = true := by
    rw [Bool.true_and, Bool.not_eq_true', List.isEmpty_eq_false_iff]
    exact h
  exact if_pos hstrict

end ChainGenesis
