import ChainGenesis.Proofs.Placeholder
import Mathlib.Logic.ExistsUnique

/-!
# Where the tokens of a text are

A text is cut at its tokens: what is before the first, and for each token its name and what is
between it and the next. It can be cut in one way only if no token is left in between, because
two tokens never share a character: a token has opening braces nowhere but at its front.
Going through the text from the left, one part after the other, finds this cut.
-/

namespace ChainGenesis.Placeholder

/-- No token stands anywhere in a text. -/
def Tokenless (text : List Char) : Prop :=
  ∀ name, IsName name → ¬ marked name <:+: text

/-- A text cut at tokens. -/
structure Split where
  /-- What is before the first token. -/
  front : List Char
  /-- The name of each token, and what is between it and the next. -/
  tokens : List (List Char × List Char)
  deriving DecidableEq

/-- What stands for a token in a longer string: its replacement text, or the token as it was. -/
def word (values : Values) (name : List Char) : List Char :=
  match Named.lookup? (String.ofList name) values with
  | some value => value.toList
  | none => marked name

namespace Split

/-- The text with a word for each token. -/
def spell (word : List Char → List Char) (split : Split) : List Char :=
  split.front ++ split.tokens.flatMap fun token => word token.1 ++ token.2

/-- The text that was cut. -/
def text (split : Split) : List Char := split.spell marked

/-- The text with its tokens replaced. -/
def filled (values : Values) (split : Split) : List Char := split.spell (word values)

/-- The names of the tokens, from the left. -/
def names (split : Split) : List String := split.tokens.map fun token => String.ofList token.1

/-- The cut is at every token. -/
structure Exact (split : Split) : Prop where
  named : ∀ token ∈ split.tokens, IsName token.1
  front : Tokenless split.front
  between : ∀ token ∈ split.tokens, Tokenless token.2

/-! ## Parts and cuts -/

/-- The parts of a cut text. -/
def parts (split : Split) : List Part :=
  split.front.map .char ++ split.tokens.flatMap fun token => .token token.1 :: token.2.map .char

/-- The cut of some parts. -/
def ofParts : List Part → Split
  | [] => ⟨[], []⟩
  | .char c :: rest => ⟨c :: (ofParts rest).front, (ofParts rest).tokens⟩
  | .token name :: rest => ⟨[], (name, (ofParts rest).front) :: (ofParts rest).tokens⟩

theorem ofParts_chars_append (text : List Char) (rest : List Part) :
    ofParts (text.map .char ++ rest)
      = ⟨text ++ (ofParts rest).front, (ofParts rest).tokens⟩ := by
  induction text with
  | nil => rfl
  | cons c text ih => rw [List.map_cons, List.cons_append, ofParts, ih, List.cons_append]

/-- A cut is found again in its parts. -/
theorem ofParts_parts (split : Split) : ofParts split.parts = split := by
  obtain ⟨front, tokens⟩ := split
  induction tokens generalizing front with
  | nil =>
      rw [parts, ofParts_chars_append]
      exact congrArg (Split.mk · []) (List.append_nil front)
  | cons token rest ih =>
      obtain ⟨name, between⟩ := token
      have hbetween := ih between
      rw [parts] at hbetween
      rw [parts, ofParts_chars_append, List.flatMap_cons, List.cons_append, ofParts, hbetween,
        List.append_nil]

/-- Parts that are written one after the other, a character as itself, are the cut text with a
word for each token. -/
theorem flatMap_parts (write : Part → List Char) (hchar : ∀ c, write (.char c) = [c])
    (split : Split) :
    split.parts.flatMap write = split.spell fun name => write (.token name) := by
  have hchars : ∀ text : List Char, (text.map Part.char).flatMap write = text := by
    intro text
    induction text with
    | nil => rfl
    | cons c rest ih => rw [List.map_cons, List.flatMap_cons, hchar, ih, List.singleton_append]
  rw [parts, spell, List.flatMap_append, hchars, List.flatMap_assoc]
  refine congrArg (split.front ++ ·) (List.flatMap_congr fun token _ => ?_)
  rw [List.flatMap_cons, hchars]

/-- What is made of tokens only is made of the tokens of the cut. -/
theorem filterMap_parts {α : Type} (make : Part → Option α) (hchar : ∀ c, make (.char c) = none)
    (split : Split) :
    split.parts.filterMap make = split.tokens.filterMap fun token => make (.token token.1) := by
  have hchars : ∀ text : List Char, (text.map Part.char).filterMap make = [] := by
    intro text
    rw [List.filterMap_map, List.filterMap_eq_nil_iff]
    exact fun c _ => hchar c
  rw [parts, List.filterMap_append, hchars, List.nil_append, List.filterMap_flatMap]
  induction split.tokens with
  | nil => rfl
  | cons token rest ih =>
      rw [List.flatMap_cons, ih, List.filterMap_cons, List.filterMap_cons, hchars]
      cases make (.token token.1) <;> rfl

end Split

/-! ## Tokens do not overlap -/

theorem IsName.ne_brace {name : List Char} (h : IsName name) {c : Char} (hc : c ∈ name) :
    c ≠ '\x7b' ∧ c ≠ '\x7d' := by
  have hchar := h.2 c hc
  constructor
  · rintro rfl
    exact absurd hchar (by decide)
  · rintro rfl
    exact absurd hchar (by decide)

/-- Behind the two braces at the front of a token there is no other opening brace. -/
theorem IsName.not_mem_behind {name : List Char} (h : IsName name) :
    '\x7b' ∉ name ++ ['\x7d', '\x7d'] := by
  intro hmem
  rcases List.mem_append.mp hmem with hmem | hmem
  · exact (h.ne_brace hmem).1 rfl
  · exact absurd hmem (by decide)

/-- **Where a token begins behind the front of another, the other has ended.** -/
theorem not_overlap {name other front last rest : List Char} {c : Char} (h : IsName name)
    (hlast : last ≠ []) (htoken : marked name = c :: front ++ last) :
    ¬ last <+: marked other ++ rest := by
  rintro ⟨behind, hbehind⟩
  obtain ⟨d, last, rfl⟩ := List.exists_cons_of_ne_nil hlast
  rw [marked] at htoken hbehind
  simp only [List.cons_append, List.cons.injEq] at htoken hbehind
  obtain ⟨rfl, hbehind⟩ := hbehind
  cases front with
  | nil =>
      -- the other begins at the second brace, and needs another one behind it
      obtain ⟨c, name, rfl⟩ := List.exists_cons_of_ne_nil h.1
      simp only [List.cons_append, List.nil_append, List.cons.injEq] at htoken hbehind
      obtain ⟨_, _, rfl⟩ := htoken
      simp only [List.cons_append, List.cons.injEq] at hbehind
      exact (h.ne_brace List.mem_cons_self).1 hbehind.1
  | cons e front =>
      simp only [List.cons_append, List.cons.injEq] at htoken
      refine h.not_mem_behind ?_
      rw [htoken.2.2]
      exact List.mem_append_right _ List.mem_cons_self

/-! ## The cut of a text -/

/-- The text of tokens and what is between them. -/
theorem Split.text_eq (split : Split) :
    split.text = split.front ++ (Split.mk [] split.tokens).text := rfl

theorem Split.text_cons (name between : List Char) (rest : List (List Char × List Char)) :
    (Split.mk [] ((name, between) :: rest)).text
      = marked name ++ (Split.mk between rest).text := by
  simp [Split.text, Split.spell]

theorem Tokenless.tail {c : Char} {text : List Char} (h : Tokenless (c :: text)) :
    Tokenless text := fun name hname hwithin => h name hname (List.infix_cons hwithin)

/-- No token begins within a text without tokens that ends where a token begins. -/
theorem token?_of_tokenless {c : Char} {front : List Char}
    {tokens : List (List Char × List Char)} (hfront : Tokenless (c :: front))
    (htokens : ∀ token ∈ tokens, IsName token.1) :
    token? (c :: front ++ (Split.mk [] tokens).text) = none := by
  refine Option.eq_none_iff_forall_ne_some.mpr fun ⟨name, behind⟩ hfound => ?_
  obtain ⟨hname, htext⟩ := token?_eq_some_iff.mp hfound
  rcases List.append_eq_append_iff.mp htext with ⟨last, htoken, hrest⟩ | ⟨more, hwithin, _⟩
  · by_cases hlast : last = []
    · rw [hlast, List.append_nil] at htoken
      exact hfront name hname (htoken ▸ List.infix_rfl)
    · cases tokens with
      | nil =>
          have hnil : last ++ behind = [] := hrest.symm
          exact hlast (List.append_eq_nil_iff.mp hnil).1
      | cons token others =>
          obtain ⟨other, between⟩ := token
          rw [Split.text_cons] at hrest
          exact not_overlap hname hlast htoken ⟨behind, hrest.symm⟩
  · exact hfront name hname (hwithin ▸ (List.prefix_append _ _).isInfix)

theorem parts_of_tokenless {front : List Char} {tokens : List (List Char × List Char)}
    (hfront : Tokenless front) (htokens : ∀ token ∈ tokens, IsName token.1) :
    Placeholder.parts (front ++ (Split.mk [] tokens).text)
      = front.map .char ++ Placeholder.parts (Split.mk [] tokens).text := by
  induction front with
  | nil => rfl
  | cons c front ih =>
      have hnone := token?_of_tokenless hfront htokens
      rw [List.cons_append] at hnone ⊢
      rw [parts_cons hnone, ih hfront.tail]
      rfl

/-- **A text that is cut at every token has the parts of the cut.** -/
theorem Split.Exact.parts_text {split : Split} (h : split.Exact) :
    Placeholder.parts split.text = split.parts := by
  obtain ⟨front, tokens⟩ := split
  induction tokens generalizing front with
  | nil =>
      rw [text_eq, parts_of_tokenless h.front h.named, Split.parts]
      exact congrArg _ parts_nil
  | cons token rest ih =>
      obtain ⟨name, between⟩ := token
      have hrest : (Split.mk between rest).Exact :=
        ⟨fun token hmem => h.named token (List.mem_cons_of_mem _ hmem),
          h.between _ List.mem_cons_self,
          fun token hmem => h.between token (List.mem_cons_of_mem _ hmem)⟩
      have hparts := ih between hrest
      rw [Split.parts] at hparts
      rw [text_eq, parts_of_tokenless h.front h.named, text_cons,
        parts_marked_append (h.named _ List.mem_cons_self), hparts, Split.parts, List.flatMap_cons,
        List.cons_append]

/-- The parts of a text, written one after the other, are the text. -/
theorem flatMap_text_parts (text : List Char) : (parts text).flatMap Part.text = text := by
  induction text using parts.induct with
  | case1 text name rest h _ ih =>
      rw [parts_of_token? h, List.flatMap_cons, ih]
      exact (token?_eq_some_iff.mp h).2.symm
  | case2 => rw [parts_nil, List.flatMap_nil]
  | case3 c rest h ih =>
      rw [parts_cons h, List.flatMap_cons, ih]
      rfl

/-- The cut of some parts is a cut of their text. -/
theorem Split.text_ofParts (found : List Part) :
    (Split.ofParts found).text = found.flatMap Part.text := by
  induction found with
  | nil => rfl
  | cons part rest ih =>
      rw [List.flatMap_cons, ← ih]
      cases part with
      | char c => rfl
      | token name => exact Split.text_cons name _ _

/-- Going through a text from the left finds a cut of it. -/
theorem text_ofParts_parts (text : List Char) : (Split.ofParts (parts text)).text = text :=
  (Split.text_ofParts _).trans (flatMap_text_parts text)

theorem tokenless_nil : Tokenless [] :=
  fun _ _ hwithin => List.cons_ne_nil _ _ (List.infix_nil.mp hwithin)

/-- **Going through a text from the left finds every token.** -/
theorem exact_ofParts_parts (text : List Char) : (Split.ofParts (parts text)).Exact := by
  induction text using parts.induct with
  | case1 text name rest h _ ih =>
      rw [parts_of_token? h, Split.ofParts]
      exact ⟨List.forall_mem_cons.mpr ⟨(token?_eq_some_iff.mp h).1, ih.named⟩, tokenless_nil,
        List.forall_mem_cons.mpr ⟨ih.front, ih.between⟩⟩
  | case2 =>
      rw [parts_nil]
      exact ⟨List.forall_mem_nil _, tokenless_nil, List.forall_mem_nil _⟩
  | case3 c rest h ih =>
      rw [parts_cons h, Split.ofParts]
      refine ⟨ih.named, fun name hname hwithin => ?_, ih.between⟩
      rcases List.infix_cons_iff.mp hwithin with ⟨behind, hbehind⟩ | hwithin
      · -- a token at the front would have been found there
        have hrest := text_ofParts_parts rest
        rw [Split.text_eq] at hrest
        have hfound : c :: rest = marked name
            ++ (behind ++ (Split.mk [] (Split.ofParts (parts rest)).tokens).text) := by
          rw [← List.append_assoc, hbehind, List.cons_append, hrest]
        have htoken := token?_eq_some_iff.mpr ⟨hname, hfound⟩
        exact absurd (h.symm.trans htoken) (by simp)
      · exact ih.front name hname hwithin

/-- The cut that is found is the only one at every token. -/
theorem ofParts_parts_eq_iff {text : List Char} {split : Split} :
    Split.ofParts (parts text) = split ↔ split.Exact ∧ split.text = text := by
  constructor
  · rintro rfl
    exact ⟨exact_ofParts_parts text, text_ofParts_parts text⟩
  · rintro ⟨hexact, rfl⟩
    rw [hexact.parts_text, Split.ofParts_parts]

/-- **A text can be cut at every token in exactly one way.** -/
theorem existsUnique_split (text : List Char) :
    ∃! split : Split, split.Exact ∧ split.text = text :=
  ⟨_, ofParts_parts_eq_iff.mp rfl, fun _ h => (ofParts_parts_eq_iff.mpr h).symm⟩

/-- Of a run of braces those next to the name belong to the token. -/
example : Split.ofParts (parts "\x7b\x7b\x7bA\x7d\x7d\x7d\x7b\x7bB\x7b\x7bC\x7d\x7d".toList)
    = ⟨['\x7b'], [(['A'], ['\x7d', '\x7b', '\x7b', 'B']), (['C'], [])]⟩ := by cbv

end ChainGenesis.Placeholder
