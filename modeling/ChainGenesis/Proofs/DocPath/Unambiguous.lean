import ChainGenesis.DocPath
import ChainGenesis.Proofs.Decimal

/-!
# Texts that lead to one place

The text of a path is read from the left: a name goes on up to the next point or bracket, and an
index up to the bracket that closes it. So where no name holds a point or an opening bracket, and
none is empty, each step of a path can be cut off its text again, and paths that are shown alike
are one path. The root is left out, since a field of the name `root` is shown like it.
-/

namespace ChainGenesis

/-- A name can be cut off the text of a path: it is not empty, and no character of it looks like
the beginning of the next step. -/
def PlainName (name : String) : Prop := name ≠ "" ∧ '.' ∉ name.toList ∧ '[' ∉ name.toList

instance (name : String) : Decidable (PlainName name) := inferInstanceAs (Decidable (_ ∧ _))

/-- A field step has a plain name; an index is plain always. -/
def Segment.Plain : Segment → Prop
  | .field name => PlainName name
  | .index _ => True

instance : DecidablePred Segment.Plain
  | .field name => inferInstanceAs (Decidable (PlainName name))
  | .index _ => .isTrue trivial

/-- A word that ends where the first stop stands is cut off in one way only. -/
theorem append_inj_of_stop {stop : Char → Prop} {word other rest rest' : List Char}
    (hword : ∀ c ∈ word, ¬ stop c) (hother : ∀ c ∈ other, ¬ stop c)
    (hrest : ∀ c ∈ rest.head?, stop c) (hrest' : ∀ c ∈ rest'.head?, stop c)
    (h : word ++ rest = other ++ rest') : word = other ∧ rest = rest' := by
  induction word generalizing other with
  | nil =>
      cases other with
      | nil => exact ⟨rfl, h⟩
      | cons c other =>
          -- the rest would begin inside the other word
          subst h
          exact absurd (hrest c rfl) (hother c List.mem_cons_self)
  | cons c word ih =>
      cases other with
      | nil =>
          rw [List.nil_append] at h
          subst h
          exact absurd (hrest' c rfl) (hword c List.mem_cons_self)
      | cons d other =>
          rw [List.forall_mem_cons] at hword hother
          obtain ⟨rfl, hbehind⟩ := List.cons.inj h
          obtain ⟨rfl, hrests⟩ := ih hword.2 hother.2 hbehind
          exact ⟨rfl, hrests⟩

namespace DocPath

/-- The path has only steps that can be cut off its text. -/
def Plain (path : DocPath) : Prop := ∀ segment ∈ path, segment.Plain

instance (path : DocPath) : Decidable path.Plain :=
  inferInstanceAs (Decidable (∀ segment ∈ path, _))

/-! ## Texts as lists of characters -/

theorem toList_stepsText_field (name : String) (rest : DocPath) :
    (stepsText (.field name :: rest)).toList = '.' :: (name.toList ++ (stepsText rest).toList) := by
  rw [stepsText, stepText, String.toList_append, String.toList_append]
  rfl

theorem toList_stepsText_index (n : Nat) (rest : DocPath) :
    (stepsText (.index n :: rest)).toList
      = '[' :: (Nat.toDigits 10 n ++ ']' :: (stepsText rest).toList) := by
  rw [stepsText, stepText]
  simp only [String.toList_append, Nat.toList_repr, List.append_assoc]
  rfl

/-- Behind another step a name has a point before it, which it does not have in front. -/
theorem stepsText_field (name : String) (rest : DocPath) :
    stepsText (.field name :: rest) = "." ++ text (.field name :: rest) := by
  rw [stepsText, stepText, text, String.append_assoc]

theorem stepsText_cons_ne (first : Segment) (rest : DocPath) : stepsText (first :: rest) ≠ "" := by
  intro hempty
  have hchars := congrArg String.toList hempty
  cases first with
  | field name =>
      rw [toList_stepsText_field] at hchars
      exact List.cons_ne_nil _ _ hchars
  | index n =>
      rw [toList_stepsText_index] at hchars
      exact List.cons_ne_nil _ _ hchars

/-- A step behind the first begins with a point or a bracket. -/
theorem head?_stepsText (path : DocPath) :
    ∀ c ∈ (stepsText path).toList.head?, c = '.' ∨ c = '[' := by
  intro c hc
  cases path with
  | nil => exact absurd hc (by simp [stepsText])
  | cons first rest =>
      cases first with
      | field name =>
          rw [toList_stepsText_field] at hc
          exact .inl (Option.some.inj hc).symm
      | index n =>
          rw [toList_stepsText_index] at hc
          exact .inr (Option.some.inj hc).symm

/-! ## One step -/

/-- A plain name is told from the steps behind it. -/
theorem name_append_inj {name other : String} {rest rest' : DocPath} (h : PlainName name)
    (h' : PlainName other)
    (htext : name.toList ++ (stepsText rest).toList = other.toList ++ (stepsText rest').toList) :
    name = other ∧ stepsText rest = stepsText rest' := by
  have hplain : ∀ {name : String}, PlainName name →
      ∀ c ∈ name.toList, ¬(c = '.' ∨ c = '[') := by
    rintro name ⟨_, hpoint, hbracket⟩ c hmem (rfl | rfl)
    · exact hpoint hmem
    · exact hbracket hmem
  obtain ⟨hname, hrest⟩ := append_inj_of_stop (hplain h) (hplain h') (head?_stepsText rest)
    (head?_stepsText rest') htext
  exact ⟨String.toList_inj.mp hname, String.toList_inj.mp hrest⟩

/-- An index is told from the steps behind it, however many digits it has. -/
theorem digits_append_inj {n m : Nat} {rest rest' : List Char}
    (htext : Nat.toDigits 10 n ++ ']' :: rest = Nat.toDigits 10 m ++ ']' :: rest') :
    n = m ∧ rest = rest' := by
  have hdigits : ∀ n, ∀ c ∈ Nat.toDigits 10 n, c ≠ ']' := by
    rintro n c hmem rfl
    exact absurd (isDigit_of_mem_toDigits hmem) (by decide)
  have hclose : ∀ rest : List Char, ∀ c ∈ (']' :: rest).head?, c = ']' :=
    fun rest c hc => (Option.some.inj hc).symm
  obtain ⟨hnumber, hrest⟩ := append_inj_of_stop (hdigits n) (hdigits m) (hclose rest)
    (hclose rest') htext
  exact ⟨toDigits_inj hnumber, (List.cons.inj hrest).2⟩

/-! ## All steps -/

/-- The steps behind the first can be read back from their text. -/
theorem stepsText_inj {path other : DocPath} (h : path.Plain) (h' : other.Plain)
    (htext : stepsText path = stepsText other) : path = other := by
  induction path generalizing other with
  | nil =>
      cases other with
      | nil => rfl
      | cons second rest' => exact absurd htext.symm (stepsText_cons_ne second rest')
  | cons first rest ih =>
      cases other with
      | nil => exact absurd htext (stepsText_cons_ne first rest)
      | cons second rest' =>
          have hrest := (List.forall_mem_cons.mp h).2
          have hrest' := (List.forall_mem_cons.mp h').2
          have hchars := congrArg String.toList htext
          -- steps of different kinds begin differently
          match first, second with
          | .field name, .field other =>
              rw [toList_stepsText_field, toList_stepsText_field] at hchars
              obtain ⟨rfl, htexts⟩ := name_append_inj (h _ List.mem_cons_self)
                (h' _ List.mem_cons_self) (List.cons.inj hchars).2
              rw [ih hrest hrest' htexts]
          | .index n, .index m =>
              rw [toList_stepsText_index, toList_stepsText_index] at hchars
              obtain ⟨rfl, htexts⟩ := digits_append_inj (List.cons.inj hchars).2
              rw [ih hrest hrest' (String.toList_inj.mp htexts)]
          | .field name, .index m =>
              rw [toList_stepsText_field, toList_stepsText_index] at hchars
              exact absurd (List.cons.inj hchars).1 (by decide)
          | .index n, .field name =>
              rw [toList_stepsText_field, toList_stepsText_index] at hchars
              exact absurd (List.cons.inj hchars).1 (by decide)

/-- A first name does not begin as an index does. -/
theorem text_field_ne_text_index {name : String} (h : PlainName name) (rest : DocPath) (n : Nat)
    (rest' : DocPath) : text (.field name :: rest) ≠ text (.index n :: rest') := by
  intro htext
  have hchars := congrArg String.toList htext
  have hindex : text (.index n :: rest') = stepsText (.index n :: rest') := rfl
  rw [hindex, toList_stepsText_index, text, String.toList_append] at hchars
  obtain ⟨c, cs, hname⟩ :=
    List.exists_cons_of_ne_nil fun hnil => h.1 (String.toList_eq_nil_iff.mp hnil)
  rw [hname, List.cons_append] at hchars
  exact h.2.2 (hname ▸ (List.cons.inj hchars).1 ▸ List.mem_cons_self)

/--
**Paths over plain names are shown alike only if they are one path.** This holds of all paths but
the root, of any length, with fields and indices in any order and numbers of any size.
-/
theorem text_inj_of_plain {path other : DocPath} (hroot : path ≠ root) (hroot' : other ≠ root)
    (h : path.Plain) (h' : other.Plain) : path.text = other.text ↔ path = other := by
  refine ⟨fun htext => ?_, fun heq => by rw [heq]⟩
  obtain ⟨first, rest, rfl⟩ := List.exists_cons_of_ne_nil hroot
  obtain ⟨second, rest', rfl⟩ := List.exists_cons_of_ne_nil hroot'
  match first, second with
  | .field name, .field other =>
      refine stepsText_inj h h' ?_
      rw [stepsText_field, stepsText_field, htext]
  | .index n, .index m => exact stepsText_inj h h' htext
  | .field name, .index m =>
      exact absurd htext (text_field_ne_text_index (h _ List.mem_cons_self) _ _ _)
  | .index n, .field name =>
      exact absurd htext.symm (text_field_ne_text_index (h' _ List.mem_cons_self) _ _ _)

/-- The digits of an index do not run into those of the next one, and a name may look like the
end of an index. -/
theorem text_inj_of_plain_numbered :
    let path := root.index 1 |>.index 10 |>.field "0]"
    let other := root.index 11 |>.index 0 |>.field "0]"
    path ≠ root ∧ other ≠ root ∧ path.Plain ∧ other.Plain ∧ path.text ≠ other.text := by
  intro path other
  have hroot : path ≠ root := by decide
  have hroot' : other ≠ root := by decide
  have hplain : path.Plain := by decide
  have hplain' : other.Plain := by decide
  refine ⟨hroot, hroot', hplain, hplain', ?_⟩
  rw [Ne, text_inj_of_plain hroot hroot' hplain hplain']
  decide

-- names that are not plain, and the root, share their text with other paths
example : (root.field "a" |>.field "b").text = (root.field "a.b").text
    ∧ (root.field "" |>.index 0).text = (root.index 0).text
    ∧ (root.field "root").text = root.text := by decide

end DocPath

end ChainGenesis
