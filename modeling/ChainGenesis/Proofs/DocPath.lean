import ChainGenesis.Issue

/-!
# Where an issue is shown

The text of a path is made of the texts of its steps, one behind the other. So what lies below a
path is shown under a text that begins as the text of the path does, and paths of which neither
text begins with the other keep the issues below them apart.
-/

namespace ChainGenesis

namespace DocPath

/-! ## Texts of paths -/

theorem stepsText_append (path below : DocPath) :
    stepsText (path ++ below) = stepsText path ++ stepsText below := by
  induction path with
  | nil => exact String.empty_append.symm
  | cons first rest ih =>
      show stepText first ++ stepsText (rest ++ below)
        = stepText first ++ stepsText rest ++ stepsText below
      rw [ih, String.append_assoc]

/-- Below a path that is not the root the text goes on where that of the path ends. -/
theorem text_append {path : DocPath} (h : path ≠ root) (below : DocPath) :
    text (path ++ below) = path.text ++ stepsText below := by
  cases path with
  | nil => exact absurd rfl h
  | cons first rest =>
      cases first with
      | field outer =>
          show outer ++ stepsText (rest ++ below) = outer ++ stepsText rest ++ stepsText below
          rw [stepsText_append, String.append_assoc]
      | index n =>
          show stepText (.index n) ++ stepsText (rest ++ below)
            = stepText (.index n) ++ stepsText rest ++ stepsText below
          rw [stepsText_append, String.append_assoc]

/-- Behind the first step a field is its name with a point before it. -/
theorem text_field {path : DocPath} (h : path ≠ root) (name : String) :
    (path.field name).text = path.text ++ ("." ++ name) := by
  rw [field, text_append h]
  exact congrArg (path.text ++ ·) String.append_empty

theorem text_field_field (outer name : String) :
    (root.field outer |>.field name).text = outer ++ "." ++ name := by
  show outer ++ ("." ++ name ++ "") = _
  rw [String.append_empty, ← String.append_assoc]

theorem text_field_index (outer : String) (n : Nat) :
    (root.field outer |>.index n).text = outer ++ "[" ++ Nat.repr n ++ "]" := by
  show outer ++ ("[" ++ Nat.repr n ++ "]" ++ "") = _
  rw [String.append_empty, ← String.append_assoc, ← String.append_assoc]

/-- Of two paths neither text begins with the other. -/
def Apart (path other : DocPath) : Prop :=
  ¬ path.text.toList <+: other.text.toList ∧ ¬ other.text.toList <+: path.text.toList

instance (path other : DocPath) : Decidable (Apart path other) :=
  inferInstanceAs (Decidable (_ ∧ _))

end DocPath

namespace Issue

/-! ## Issues below a path -/

/-- An issue is located at a path or below it. -/
def Below (path : DocPath) (issue : Issue) : Prop := path <+: issue.path

/-- The text under which an issue is shown begins with that of a path, as the text of every issue
below the path does. -/
def ShownBelow (path : DocPath) (issue : Issue) : Prop :=
  path.text.toList <+: issue.pathText.toList

theorem Below.shownBelow {path : DocPath} {issue : Issue} (h : issue.Below path)
    (hne : path ≠ .root) : issue.ShownBelow path := by
  obtain ⟨below, hpath⟩ := h
  have hshown : issue.path ≠ [] := by
    rw [← hpath]
    exact fun hnil => hne (List.append_eq_nil_iff.mp hnil).1
  rw [ShownBelow, pathText, if_neg hshown, ← hpath, DocPath.text_append hne, String.toList_append]
  exact List.prefix_append _ _

/-- What is shown below one of two paths that are apart is not shown below the other. -/
theorem ShownBelow.not_of_apart {path other : DocPath} {issue : Issue}
    (h : issue.ShownBelow path) (hapart : path.Apart other) : ¬ issue.ShownBelow other := by
  intro hother
  rcases List.prefix_or_prefix_of_prefix h hother with hbegins | hbegins
  · exact hapart.1 hbegins
  · exact hapart.2 hbegins

/-- An issue of the whole document is shown below nothing. -/
theorem not_shownBelow_of_root {path : DocPath} {issue : Issue} (h : issue.path = .root)
    (hne : path.text ≠ "") : ¬ issue.ShownBelow path := by
  intro hshown
  have htext : issue.pathText = "" := if_pos h
  rw [ShownBelow, htext] at hshown
  exact hne (String.toList_eq_nil_iff.mp (List.prefix_nil.mp hshown))

end Issue

end ChainGenesis
