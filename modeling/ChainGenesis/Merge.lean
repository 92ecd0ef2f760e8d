import ChainGenesis.Json.Document

/-!
# Merging documents

An overlay is laid over a base. Where both hold an object the objects are merged member by
member; anywhere else the overlay's value stands alone, arrays and null included. What the
overlay does not mention keeps its base value.
-/

namespace ChainGenesis.Document

mutual

/-- The base with an overlay laid over it. -/
def merge (base : Document) : Document → Document
  | .object upper =>
    match base with
    | .object members => .object (mergeMembers members upper)
    | _ => .object upper
  | other => other

/-- The members of a base with those of an overlay laid over them. -/
def mergeMembers (base : Members) : Members → Members
  | [] => base
  | (name, value) :: rest =>
    let merged :=
      match Named.lookup? name base with
      | some old => merge old value
      | none => value
    Named.put name merged (mergeMembers base rest)

end

/-- A merged object has at each name the overlay's value laid over the base's, or whichever
of the two there is. -/
theorem lookup?_mergeMembers (base upper : Members) (name : String) :
    Named.lookup? name (mergeMembers base upper)
      = match Named.lookup? name upper, Named.lookup? name base with
        | some value, some old => some (merge old value)
        | some value, none => some value
        | none, old => old := by
  induction upper with
  | nil => rfl
  | cons member rest ih =>
    obtain ⟨first, value⟩ := member
    rw [mergeMembers, Named.lookup?_put, Named.lookup?_cons]
    by_cases h : first = name
    · subst h
      simp only [if_pos]
      cases Named.lookup? first base <;> rfl
    · simp only [if_neg h, ih]

end ChainGenesis.Document
