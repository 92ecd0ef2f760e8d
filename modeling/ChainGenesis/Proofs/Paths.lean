import ChainGenesis.Merge
import ChainGenesis.Proofs.Named

/-!
# What stands below a path

The stages of a build change a document in a few places each. What a stage leaves in place
is said by the value below a path, so that the stages can be passed one after the other:
a value that no overlay mentions is there after merging, and setting one member of an object
does nothing to the others.
-/

namespace ChainGenesis.Document

/-! ## Members -/

theorem get?_object (members : Members) (name : String) :
    (object members).get? name = Named.lookup? name members := rfl

theorem at?_cons (doc : Document) (name : String) (path : List String) :
    doc.at? (name :: path) = (doc.get? name).bind fun child => child.at? path := rfl

theorem at?_singleton (doc : Document) (name : String) : doc.at? [name] = doc.get? name := by
  rw [at?_cons]
  cases doc.get? name <;> rfl

theorem at?_append (doc : Document) (front back : List String) :
    doc.at? (front ++ back) = (doc.at? front).bind fun child => child.at? back := by
  induction front generalizing doc with
  | nil => rfl
  | cons name front ih =>
      rw [List.cons_append, at?_cons, at?_cons, Option.bind_assoc]
      exact Option.bind_congr fun child _ => ih child

/-- Only an object has members. -/
theorem get?_eq_some {doc : Document} {name : String} {value : Document}
    (h : doc.get? name = some value) :
    ∃ members, doc = object members ∧ Named.lookup? name members = some value := by
  cases doc with
  | object members => exact ⟨members, rfl, h⟩
  | null => exact absurd h (by simp [get?, members?])
  | bool _ => exact absurd h (by simp [get?, members?])
  | number _ => exact absurd h (by simp [get?, members?])
  | string _ => exact absurd h (by simp [get?, members?])
  | array _ => exact absurd h (by simp [get?, members?])

theorem members?_eq_some {doc : Document} {members : Members} (h : doc.members? = some members) :
    doc = object members := by
  cases doc with
  | object other =>
      injection h with h
      rw [h]
  | null => exact absurd h (by simp [members?])
  | bool _ => exact absurd h (by simp [members?])
  | number _ => exact absurd h (by simp [members?])
  | string _ => exact absurd h (by simp [members?])
  | array _ => exact absurd h (by simp [members?])

theorem isObject_iff {doc : Document} :
    doc.isObject = true ↔ ∃ members, doc = object members := by
  rw [isObject, Option.isSome_iff_exists]
  exact exists_congr fun members => ⟨members?_eq_some, fun h => h ▸ rfl⟩

/-- Documents that have the same members, but for one name. -/
structure AlikeBut (name : String) (doc other : Document) : Prop where
  isObject : doc.isObject = other.isObject
  get? : ∀ found, found ≠ name → doc.get? found = other.get? found

theorem AlikeBut.refl {name : String} (doc : Document) : AlikeBut name doc doc :=
  ⟨rfl, fun _ _ => rfl⟩

theorem AlikeBut.trans {name : String} {first second third : Document}
    (h : AlikeBut name first second) (h' : AlikeBut name second third) :
    AlikeBut name first third :=
  ⟨h.isObject.trans h'.isObject, fun found hne => (h.get? found hne).trans (h'.get? found hne)⟩

/-- Documents that have the same member under a name have the same below it. -/
theorem at?_congr {doc other : Document} {name : String} (h : doc.get? name = other.get? name)
    (path : List String) : doc.at? (name :: path) = other.at? (name :: path) := by
  rw [at?_cons, at?_cons, h]

/-- The members of the object under a name are those that stand below it. -/
theorem lookup?_objectAt (members : Members) (name inner : String) :
    Named.lookup? inner (objectAt members name) = (object members).at? [name, inner] := by
  rw [at?_cons, get?_object, objectAt]
  cases Named.lookup? name members with
  | none => rfl
  | some child =>
      show Named.lookup? inner (child.members?.getD []) = child.at? [inner]
      rw [at?_singleton, get?]
      cases child.members? <;> rfl

/-- Setting a member changes nothing under another name. -/
theorem get?_set (doc : Document) (name other : String) (value : Document) (h : name ≠ other) :
    (doc.set name value).get? other = doc.get? other := by
  cases doc with
  | object members => rw [set, get?_object, get?_object, Named.lookup?_put, if_neg h]
  | null | bool _ | number _ | string _ | array _ => rfl

/-! ## Objects below a path -/

/-- There is an object below a path. -/
def HasObject (doc : Document) (path : List String) : Prop :=
  ∃ members, doc.at? path = some (.object members)

/-- What has a member is an object. -/
theorem HasObject.of_at? {doc value : Document} {path : List String} {name : String}
    (h : doc.at? (path ++ [name]) = some value) : doc.HasObject path := by
  rw [at?_append] at h
  obtain ⟨child, hchild, hvalue⟩ := Option.bind_eq_some_iff.mp h
  rw [at?_singleton] at hvalue
  obtain ⟨members, rfl, _⟩ := get?_eq_some hvalue
  exact ⟨members, hchild⟩

theorem at?_of_object {doc : Document} {members : Members} {path : List String}
    (h : doc.at? path = some (.object members)) (name : String) :
    doc.at? (path ++ [name]) = Named.lookup? name members := by
  rw [at?_append, h, Option.bind_some, at?_singleton, get?_object]

/-! ## Setting a member of a member -/

/-- The object with a member set in the object that stands under a name. -/
def setBelow (root : Members) (outer inner : String) (value : Document) : Document :=
  .object (Named.put outer (.object (Named.put inner value (objectAt root outer))) root)

theorem get?_setBelow (root : Members) {outer inner name : String} (value : Document)
    (h : outer ≠ name) : (setBelow root outer inner value).get? name = (object root).get? name := by
  rw [setBelow, get?_object, get?_object, Named.lookup?_put, if_neg h]

theorem get?_setBelow_self (root : Members) (outer inner : String) (value : Document) :
    (setBelow root outer inner value).get? outer
      = some (.object (Named.put inner value (objectAt root outer))) := by
  rw [setBelow, get?_object, Named.lookup?_put, if_pos rfl]

/-- Beside the member that is set everything is as it was. -/
theorem at?_setBelow (root : Members) {outer inner name : String} (value : Document)
    (path : List String) (h : inner ≠ name) :
    (setBelow root outer inner value).at? (outer :: name :: path)
      = (object root).at? (outer :: name :: path) := by
  rw [at?_cons, get?_setBelow_self]
  show (object (Named.put inner value (objectAt root outer))).at? (name :: path) = _
  rw [at?_cons, get?_object, Named.lookup?_put, if_neg h, lookup?_objectAt, at?_cons, at?_cons]
  cases (object root).get? outer with
  | none => rfl
  | some child => exact congrArg (Option.bind · _) (at?_singleton child name)

/-! ## Merging -/

/-- A document does not mention a path: it has no value there, and where it says anything on
the way there it has an object. -/
inductive Leaves : Document → List String → Prop where
  | absent {members : Members} {name : String} {path : List String} :
      Named.lookup? name members = none → Leaves (.object members) (name :: path)
  | inside {members : Members} {name : String} {path : List String} {child : Document} :
      Named.lookup? name members = some child → Leaves child path →
      Leaves (.object members) (name :: path)

/-- **An overlay that does not mention a path changes nothing there.** -/
theorem at?_merge {base upper : Document} {path : List String} {value : Document}
    (h : upper.Leaves path) (hb : base.at? path = some value) :
    (base.merge upper).at? path = some value := by
  induction h generalizing base with
  | @absent upper name path h =>
      -- the overlay has nothing under the name, so the base's member stays whole
      rw [at?_cons] at hb
      obtain ⟨child, hc, hv⟩ := Option.bind_eq_some_iff.mp hb
      obtain ⟨members, rfl, hl⟩ := get?_eq_some hc
      rw [merge, at?_cons, get?_object, lookup?_mergeMembers, h, hl]
      exact hv
  | @inside upper name path lower h _ ih =>
      -- both have a member there, and the overlay's own leaves the rest of the path
      rw [at?_cons] at hb
      obtain ⟨child, hc, hv⟩ := Option.bind_eq_some_iff.mp hb
      obtain ⟨members, rfl, hl⟩ := get?_eq_some hc
      rw [merge, at?_cons, get?_object, lookup?_mergeMembers, h, hl]
      exact ih hv

end ChainGenesis.Document
