import ChainGenesis.Merge
import ChainGenesis.Proofs.Json.Shape
import ChainGenesis.Proofs.Json.Tree
import ChainGenesis.Proofs.Paths

/-!
# What stands in a merged document

A merged document is said path by path. Where the overlay has a value the two values are merged;
where it has none, what counts is how far into the path it has any: an object there lets the base
through, and anything else hides it.

From this follows what layers do. Laid over a document again an overlay changes nothing. Layers
can be put together in any order of merging, unless the middle one parts the others: where it has
no object it hides what the lowest has there, and a highest layer that is merged with it first
does not know of that.
-/

namespace ChainGenesis.Document

/-! ## Documents by their members -/

/-- What holds of every document that is no object, and of an object if it holds of its members,
holds of all documents. -/
@[elab_as_elim]
theorem members_induction {P : Document → Prop} (leaf : ∀ doc, doc.isObject = false → P doc)
    (object : ∀ members, (∀ name value, Named.lookup? name members = some value → P value) →
      P (.object members)) (doc : Document) : P doc := by
  induction doc using nested_induction with
  | null | bool _ | number _ | string _ | array _ _ => exact leaf _ rfl
  | object members ih =>
      exact object members fun name value h => ih (name, value) (Named.mem_of_lookup? h)

theorem get?_eq_none {doc : Document} (h : doc.isObject = false) (name : String) :
    doc.get? name = none := by
  rw [isObject, Option.isSome_eq_false_iff, Option.isNone_iff_eq_none] at h
  rw [get?, h]
  rfl

/-! ## Members of a merged document -/

theorem merge_of_not_isObject {base upper : Document}
    (h : base.isObject = false ∨ upper.isObject = false) : base.merge upper = upper := by
  cases upper with
  | object upper =>
      rcases h with h | h
      · cases base with
        | object members => exact absurd h (by simp [isObject, members?])
        | null | bool _ | number _ | string _ | array _ => rfl
      · exact absurd h (by simp [isObject, members?])
  | null | bool _ | number _ | string _ | array _ => rfl

/-- A merged document is an object if the overlay is one. -/
theorem isObject_merge (base upper : Document) :
    (base.merge upper).isObject = upper.isObject := by
  cases upper with
  | object upper => cases base <;> rfl
  | null | bool _ | number _ | string _ | array _ => rfl

/-- A value laid over another, where there are such values. -/
def laidOver : Option Document → Option Document → Option Document
  | old, none => old
  | none, some value => some value
  | some old, some value => some (old.merge value)

/-- **Under every name an object lays its value over the value of the base.** -/
theorem get?_merge (base : Document) {upper : Document} (h : upper.isObject = true)
    (name : String) :
    (base.merge upper).get? name = laidOver (base.get? name) (upper.get? name) := by
  obtain ⟨members, rfl⟩ := isObject_iff.mp h
  cases hbase : base.isObject with
  | true =>
      obtain ⟨old, rfl⟩ := isObject_iff.mp hbase
      rw [merge, get?_object, get?_object, get?_object, lookup?_mergeMembers]
      cases Named.lookup? name members <;> cases Named.lookup? name old <;> rfl
  | false =>
      rw [merge_of_not_isObject (.inl hbase), get?_eq_none hbase]
      cases (object members).get? name <;> rfl

/-! ## Path by path -/

/-- How far into a path a document has values, and the last of them. -/
def reach (doc : Document) : List String → List String × Document
  | [] => ([], doc)
  | name :: path =>
    match doc.get? name with
    | none => ([], doc)
    | some child => (name :: (child.reach path).1, (child.reach path).2)

/-- The longest beginning of a path at which a document has a value, and that value. -/
structure Reaches (doc : Document) (path front : List String) (value : Document) : Prop where
  onPath : front <+: path
  found : doc.at? front = some value
  longest : ∀ other, other <+: path → doc.at? other ≠ none → other.length ≤ front.length

theorem reaches_reach (doc : Document) (path : List String) :
    doc.Reaches path (doc.reach path).1 (doc.reach path).2 := by
  induction path generalizing doc with
  | nil =>
      refine ⟨List.nil_prefix, rfl, fun other hprefix _ => ?_⟩
      rw [List.prefix_nil.mp hprefix]
      exact Nat.le_refl _
  | cons name path ih =>
      rw [reach]
      cases hget : doc.get? name with
      | none =>
          refine ⟨List.nil_prefix, rfl, fun other hprefix hother => ?_⟩
          cases other with
          | nil => exact Nat.le_refl _
          | cons first rest =>
              obtain ⟨rfl, _⟩ := List.cons_prefix_cons.mp hprefix
              rw [at?_cons, hget] at hother
              exact absurd rfl hother
      | some child =>
          obtain ⟨hpath, hfound, hlongest⟩ := ih child
          refine ⟨List.cons_prefix_cons.mpr ⟨rfl, hpath⟩, ?_, fun other hprefix hother => ?_⟩
          · rw [at?_cons, hget]
            exact hfound
          · cases other with
            | nil => exact Nat.zero_le _
            | cons first rest =>
                obtain ⟨rfl, hrest⟩ := List.cons_prefix_cons.mp hprefix
                rw [at?_cons, hget] at hother
                exact Nat.succ_le_succ (hlongest rest hrest hother)

/-- Where the overlay has a value it is laid over the value of the base. -/
theorem at?_merge_of_some (base : Document) {upper value : Document} {path : List String}
    (h : upper.at? path = some value) :
    (base.merge upper).at? path = laidOver (base.at? path) (some value) := by
  induction path generalizing base upper with
  | nil =>
      injection h with h
      subst h
      rfl
  | cons name path ih =>
      obtain ⟨child, hchild, hvalue⟩ := Option.bind_eq_some_iff.mp h
      obtain ⟨members, rfl, _⟩ := get?_eq_some hchild
      rw [at?_cons, get?_merge base rfl, hchild, at?_cons]
      cases base.get? name with
      | none => exact hvalue
      | some old => exact ih old hvalue

/-- Merging leaves an object wherever the overlay has one. -/
theorem HasObject.merge {base upper : Document} {path : List String} (h : upper.HasObject path) :
    (base.merge upper).HasObject path := by
  obtain ⟨members, hmembers⟩ := h
  have hmerged := at?_merge_of_some base hmembers
  cases hold : base.at? path with
  | none =>
      rw [hold] at hmerged
      exact ⟨members, hmerged⟩
  | some old =>
      rw [hold] at hmerged
      obtain ⟨merged, heq⟩ := isObject_iff.mp (isObject_merge old (.object members))
      rw [laidOver, heq] at hmerged
      exact ⟨merged, hmerged⟩

/-- Where the overlay has no value the last one that it has on the way decides. -/
theorem at?_merge_of_none (base : Document) {upper : Document} {path : List String}
    (h : upper.at? path = none) :
    (base.merge upper).at? path
      = if (upper.reach path).2.isObject then base.at? path else none := by
  induction path generalizing base upper with
  | nil => exact absurd h (by simp [at?])
  | cons name path ih =>
      rw [reach, at?_cons]
      cases hupper : upper.isObject with
      | false =>
          rw [merge_of_not_isObject (.inr hupper), get?_eq_none hupper]
          simp [hupper]
      | true =>
          rw [get?_merge base hupper, at?_cons]
          rw [at?_cons] at h
          cases hget : upper.get? name with
          | none => simp [hupper, laidOver]
          | some child =>
              rw [hget] at h
              cases base.get? name with
              | none => exact h.trans (ite_self none).symm
              | some old => exact ih old h

/-- Into an object of a merged document the overlay lets every member of the base through that
it has none for. -/
theorem at?_merge_of_object {base upper : Document} {path : List String} {members : Members}
    {name : String} (hobject : (base.merge upper).at? path = some (.object members))
    (h : upper.at? (path ++ [name]) = none) :
    (base.merge upper).at? (path ++ [name]) = base.at? (path ++ [name]) := by
  induction path generalizing base upper with
  | nil =>
      injection hobject with hobject
      have hupper : upper.isObject = true := by
        rw [← isObject_merge base, hobject]
        rfl
      rw [List.nil_append, at?_singleton] at h ⊢
      rw [get?_merge base hupper, h, at?_singleton]
      rfl
  | cons first path ih =>
      obtain ⟨child, hchild, hbelow⟩ := Option.bind_eq_some_iff.mp hobject
      obtain ⟨_, hmerged, _⟩ := get?_eq_some hchild
      have hupper : upper.isObject = true := by
        rw [← isObject_merge base, hmerged]
        rfl
      have hlaid := get?_merge base hupper first
      rw [hchild] at hlaid
      rw [List.cons_append, at?_cons] at h ⊢
      rw [hchild, at?_cons]
      cases hnew : upper.get? first with
      | none =>
          rw [hnew] at hlaid
          rw [← show some child = base.get? first from hlaid]
      | some value =>
          rw [hnew] at hlaid h
          cases hold : base.get? first with
          | none =>
              -- the overlay has the object for itself, and no such member in it
              rw [hold] at hlaid
              injection hlaid with hlaid
              rw [hlaid]
              exact h
          | some old =>
              rw [hold] at hlaid
              injection hlaid with hlaid
              rw [hlaid] at hbelow ⊢
              exact ih hbelow h

/-- What a merged document has at a path, by what the base and the overlay have there. -/
structure MergedAt (base upper : Document) (path : List String) : Prop where
  /-- Two values are merged. -/
  merged : ∀ old value, base.at? path = some old → upper.at? path = some value →
    (base.merge upper).at? path = some (old.merge value)
  /-- Unless both are objects the overlay's value replaces the base's. -/
  replaced : ∀ old value, base.at? path = some old → upper.at? path = some value →
    old.isObject = false ∨ value.isObject = false → (base.merge upper).at? path = some value
  /-- A value that only the overlay has is taken over. -/
  added : ∀ value, base.at? path = none → upper.at? path = some value →
    (base.merge upper).at? path = some value
  /-- Where the overlay has none, it lets the base through or hides it. -/
  below : upper.at? path = none → ∃ front value, upper.Reaches path front value ∧
    (value.isObject = true → (base.merge upper).at? path = base.at? path) ∧
    (value.isObject = false → (base.merge upper).at? path = none)

/-- **A merged document is determined path by path.** -/
theorem mergedAt (base upper : Document) (path : List String) : MergedAt base upper path where
  merged old value hold hvalue := by
    rw [at?_merge_of_some base hvalue, hold]
    rfl
  replaced old value hold hvalue hleaf := by
    rw [at?_merge_of_some base hvalue, hold, laidOver, merge_of_not_isObject hleaf]
  added value hnone hvalue := by
    rw [at?_merge_of_some base hvalue, hnone]
    rfl
  below hnone := by
    refine ⟨_, _, reaches_reach upper path, fun hobject => ?_, fun hleaf => ?_⟩
    · rw [at?_merge_of_none base hnone, if_pos hobject]
    · rw [at?_merge_of_none base hnone, hleaf]
      rfl

/-- A scalar of the overlay hides what the base has below it. -/
example : ((object [("a", object [("b", null)])]).merge (object [("a", bool true)])).at? ["a", "b"]
    = none := by decide

/-! ## Order -/

theorem ordered_mergeMembers {base : Members} (h : Named.Ordered base) (upper : Members) :
    Named.Ordered (mergeMembers base upper) := by
  induction upper with
  | nil => exact h
  | cons member rest ih => exact ih.put _ _

theorem Ordered.of_get? {doc child : Document} {name : String} (h : doc.Ordered)
    (hchild : doc.get? name = some child) : child.Ordered := by
  obtain ⟨members, rfl, hlookup⟩ := get?_eq_some hchild
  exact orderedMembers_iff.mp h.2 _ (Named.mem_of_lookup? hlookup)

theorem Ordered.of_at? {doc value : Document} {path : List String} (h : doc.Ordered)
    (hvalue : doc.at? path = some value) : value.Ordered := by
  induction path generalizing doc with
  | nil =>
      injection hvalue with hvalue
      exact hvalue ▸ h
  | cons name path ih =>
      obtain ⟨child, hchild, hbelow⟩ := Option.bind_eq_some_iff.mp hvalue
      exact ih (h.of_get? hchild) hbelow

/-- Where ordered documents have objects they have the same one, if its members are the same. -/
theorem Ordered.at?_ext {doc other : Document} {path : List String} (h : doc.Ordered)
    (h' : other.Ordered) (hobject : doc.HasObject path) (hobject' : other.HasObject path)
    (hsame : ∀ name, doc.at? (path ++ [name]) = other.at? (path ++ [name])) :
    doc.at? path = other.at? path := by
  obtain ⟨members, hmembers⟩ := hobject
  obtain ⟨others, hothers⟩ := hobject'
  have heq : members = others := by
    refine (h.of_at? hmembers).1.ext (h'.of_at? hothers).1 fun name => ?_
    rw [← at?_of_object hmembers, ← at?_of_object hothers]
    exact hsame name
  rw [hmembers, hothers, heq]

theorem Ordered.objectAt {members : Members} (h : (object members).Ordered) (name : String) :
    (object (objectAt members name)).Ordered := by
  rw [Document.objectAt]
  cases hvalue : Named.lookup? name members with
  | none => exact ⟨List.Pairwise.nil, trivial⟩
  | some value =>
      have hordered : value.Ordered := h.of_get? hvalue
      cases value with
      | object inner => exact hordered
      | null | bool _ | number _ | string _ | array _ => exact ⟨List.Pairwise.nil, trivial⟩

theorem Ordered.put {members : Members} (h : (object members).Ordered) (name : String)
    {value : Document} (hvalue : value.Ordered) :
    (object (Named.put name value members)).Ordered := by
  refine ⟨h.1.put name value, orderedMembers_iff.mpr fun member hmem => ?_⟩
  rcases Named.mem_put hmem with rfl | hmem
  · exact hvalue
  · exact orderedMembers_iff.mp h.2 member hmem

theorem Ordered.setBelow {root : Members} (h : (object root).Ordered) (outer inner : String)
    {value : Document} (hvalue : value.Ordered) : (setBelow root outer inner value).Ordered :=
  h.put outer ((h.objectAt outer).put inner hvalue)

/-- Merging keeps the members in order. -/
theorem Ordered.merge {base upper : Document} (hb : base.Ordered) (hu : upper.Ordered) :
    (base.merge upper).Ordered := by
  induction upper using members_induction generalizing base with
  | leaf upper hleaf => rwa [merge_of_not_isObject (.inr hleaf)]
  | object members ih =>
      cases hobject : base.isObject with
      | false => rwa [merge_of_not_isObject (.inl hobject)]
      | true =>
          obtain ⟨old, rfl⟩ := isObject_iff.mp hobject
          have hnames := ordered_mergeMembers hb.1 members
          refine ⟨hnames, orderedMembers_iff.mpr fun ⟨name, child⟩ hmem => ?_⟩
          have hchild : laidOver ((object old).get? name) ((object members).get? name)
              = some child := (get?_merge _ rfl name).symm.trans (hnames.lookup?_of_mem hmem)
          cases hnew : (object members).get? name with
          | none =>
              rw [hnew] at hchild
              exact hb.of_get? hchild
          | some value =>
              have hvalue := hu.of_get? hnew
              cases hold : (object old).get? name with
              | none =>
                  rw [hnew, hold] at hchild
                  injection hchild with hchild
                  exact hchild ▸ hvalue
              | some inner =>
                  rw [hnew, hold] at hchild
                  injection hchild with hchild
                  exact hchild ▸ ih name value hnew (hb.of_get? hold) hvalue

/-! ## Layers -/

/-- Objects that say the same under every name say the same. -/
theorem tree_eq_of_get? {doc other : Document} (hdoc : doc.isObject = true)
    (hother : other.isObject = true)
    (h : ∀ name, (doc.get? name).map tree = (other.get? name).map tree) :
    doc.tree = other.tree := by
  obtain ⟨members, rfl⟩ := isObject_iff.mp hdoc
  obtain ⟨others, rfl⟩ := isObject_iff.mp hother
  rw [tree, tree]
  refine congrArg Tree.object (funext fun name => ?_)
  rw [treeOfMembers_eq, treeOfMembers_eq]
  exact h name

/-- A layer has no object at a path where the one below it and the one above it have one. -/
def Parts (middle lower upper : Document) : Prop :=
  ∃ path inner between outer, lower.at? path = some inner ∧ middle.at? path = some between ∧
    upper.at? path = some outer ∧
    inner.isObject = true ∧ between.isObject = false ∧ outer.isObject = true

/-- What parts the members parts the objects that hold them. -/
theorem Parts.of_get? {lower middle upper inner between outer : Document} {name : String}
    (hlower : lower.get? name = some inner) (hmiddle : middle.get? name = some between)
    (hupper : upper.get? name = some outer) (h : between.Parts inner outer) :
    middle.Parts lower upper := by
  obtain ⟨path, a, b, c, ha, hb, hc, hkinds⟩ := h
  refine ⟨name :: path, a, b, c, ?_, ?_, ?_, hkinds⟩
  · rwa [at?_cons, hlower]
  · rwa [at?_cons, hmiddle]
  · rwa [at?_cons, hupper]

/-- Three layers say the same in either order of merging, unless the middle one parts the
others. -/
theorem tree_merge_assoc {lower middle upper : Document} (h : ¬ middle.Parts lower upper) :
    ((lower.merge middle).merge upper).tree = (lower.merge (middle.merge upper)).tree := by
  induction upper using members_induction generalizing lower middle with
  | leaf upper hleaf =>
      rw [merge_of_not_isObject (.inr hleaf), merge_of_not_isObject (.inr hleaf),
        merge_of_not_isObject (.inr hleaf)]
  | object members ih =>
      cases hmiddle : middle.isObject with
      | false =>
          -- the middle layer hides the lowest, which then has to be no object either
          have hlower : lower.isObject = false := by
            refine Bool.eq_false_iff.mpr fun hlower => h ⟨[], lower, middle, object members, ?_⟩
            exact ⟨rfl, rfl, rfl, hlower, hmiddle, rfl⟩
          rw [merge_of_not_isObject (.inr hmiddle), merge_of_not_isObject (.inl hmiddle),
            merge_of_not_isObject (.inl hlower)]
      | true =>
          have hupper : (middle.merge (object members)).isObject = true := isObject_merge _ _
          refine tree_eq_of_get? (isObject_merge _ _) ((isObject_merge _ _).trans hupper)
            fun name => ?_
          rw [get?_merge _ rfl, get?_merge _ hmiddle, get?_merge _ hupper, get?_merge _ rfl]
          cases hc : (object members).get? name with
          | none => rfl
          | some outer =>
              cases hb : middle.get? name with
              | none => rfl
              | some between =>
                  cases ha : lower.get? name with
                  | none => rfl
                  | some inner =>
                      refine congrArg some (ih name outer hc fun hparts => h ?_)
                      exact hparts.of_get? ha hb hc

/-- An overlay that is laid over a document again says nothing new. -/
theorem tree_merge_merge_self (base upper : Document) :
    ((base.merge upper).merge upper).tree = (base.merge upper).tree := by
  induction upper using members_induction generalizing base with
  | leaf upper hleaf => rw [merge_of_not_isObject (.inr hleaf), merge_of_not_isObject (.inr hleaf)]
  | object members ih =>
      refine tree_eq_of_get? (isObject_merge _ _) (isObject_merge _ _) fun name => ?_
      rw [get?_merge _ rfl, get?_merge _ rfl]
      cases hc : (object members).get? name with
      | none => rfl
      | some value =>
          cases base.get? name with
          | none =>
              -- laid over nothing the value is itself, and laid over null it is too
              have hnull : null.merge value = value := merge_of_not_isObject (.inl rfl)
              have hself := ih name value hc null
              rw [hnull] at hself
              exact congrArg some hself
          | some old => exact congrArg some (ih name value hc old)

/-- **Layers can be merged in either order unless the middle one parts the others, and a layer
can be laid down twice.** -/
theorem layers_compose {lower middle upper : Document} (hl : lower.Ordered) (hm : middle.Ordered)
    (hu : upper.Ordered) :
    (¬ middle.Parts lower upper →
      (lower.merge middle).merge upper = lower.merge (middle.merge upper)) ∧
    (lower.merge middle).merge middle = lower.merge middle :=
  ⟨fun h => ((hl.merge hm).merge hu).eq_of_tree (hl.merge (hm.merge hu)) (tree_merge_assoc h),
    ((hl.merge hm).merge hm).eq_of_tree (hl.merge hm) (tree_merge_merge_self lower middle)⟩

/-- An object with one member has its values below that. -/
theorem at?_of_single {first name : String} {value found : Document} {path : List String}
    (h : (object [(first, value)]).at? (name :: path) = some found) :
    value.at? path = some found := by
  rw [at?_cons, get?_object, Named.lookup?_cons] at h
  split at h
  · exact h
  · exact absurd h (by simp)

/-- Three layers that each set a parameter merge to a document with all of them. -/
theorem layers_compose_params :
    let lower := object [("params", object [("chainID", null)])]
    let middle := object [("params", object [("engine", object [])])]
    let upper := object [("params", object [("forks", array [])])]
    lower.Ordered ∧ middle.Ordered ∧ upper.Ordered ∧ ¬ middle.Parts lower upper ∧
      (lower.merge middle).merge upper = lower.merge (middle.merge upper) ∧
      (lower.merge middle).merge middle = lower.merge middle ∧
      lower.merge (middle.merge upper) = object [("params", object [("chainID", null),
        ("engine", object []), ("forks", array [])])] := by
  intro lower middle upper
  have hl : lower.Ordered := by decide
  have hm : middle.Ordered := by decide
  have hu : upper.Ordered := by decide
  have hparts : ¬ middle.Parts lower upper := by
    rintro ⟨path, _, between, _, _, hmiddle, _, _, hbetween, _⟩
    -- every value of the middle layer is an object
    refine absurd hbetween (Bool.ne_false_iff.mpr ?_)
    match path with
    | [] =>
        injection hmiddle with hmiddle
        rw [← hmiddle]
        rfl
    | [name] =>
        have h := at?_of_single hmiddle
        injection h with h
        rw [← h]
        rfl
    | [name, inner] =>
        have h := at?_of_single (at?_of_single hmiddle)
        injection h with h
        rw [← h]
        rfl
    | name :: inner :: next :: rest =>
        exact absurd (at?_of_single (at?_of_single hmiddle)) (by simp [at?_cons, get?_object])
  obtain ⟨hassoc, htwice⟩ := layers_compose hl hm hu
  exact ⟨hl, hm, hu, hparts, hassoc hparts, htwice, rfl⟩

/-- A scalar between two objects parts them: merged first with the layer below it, it hides the
member there. -/
example : (((object [("a", null)]).merge null).merge (object [])).at? ["a"] = none
    ∧ ((object [("a", null)]).merge (null.merge (object []))).at? ["a"] = some null :=
  ⟨rfl, rfl⟩

end ChainGenesis.Document
