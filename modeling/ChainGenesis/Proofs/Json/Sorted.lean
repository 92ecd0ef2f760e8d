import ChainGenesis.Json.Layout
import ChainGenesis.Proofs.Json.Shape
import ChainGenesis.Proofs.Json.Tree

/-!
# Sorting members

Before a document is written canonically its members are put in order. That changes nothing of
what the document says, and nothing at all in a document whose members are in order already. So a
canonical text depends on what a document says and not on how its members came to stand.
-/

namespace ChainGenesis.Document

/-! ## Items and members -/

theorem sortedItems_eq_map (items : List Document) : sortedItems items = items.map sorted := by
  induction items with
  | nil => rfl
  | cons item rest ih => rw [sortedItems, ih, List.map_cons]

theorem ordered_sortedMembers (members : List (String × Document)) :
    Named.Ordered (sortedMembers members) := by
  induction members with
  | nil => exact List.Pairwise.nil
  | cons member rest ih => exact ih.put _ _

theorem lookup?_sortedMembers (members : List (String × Document)) (name : String) :
    Named.lookup? name (sortedMembers members) = (Named.lookup? name members).map sorted := by
  induction members with
  | nil => rfl
  | cons member rest ih =>
      obtain ⟨first, value⟩ := member
      rw [sortedMembers, Named.lookup?_put, Named.lookup?_cons, ih]
      split <;> rfl

/-- What holds of the members, each with its value sorted, holds of the sorted members. -/
theorem forall_mem_sortedMembers {P : Document → Prop} {members : List (String × Document)}
    (h : ∀ member ∈ members, P member.2.sorted) :
    ∀ member ∈ sortedMembers members, P member.2 := by
  induction members with
  | nil => exact fun _ hmem => absurd hmem List.not_mem_nil
  | cons first rest ih =>
      obtain ⟨name, value⟩ := first
      rw [List.forall_mem_cons] at h
      intro member hmem
      rcases Named.mem_put hmem with rfl | hmem
      · exact h.1
      · exact ih h.2 member hmem

/-! ## Documents -/

/-- A sorted document has its members in order. -/
theorem ordered_sorted (doc : Document) : doc.sorted.Ordered := by
  induction doc using nested_induction with
  | null | bool _ | number _ | string _ => trivial
  | array items ih =>
      rw [sorted, sortedItems_eq_map]
      exact orderedItems_iff.mpr (List.forall_mem_map.mpr ih)
  | object members ih =>
      exact ⟨ordered_sortedMembers members, orderedMembers_iff.mpr (forall_mem_sortedMembers ih)⟩

/-- **Sorting changes nothing of what a document says.** -/
theorem tree_sorted (doc : Document) : doc.sorted.tree = doc.tree := by
  induction doc using nested_induction with
  | null | bool _ | number _ | string _ => rfl
  | array items ih =>
      rw [sorted, sortedItems_eq_map, tree, tree, treeOfItems_eq_map, treeOfItems_eq_map,
        List.map_map]
      exact congrArg Tree.array (List.map_congr_left ih)
  | object members ih =>
      rw [sorted, tree, tree]
      refine congrArg Tree.object (funext fun name => ?_)
      rw [treeOfMembers_eq, treeOfMembers_eq, lookup?_sortedMembers, Option.map_map]
      exact Option.map_congr fun value hvalue => ih (name, value) (Named.mem_of_lookup? hvalue)

/-- Numbers stay as they are, so a document that is exact is exact when it is sorted. -/
theorem exact_sorted {doc : Document} (h : doc.Exact) : doc.sorted.Exact := by
  induction doc using nested_induction with
  | null | bool _ | number _ | string _ => exact h
  | array items ih =>
      rw [sorted, sortedItems_eq_map]
      exact exactItems_iff.mpr (List.forall_mem_map.mpr fun item hmem =>
        ih item hmem (exactItems_iff.mp h item hmem))
  | object members ih =>
      exact exactMembers_iff.mpr (forall_mem_sortedMembers fun member hmem =>
        ih member hmem (exactMembers_iff.mp h member hmem))

/-- Sorting nests nothing deeper. A member can go, so the depth need not stay. -/
theorem nesting_sorted_le (doc : Document) : doc.sorted.nesting ≤ doc.nesting := by
  induction doc using nested_induction with
  | null | bool _ | number _ | string _ => exact Nat.le_refl _
  | array items ih =>
      rw [sorted, sortedItems_eq_map]
      refine Nat.succ_le_succ (nestingOfItems_le_iff.mpr (List.forall_mem_map.mpr ?_))
      have hitems := nestingOfItems_le_iff.mp (Nat.le_refl (nestingOfItems items))
      exact fun item hmem => Nat.le_trans (ih item hmem) (hitems item hmem)
  | object members ih =>
      have hmembers := nestingOfMembers_le_iff.mp (Nat.le_refl (nestingOfMembers members))
      have hsorted := forall_mem_sortedMembers (P := fun value =>
        value.nesting ≤ nestingOfMembers members) fun member hmem =>
          Nat.le_trans (ih member hmem) (hmembers member hmem)
      exact Nat.succ_le_succ (nestingOfMembers_le_iff.mpr hsorted)

/-- Members that are in order stay where they are. -/
theorem Ordered.sorted_eq {doc : Document} (h : doc.Ordered) : doc.sorted = doc :=
  (ordered_sorted doc).eq_of_tree h (tree_sorted doc)

/-- A document that is in order is written canonically as it stands. -/
theorem Ordered.canonical_eq {doc : Document} (h : doc.Ordered) (layout : Layout) :
    doc.canonical layout = doc.textIn layout := by
  rw [canonical, h.sorted_eq]

/-- **Documents that say the same have one canonical text**, in whatever order their members
stand. -/
theorem canonical_eq_of_tree {d e : Document} (h : d.tree = e.tree) (layout : Layout) :
    d.canonical layout = e.canonical layout := by
  have hsorted : d.sorted = e.sorted :=
    (ordered_sorted d).eq_of_tree (ordered_sorted e)
      ((tree_sorted d).trans (h.trans (tree_sorted e).symm))
  rw [canonical, hsorted, canonical]

end ChainGenesis.Document
