import ChainGenesis.Json.Reader
import ChainGenesis.Proofs.Named
import ChainGenesis.Proofs.Success

/-!
# What a text says

Two texts can differ in white space, in the order of their members and in the way their
strings are spelled, and still say the same. What they say is a `Tree`: an object there is a
function from names to values, so it has no order, and a name that was given twice has its
last value.

A document keeps its members in order, and that is the only difference: two ordered
documents with one tree are one document (`Ordered.eq_of_tree`).
-/

namespace ChainGenesis

/-- A value without an order of members. -/
inductive Tree where
  | null
  | bool (value : Bool)
  | number (value : Number)
  | string (text : String)
  | array (items : List Tree)
  | object (member : String → Option Tree)

/-! ## The tree of a document -/

namespace Document

mutual

/-- What a document says. -/
def tree : Document → Tree
  | .null => .null
  | .bool value => .bool value
  | .number value => .number value
  | .string text => .string text
  | .array items => .array (treeOfItems items)
  | .object members => .object (treeOfMembers members)

def treeOfItems : List Document → List Tree
  | [] => []
  | item :: rest => tree item :: treeOfItems rest

/-- The tree under each name. -/
def treeOfMembers : List (String × Document) → String → Option Tree
  | [], _ => none
  | (name, value) :: rest, other =>
    if name = other then some (tree value) else treeOfMembers rest other

end

theorem treeOfItems_eq_map (items : List Document) : treeOfItems items = items.map tree := by
  induction items with
  | nil => rfl
  | cons item rest ih => rw [treeOfItems, ih, List.map_cons]

theorem treeOfMembers_eq (members : List (String × Document)) (name : String) :
    treeOfMembers members name = (Named.lookup? name members).map tree := by
  induction members with
  | nil => rfl
  | cons member rest ih =>
      obtain ⟨first, value⟩ := member
      rw [treeOfMembers, Named.lookup?_cons, ih]
      split <;> rfl

theorem treeOfMembers_eq_none {members : List (String × Document)} {name : String} :
    treeOfMembers members name = none ↔ Named.lookup? name members = none := by
  rw [treeOfMembers_eq, Option.map_eq_none_iff]

mutual

/-- **A tree has one ordered document.** -/
theorem Ordered.eq_of_tree : ∀ {d e : Document}, d.Ordered → e.Ordered → d.tree = e.tree → d = e
  | .null, e, _, _, h => by cases e <;> simp [tree] at h ⊢
  | .bool v, e, _, _, h => by cases e <;> simp [tree] at h ⊢; exact h
  | .number v, e, _, _, h => by cases e <;> simp [tree] at h ⊢; exact h
  | .string v, e, _, _, h => by cases e <;> simp [tree] at h ⊢; exact h
  | .array items, e, hd, he, h => by
      cases e with
      | array others =>
          injection h with h
          rw [OrderedItems.eq_of_tree hd he h]
      | _ => simp [tree] at h
  | .object members, e, hd, he, h => by
      cases e with
      | object others =>
          injection h with h
          rw [OrderedMembers.eq_of_tree hd.1 hd.2 he.1 he.2 h]
      | _ => simp [tree] at h

theorem OrderedItems.eq_of_tree : ∀ {ds es : List Document},
    OrderedItems ds → OrderedItems es → treeOfItems ds = treeOfItems es → ds = es
  | [], es, _, _, h => by
      cases es with
      | nil => rfl
      | cons e es => simp [treeOfItems] at h
  | d :: ds, es, hd, he, h => by
      cases es with
      | nil => simp [treeOfItems] at h
      | cons e es =>
          injection h with h1 h2
          rw [Ordered.eq_of_tree hd.1 he.1 h1, OrderedItems.eq_of_tree hd.2 he.2 h2]

theorem OrderedMembers.eq_of_tree : ∀ {ms ns : List (String × Document)},
    Named.Ordered ms → OrderedMembers ms → Named.Ordered ns → OrderedMembers ns →
    treeOfMembers ms = treeOfMembers ns → ms = ns
  | [], ns, _, _, _, _, h => by
      cases ns with
      | nil => rfl
      | cons n ns =>
          obtain ⟨name, value⟩ := n
          have := congrFun h name
          rw [treeOfMembers, treeOfMembers, if_pos rfl] at this
          exact absurd this (by simp)
  | (a, v) :: ms, ns, hm, hv, hn, hw, h => by
      cases ns with
      | nil =>
          have := congrFun h a
          rw [treeOfMembers, treeOfMembers, if_pos rfl] at this
          exact absurd this (by simp)
      | cons n ns =>
          obtain ⟨b, w⟩ := n
          -- each first name is known to the other side, and both lists ascend
          have hab : a = b := by
            refine hm.head_eq hn ?_ ?_
            · rw [ne_eq, ← treeOfMembers_eq_none, ← congrFun h a, treeOfMembers, if_pos rfl]
              simp
            · rw [ne_eq, ← treeOfMembers_eq_none, congrFun h b, treeOfMembers, if_pos rfl]
              simp
          subst hab
          have hvw := congrFun h a
          rw [treeOfMembers, treeOfMembers, if_pos rfl, if_pos rfl] at hvw
          injection hvw with hvw
          have hrest : treeOfMembers ms = treeOfMembers ns := by
            funext name
            by_cases he : a = name
            · subst he
              rw [treeOfMembers_eq_none.mpr hm.lookup?_tail,
                treeOfMembers_eq_none.mpr hn.lookup?_tail]
            · have := congrFun h name
              rwa [treeOfMembers, treeOfMembers, if_neg he, if_neg he] at this
          rw [Ordered.eq_of_tree hv.1 hw.1 hvw,
            OrderedMembers.eq_of_tree hm.tail hv.2 hn.tail hw.2 hrest]

end

end Document

/-! ## The tree of a text -/

namespace Written

mutual

/-- What a written tree says; nothing if a part of it says nothing. -/
def tree? : Written → Option Tree
  | .null => some .null
  | .bool value => some (.bool value)
  | .number numeral => numeral.value.toOption.map .number
  | .string literal => literal.text.toOption.map .string
  | .array items none => (treeOfItems? items).map .array
  | .object members none => (treeOfMembers? members).map .object
  | _ => none

def treeOfItems? : List Written → Option (List Tree)
  | [] => some []
  | item :: rest => do
    let item ← tree? item
    let rest ← treeOfItems? rest
    return item :: rest

/-- The tree under each name, the last one if the name is repeated. -/
def treeOfMembers? : List (StringLiteral × Written) → Option (String → Option Tree)
  | [] => some fun _ => none
  | (name, value) :: rest => do
    let name ← name.text.toOption
    let value ← tree? value
    let rest ← treeOfMembers? rest
    return fun other => (rest other).or (if name = other then some value else none)

end

end Written

namespace Document

mutual

/-- A document that was read says what its text says. -/
theorem tree?_of_ofWritten : ∀ {written : Written} {levels : Nat} {doc : Document},
    ofWritten levels written = .ok doc → written.tree? = some doc.tree
  | .null, _, _, h => by
      injection h with h
      rw [← h, Written.tree?, tree]
  | .bool _, _, _, h => by
      injection h with h
      rw [← h, Written.tree?, tree]
  | .number numeral, _, _, h => by
      obtain ⟨value, hv, rfl⟩ := map_eq_ok.mp h
      rw [Written.tree?, hv, tree]
      rfl
  | .string literal, _, _, h => by
      obtain ⟨text, ht, rfl⟩ := map_eq_ok.mp h
      rw [Written.tree?, ht, tree]
      rfl
  | .array items fault, 0, _, h => absurd h (by simp [ofWritten])
  | .array items fault, levels + 1, _, h => by
      rw [ofWritten] at h
      obtain ⟨docs, hi, rfl⟩ := map_eq_ok.mp h
      obtain ⟨hf, hi⟩ := treeOfItems?_of_itemsOfWritten hi
      rw [hf, Written.tree?, hi, tree]
      rfl
  | .object members fault, 0, _, h => absurd h (by simp [ofWritten])
  | .object members fault, levels + 1, _, h => by
      rw [ofWritten] at h
      obtain ⟨entries, hm, rfl⟩ := map_eq_ok.mp h
      obtain ⟨hf, hm⟩ := treeOfMembers?_of_membersOfWritten hm
      rw [hf, Written.tree?, hm, tree]
      -- reading puts the members in order, and the last of a name counts on both sides
      refine congrArg (fun f => some (Tree.object f)) ?_
      funext name
      rw [treeOfMembers_eq, treeOfMembers_eq, Named.lookup?_ofList]
  | .brokenNumber _, _, _, h => absurd h (by simp [ofWritten])
  | .brokenWord _, _, _, h => absurd h (by simp [ofWritten])
  | .missing _, _, _, h => absurd h (by simp [ofWritten])

theorem treeOfItems?_of_itemsOfWritten : ∀ {items : List Written} {levels : Nat}
    {fault : Option Fault} {docs : List Document}, itemsOfWritten levels fault items = .ok docs →
      fault = none ∧ Written.treeOfItems? items = some (treeOfItems docs)
  | [], _, fault, docs, h => by
      cases fault with
      | none =>
          injection h with h
          exact ⟨rfl, by rw [← h]; rfl⟩
      | some fault => exact absurd h (by simp [itemsOfWritten])
  | item :: rest, levels, fault, docs, h => by
      rw [itemsOfWritten] at h
      obtain ⟨doc, hd, h⟩ := bind_eq_ok.mp h
      obtain ⟨others, ho, h⟩ := bind_eq_ok.mp h
      injection h with h
      obtain ⟨hf, ho⟩ := treeOfItems?_of_itemsOfWritten ho
      refine ⟨hf, ?_⟩
      rw [Written.treeOfItems?, tree?_of_ofWritten hd, ho, ← h]
      rfl

theorem treeOfMembers?_of_membersOfWritten : ∀ {members : List (StringLiteral × Written)}
    {levels : Nat} {fault : Option Fault} {entries : List (String × Document)},
    membersOfWritten levels fault members = .ok entries →
      fault = none ∧ Written.treeOfMembers? members = some (treeOfMembers entries.reverse)
  | [], _, fault, entries, h => by
      cases fault with
      | none =>
          injection h with h
          exact ⟨rfl, by rw [← h]; rfl⟩
      | some fault => exact absurd h (by simp [membersOfWritten])
  | (name, value) :: rest, levels, fault, entries, h => by
      rw [membersOfWritten] at h
      obtain ⟨text, ht, h⟩ := bind_eq_ok.mp h
      obtain ⟨doc, hd, h⟩ := bind_eq_ok.mp h
      obtain ⟨others, ho, h⟩ := bind_eq_ok.mp h
      injection h with h
      obtain ⟨hf, ho⟩ := treeOfMembers?_of_membersOfWritten ho
      refine ⟨hf, ?_⟩
      rw [Written.treeOfMembers?, ht, tree?_of_ofWritten hd, ho, ← h]
      refine congrArg some ?_
      funext other
      rw [treeOfMembers_eq, treeOfMembers_eq, List.reverse_cons, Named.lookup?_append,
        Named.lookup?_cons, Named.lookup?_nil]
      cases Named.lookup? other others.reverse with
      | none => split <;> rfl
      | some found => rfl

end

end Document

end ChainGenesis
