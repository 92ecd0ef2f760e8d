import ChainGenesis.Json.Reader
import ChainGenesis.Proofs.Named
import ChainGenesis.Proofs.Success

/-!
# What a reader promises of a document

A document that was read has its members in order and is nested no deeper than the reader
allows. It need not be exact: a number that is no 64-bit integer is a double, and the text
of a double is not always read back as that double.
-/

namespace ChainGenesis.Document

mutual

/-- Every number of the document is an integer that is kept exact. -/
def Exact : Document → Prop
  | .number (.integer value) => Number.InRange value
  | .number (.double _) => False
  | .array items => ExactItems items
  | .object members => ExactMembers members
  | _ => True

def ExactItems : List Document → Prop
  | [] => True
  | item :: rest => Exact item ∧ ExactItems rest

def ExactMembers : List (String × Document) → Prop
  | [] => True
  | (_, value) :: rest => Exact value ∧ ExactMembers rest

end

mutual

/-- How deep arrays and objects are nested. -/
def nesting : Document → Nat
  | .array items => nestingOfItems items + 1
  | .object members => nestingOfMembers members + 1
  | _ => 0

def nestingOfItems : List Document → Nat
  | [] => 0
  | item :: rest => max (nesting item) (nestingOfItems rest)

def nestingOfMembers : List (String × Document) → Nat
  | [] => 0
  | (_, value) :: rest => max (nesting value) (nestingOfMembers rest)

end

/-! ## Deciding -/

mutual

instance decidableExact : (doc : Document) → Decidable doc.Exact
  | .null | .bool _ | .string _ => .isTrue trivial
  | .number (.integer value) => inferInstanceAs (Decidable (Number.InRange value))
  | .number (.double _) => .isFalse id
  | .array items => decidableExactItems items
  | .object members => decidableExactMembers members

instance decidableExactItems : (items : List Document) → Decidable (ExactItems items)
  | [] => .isTrue trivial
  | item :: rest => @instDecidableAnd _ _ (decidableExact item) (decidableExactItems rest)

instance decidableExactMembers :
    (members : List (String × Document)) → Decidable (ExactMembers members)
  | [] => .isTrue trivial
  | (_, value) :: rest => @instDecidableAnd _ _ (decidableExact value) (decidableExactMembers rest)

end

instance decidableNamedOrdered (members : Members) : Decidable members.Ordered :=
  inferInstanceAs (Decidable (List.Pairwise (fun a b => a.1 < b.1) members))

mutual

instance decidableOrdered : (doc : Document) → Decidable doc.Ordered
  | .null | .bool _ | .number _ | .string _ => .isTrue trivial
  | .array items => decidableOrderedItems items
  | .object members =>
    @instDecidableAnd _ _ (decidableNamedOrdered members) (decidableOrderedMembers members)

instance decidableOrderedItems : (items : List Document) → Decidable (OrderedItems items)
  | [] => .isTrue trivial
  | item :: rest => @instDecidableAnd _ _ (decidableOrdered item) (decidableOrderedItems rest)

instance decidableOrderedMembers :
    (members : List (String × Document)) → Decidable (OrderedMembers members)
  | [] => .isTrue trivial
  | (_, value) :: rest =>
    @instDecidableAnd _ _ (decidableOrdered value) (decidableOrderedMembers rest)

end

/-! ## Member by member -/

/-- What holds of every scalar, of an array if it holds of its items, and of an object if it holds
of its members, holds of all documents. -/
@[elab_as_elim]
theorem nested_induction {P : Document → Prop} (null : P .null) (bool : ∀ value, P (.bool value))
    (number : ∀ value, P (.number value)) (string : ∀ text, P (.string text))
    (array : ∀ items, (∀ item ∈ items, P item) → P (.array items))
    (object : ∀ members, (∀ member ∈ members, P member.2) → P (.object members))
    (doc : Document) : P doc :=
  match doc with
  | .null => null
  | .bool value => bool value
  | .number value => number value
  | .string text => string text
  | .array items => array items fun item h =>
      have : sizeOf item < sizeOf items := List.sizeOf_lt_of_mem h
      nested_induction null bool number string array object item
  | .object members => object members fun member h =>
      have : sizeOf member.2 < sizeOf members := by
        have hlt := List.sizeOf_lt_of_mem h
        rw [Prod.mk.sizeOf_spec] at hlt
        omega
      nested_induction null bool number string array object member.2
termination_by sizeOf doc

theorem orderedItems_iff {items : List Document} :
    OrderedItems items ↔ ∀ item ∈ items, item.Ordered := by
  induction items with
  | nil => simp [OrderedItems]
  | cons item rest ih => rw [OrderedItems, ih, List.forall_mem_cons]

theorem orderedMembers_iff {members : List (String × Document)} :
    OrderedMembers members ↔ ∀ member ∈ members, member.2.Ordered := by
  induction members with
  | nil => simp [OrderedMembers]
  | cons member rest ih =>
      obtain ⟨name, value⟩ := member
      rw [OrderedMembers, ih, List.forall_mem_cons]

theorem nestingOfMembers_le_iff {members : List (String × Document)} {levels : Nat} :
    nestingOfMembers members ≤ levels ↔ ∀ member ∈ members, member.2.nesting ≤ levels := by
  induction members with
  | nil => simp [nestingOfMembers]
  | cons member rest ih =>
      obtain ⟨name, value⟩ := member
      rw [nestingOfMembers, Nat.max_le, ih, List.forall_mem_cons]

theorem nestingOfItems_le_iff {items : List Document} {levels : Nat} :
    nestingOfItems items ≤ levels ↔ ∀ item ∈ items, item.nesting ≤ levels := by
  induction items with
  | nil => simp [nestingOfItems]
  | cons item rest ih => rw [nestingOfItems, Nat.max_le, ih, List.forall_mem_cons]

theorem exactItems_iff {items : List Document} :
    ExactItems items ↔ ∀ item ∈ items, item.Exact := by
  induction items with
  | nil => simp [ExactItems]
  | cons item rest ih => rw [ExactItems, ih, List.forall_mem_cons]

theorem exactMembers_iff {members : List (String × Document)} :
    ExactMembers members ↔ ∀ member ∈ members, member.2.Exact := by
  induction members with
  | nil => simp [ExactMembers]
  | cons member rest ih =>
      obtain ⟨name, value⟩ := member
      rw [ExactMembers, ih, List.forall_mem_cons]

/-- Nothing is in a collection but what it was made from. -/
theorem mem_of_mem_ofList {entries : List (String × Document)} {member : String × Document}
    (h : member ∈ Named.ofList entries) : member ∈ entries := by
  have hl := (Named.ordered_ofList entries).lookup?_of_mem h
  rw [Named.lookup?_ofList] at hl
  exact List.mem_reverse.mp (Named.mem_of_lookup? hl)

/-! ## Reading -/

mutual

/-- A document that was read is ordered, and as flat as the levels that were left. -/
theorem ordered_of_ofWritten : ∀ {written : Written} {levels : Nat} {doc : Document},
    ofWritten levels written = .ok doc → doc.Ordered ∧ doc.nesting ≤ levels
  | .null, _, _, h => by
      injection h with h
      rw [← h]
      exact ⟨trivial, Nat.zero_le _⟩
  | .bool _, _, _, h => by
      injection h with h
      rw [← h]
      exact ⟨trivial, Nat.zero_le _⟩
  | .number _, _, _, h => by
      obtain ⟨value, _, rfl⟩ := map_eq_ok.mp h
      exact ⟨trivial, Nat.zero_le _⟩
  | .string _, _, _, h => by
      obtain ⟨text, _, rfl⟩ := map_eq_ok.mp h
      exact ⟨trivial, Nat.zero_le _⟩
  | .array _ _, 0, _, h => absurd h (by simp [ofWritten])
  | .array items fault, levels + 1, _, h => by
      rw [ofWritten] at h
      obtain ⟨docs, hi, rfl⟩ := map_eq_ok.mp h
      obtain ⟨ho, hn⟩ := ordered_of_itemsOfWritten hi
      exact ⟨ho, Nat.succ_le_succ hn⟩
  | .object _ _, 0, _, h => absurd h (by simp [ofWritten])
  | .object members fault, levels + 1, _, h => by
      rw [ofWritten] at h
      obtain ⟨entries, hm, rfl⟩ := map_eq_ok.mp h
      have hall := ordered_of_membersOfWritten hm
      refine ⟨⟨Named.ordered_ofList entries, ?_⟩, Nat.succ_le_succ ?_⟩
      · exact orderedMembers_iff.mpr fun member h => (hall member (mem_of_mem_ofList h)).1
      · exact nestingOfMembers_le_iff.mpr fun member h => (hall member (mem_of_mem_ofList h)).2
  | .brokenNumber _, _, _, h => absurd h (by simp [ofWritten])
  | .brokenWord _, _, _, h => absurd h (by simp [ofWritten])
  | .missing _, _, _, h => absurd h (by simp [ofWritten])

theorem ordered_of_itemsOfWritten : ∀ {items : List Written} {levels : Nat}
    {fault : Option Fault} {docs : List Document}, itemsOfWritten levels fault items = .ok docs →
      OrderedItems docs ∧ nestingOfItems docs ≤ levels
  | [], _, fault, docs, h => by
      cases fault with
      | none =>
          injection h with h
          rw [← h]
          exact ⟨trivial, Nat.zero_le _⟩
      | some fault => exact absurd h (by simp [itemsOfWritten])
  | item :: rest, levels, fault, docs, h => by
      rw [itemsOfWritten] at h
      obtain ⟨doc, hd, h⟩ := bind_eq_ok.mp h
      obtain ⟨others, ho, h⟩ := bind_eq_ok.mp h
      injection h with h
      rw [← h]
      have hd := ordered_of_ofWritten hd
      have ho := ordered_of_itemsOfWritten ho
      exact ⟨⟨hd.1, ho.1⟩, Nat.max_le.mpr ⟨hd.2, ho.2⟩⟩

theorem ordered_of_membersOfWritten : ∀ {members : List (StringLiteral × Written)}
    {levels : Nat} {fault : Option Fault} {entries : List (String × Document)},
    membersOfWritten levels fault members = .ok entries →
      ∀ entry ∈ entries, entry.2.Ordered ∧ entry.2.nesting ≤ levels
  | [], _, fault, entries, h => by
      cases fault with
      | none =>
          injection h with h
          rw [← h]
          exact fun entry hmem => absurd hmem (by simp)
      | some fault => exact absurd h (by simp [membersOfWritten])
  | (name, value) :: rest, levels, fault, entries, h => by
      rw [membersOfWritten] at h
      obtain ⟨text, _, h⟩ := bind_eq_ok.mp h
      obtain ⟨doc, hd, h⟩ := bind_eq_ok.mp h
      obtain ⟨others, ho, h⟩ := bind_eq_ok.mp h
      injection h with h
      rw [← h]
      intro entry hmem
      rcases List.mem_cons.mp hmem with hmem | hmem
      · rw [hmem]
        exact ordered_of_ofWritten hd
      · exact ordered_of_membersOfWritten ho entry hmem

end

/-- A text is read as a document if it has a tree without a fault. -/
theorem read_eq_ok_iff {text : List Symbol} {doc : Document} :
    read text = .ok doc ↔ ∃ written, Written.ofSymbols text = (written, none)
      ∧ ofWritten maxDepth written = .ok doc := by
  unfold read Written.decode
  constructor
  · intro h
    generalize hs : Written.ofSymbols text = found at h
    obtain ⟨written, fault⟩ := found
    dsimp only at h
    split at h
    · exact absurd h (by simp)
    · exact absurd h (by simp)
    · rename_i hd
      injection h with h
      exact ⟨written, rfl, h ▸ hd⟩
  · rintro ⟨written, hs, hd⟩
    rw [hs]
    dsimp only
    rw [hd]

/-- **What is read is ordered and not nested too deep.** -/
theorem ordered_of_read {text : List Symbol} {doc : Document} (h : read text = .ok doc) :
    doc.Ordered ∧ doc.nesting ≤ maxDepth := by
  obtain ⟨written, _, hd⟩ := read_eq_ok_iff.mp h
  exact ordered_of_ofWritten hd

end ChainGenesis.Document
