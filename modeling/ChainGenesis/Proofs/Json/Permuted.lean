import ChainGenesis.Json.Record
import ChainGenesis.Proofs.Json.Spelling
import ChainGenesis.Proofs.Named
import ChainGenesis.Proofs.Steps

/-!
# The order of members

The members of an object can be written in any order, and whoever writes a file by hand or with
a tool will use some order of his own. As long as no name stands in an object twice, no reader
of this library minds: where it can read a tree, it reads the same value from every tree that
has the members of its objects in another order, be it at the top or further down. A reader for
which that is so is `Stable`.
-/

namespace ChainGenesis

namespace Written

/-- Two members whose names are not one text. -/
def Differ (a b : StringLiteral × Written) : Prop :=
  ∀ name, a.1.text = .ok name → b.1.text ≠ .ok name

theorem Differ.symm {a b : StringLiteral × Written} (h : Differ a b) : Differ b a :=
  fun name hb ha => h name ha hb

/-- No name stands in an object twice. -/
def Distinct (members : List (StringLiteral × Written)) : Prop := members.Pairwise Differ

/-- A tree with the members of its objects in another order, at any depth. -/
inductive Permuted : Written → Written → Prop where
  | refl {w : Written} : Permuted w w
  | trans {u v w : Written} : Permuted u v → Permuted v w → Permuted u w
  | item {v w : Written} {front back : List Written} : Permuted v w →
      Permuted (.array (front ++ v :: back) none) (.array (front ++ w :: back) none)
  | value {name : StringLiteral} {v w : Written} {front back : List (StringLiteral × Written)} :
      Permuted v w →
      Permuted (.object (front ++ (name, v) :: back) none)
        (.object (front ++ (name, w) :: back) none)
  | members {members others : List (StringLiteral × Written)} : Distinct members →
      members.Perm others → Permuted (.object members none) (.object others none)

theorem Permuted.symm {v w : Written} (h : Permuted v w) : Permuted w v := by
  induction h with
  | refl => exact .refl
  | trans _ _ ih ih' => exact ih'.trans ih
  | item _ ih => exact ih.item
  | value _ ih => exact ih.value
  | members hdistinct hperm =>
      exact .members (hperm.pairwise hdistinct Differ.symm) hperm.symm

/-! ## Passing over -/

theorem skipItems_eq_ok_iff {items : List Written} :
    skipItems none items = .ok () ↔ ∀ item ∈ items, skip item = .ok () := by
  induction items with
  | nil => simp [skipItems]
  | cons item rest ih =>
      rw [List.forall_mem_cons, ← ih, skipItems]
      cases skip item with
      | ok value => exact ⟨fun h => ⟨rfl, h⟩, fun h => h.2⟩
      | error fault => exact ⟨fun h => absurd h (by simp), fun h => absurd h.1 (by simp)⟩

theorem skipMembers_eq_ok_iff {members : List (StringLiteral × Written)} :
    skipMembers none members = .ok ()
      ↔ ∀ member ∈ members, member.1.skip = .ok () ∧ skip member.2 = .ok () := by
  induction members with
  | nil => simp [skipMembers]
  | cons member rest ih =>
      obtain ⟨name, value⟩ := member
      rw [List.forall_mem_cons, ← ih, skipMembers]
      cases name.skip with
      | error fault => exact ⟨fun h => absurd h (by simp), fun h => absurd h.1.1 (by simp)⟩
      | ok done =>
          dsimp only
          cases skip value with
          | error fault => exact ⟨fun h => absurd h (by simp), fun h => absurd h.1.2 (by simp)⟩
          | ok done => exact ⟨fun h => ⟨⟨rfl, rfl⟩, h⟩, fun h => h.2⟩

/-- What can be passed over can be passed over in another order. -/
theorem Permuted.skip {v w : Written} (h : Permuted v w) (hv : v.skip = .ok ()) :
    w.skip = .ok () := by
  induction h with
  | refl => exact hv
  | trans _ _ ih ih' => exact ih' (ih hv)
  | @item v w front back _ ih =>
      rw [Written.skip, skipItems_eq_ok_iff, List.forall_mem_append, List.forall_mem_cons] at *
      exact ⟨hv.1, ih hv.2.1, hv.2.2⟩
  | @value name v w front back _ ih =>
      rw [Written.skip, skipMembers_eq_ok_iff, List.forall_mem_append, List.forall_mem_cons] at *
      exact ⟨hv.1, ⟨hv.2.1.1, ih hv.2.1.2⟩, hv.2.2⟩
  | members _ hperm =>
      rw [Written.skip, skipMembers_eq_ok_iff] at *
      exact fun member hmem => hv member (hperm.mem_iff.mpr hmem)

/-! ## Reading -/

/-- A reader that reads the same whatever the order of members is. -/
def Stable {α : Type} (read : Written → Except Fault α) : Prop :=
  ∀ {v w : Written} {value : α}, Permuted v w → read v = .ok value → read w = .ok value

/-- A reader that takes neither arrays nor objects is stable. -/
theorem stable_of_refuses {α : Type} {read : Written → Except Fault α}
    (harray : ∀ items value, read (.array items none) ≠ .ok value)
    (hobject : ∀ members value, read (.object members none) ≠ .ok value) : Stable read := by
  intro v w value h hv
  induction h with
  | refl => exact hv
  | trans _ _ ih ih' => exact ih' (ih hv)
  | item => exact absurd hv (harray _ _)
  | value => exact absurd hv (hobject _ _)
  | members => exact absurd hv (hobject _ _)

@[simp] theorem stable_readText : Stable readText :=
  stable_of_refuses (by simp [readText]) (by simp [readText])

@[simp] theorem stable_readInt64 : Stable readInt64 :=
  stable_of_refuses (by simp [readInt64]) (by simp [readInt64])

theorem readList_eq_ok_iff {α : Type} {read : Written → Except Fault α} {items : List Written}
    {values : List α} :
    readList read (.array items none) = .ok values ↔ items.mapM read = .ok values := by
  constructor
  · intro h
    obtain ⟨found, hfound, h⟩ := bind_eq_ok.mp h
    injection h with h
    exact h ▸ hfound
  · exact fun h => bind_eq_ok.mpr ⟨values, h, rfl⟩

@[simp] theorem stable_readList {α : Type} {read : Written → Except Fault α} (hread : Stable read) :
    Stable (readList read) := by
  intro v w values h hv
  induction h with
  | refl => exact hv
  | trans _ _ ih ih' => exact ih' (ih hv)
  | item hpermuted =>
      rw [readList_eq_ok_iff] at *
      exact mapM_replace_eq (fun _ => hread hpermuted) hv
  | value => exact absurd hv (by simp [readList])
  | members => exact absurd hv (by simp [readList])

/-! ## Members -/

/-- Reads a member. -/
def readMember {α : Type} (read : Written → Except Fault α) (member : StringLiteral × Written) :
    Except Fault (String × α) := do
  let name ← member.1.text
  let value ← read member.2
  return (name, value)

theorem readMember_eq_ok_iff {α : Type} {read : Written → Except Fault α}
    {member : StringLiteral × Written} {entry : String × α} :
    readMember read member = .ok entry
      ↔ member.1.text = .ok entry.1 ∧ read member.2 = .ok entry.2 := by
  constructor
  · intro h
    obtain ⟨name, hname, h⟩ := bind_eq_ok.mp h
    obtain ⟨value, hvalue, h⟩ := bind_eq_ok.mp h
    injection h with h
    exact h ▸ ⟨hname, hvalue⟩
  · rintro ⟨hname, hvalue⟩
    exact bind_eq_ok.mpr ⟨_, hname, bind_eq_ok.mpr ⟨_, hvalue, rfl⟩⟩

theorem readMember_replace {α : Type} {read : Written → Except Fault α} {name : StringLiteral}
    {v w : Written} (h : ∀ value, read v = .ok value → read w = .ok value) (entry : String × α)
    (hv : readMember read (name, v) = .ok entry) : readMember read (name, w) = .ok entry := by
  rw [readMember_eq_ok_iff] at *
  exact ⟨hv.1, h _ hv.2⟩

theorem nodup_of_distinct {α : Type} {read : Written → Except Fault α}
    {members : List (StringLiteral × Written)} {entries : List (String × α)}
    (hdistinct : Distinct members) (h : members.mapM (readMember read) = .ok entries) :
    (entries.map Prod.fst).Nodup := by
  induction members generalizing entries with
  | nil =>
      injection h with h
      exact h ▸ List.nodup_nil
  | cons member rest ih =>
      obtain ⟨entry, others, hentry, hothers, rfl⟩ := mapM_cons_eq_ok.mp h
      obtain ⟨hdiffer, hrest⟩ := List.pairwise_cons.mp hdistinct
      refine List.nodup_cons.mpr ⟨fun hmem => ?_, ih hrest hothers⟩
      obtain ⟨other, hother, heq⟩ := List.mem_map.mp hmem
      obtain ⟨found, hfound, hread⟩ := exists_of_mem_mapM hothers hother
      exact hdiffer found hfound entry.1 (readMember_eq_ok_iff.mp hentry).1
        (heq ▸ (readMember_eq_ok_iff.mp hread).1)

/-- In another order members make the same collection. -/
theorem ofList_of_perm {α : Type} {read : Written → Except Fault α}
    {members others : List (StringLiteral × Written)} {entries : List (String × α)}
    (hdistinct : Distinct members) (hperm : members.Perm others)
    (h : members.mapM (readMember read) = .ok entries) :
    ∃ entries', others.mapM (readMember read) = .ok entries'
      ∧ Named.ofList entries = Named.ofList entries' := by
  obtain ⟨entries', h', hperm⟩ := mapM_perm hperm h
  exact ⟨entries', h', Named.ofList_eq_of_perm hperm (nodup_of_distinct hdistinct h)⟩

theorem readNamed_eq_ok_iff {α : Type} {read : Written → Except Fault α}
    {members : List (StringLiteral × Written)} {named : Named α} :
    readNamed read (.object members none) = .ok named
      ↔ ∃ entries, members.mapM (readMember read) = .ok entries ∧ Named.ofList entries = named := by
  constructor
  · intro h
    obtain ⟨entries, hentries, h⟩ := bind_eq_ok.mp h
    injection h with h
    exact ⟨entries, hentries, h⟩
  · rintro ⟨entries, hentries, rfl⟩
    exact bind_eq_ok.mpr ⟨entries, hentries, rfl⟩

@[simp] theorem stable_readNamed {α : Type} {read : Written → Except Fault α}
    (hread : Stable read) : Stable (readNamed read) := by
  intro v w named h hv
  induction h with
  | refl => exact hv
  | trans _ _ ih ih' => exact ih' (ih hv)
  | item => exact absurd hv (by simp [readNamed])
  | value hpermuted =>
      rw [readNamed_eq_ok_iff] at *
      obtain ⟨entries, hentries, hnamed⟩ := hv
      exact ⟨entries, mapM_replace_eq
        (readMember_replace fun _ => hread hpermuted) hentries, hnamed⟩
  | members hdistinct hperm =>
      rw [readNamed_eq_ok_iff] at *
      obtain ⟨entries, hentries, rfl⟩ := hv
      obtain ⟨entries', hentries', heq⟩ := ofList_of_perm hdistinct hperm hentries
      exact ⟨entries', hentries', heq.symm⟩

end Written

/-! ## Documents -/

namespace Document

open Written (Permuted Stable readMember)

theorem itemsOfWritten_eq (depth : Nat) (items : List Written) :
    itemsOfWritten depth none items = items.mapM (ofWritten depth) := by
  induction items with
  | nil => rfl
  | cons item rest ih => rw [itemsOfWritten, List.mapM_cons, ih]

theorem membersOfWritten_eq (depth : Nat) (members : List (StringLiteral × Written)) :
    membersOfWritten depth none members = members.mapM (readMember (ofWritten depth)) := by
  induction members with
  | nil => rfl
  | cons member rest ih =>
      rw [membersOfWritten, List.mapM_cons, ih, readMember]
      simp only [bind_assoc, pure_bind]

/-- The documents of an array are those of its items, one level down. -/
theorem ofWritten_array_eq_ok_iff {depth : Nat} {items : List Written} {doc : Document} :
    ofWritten depth (.array items none) = .ok doc
      ↔ ∃ below docs, depth = below + 1 ∧ items.mapM (ofWritten below) = .ok docs
        ∧ doc = .array docs := by
  cases depth with
  | zero => simp [ofWritten]
  | succ below =>
      rw [ofWritten, itemsOfWritten_eq, map_eq_ok]
      constructor
      · rintro ⟨docs, hdocs, rfl⟩
        exact ⟨below, docs, rfl, hdocs, rfl⟩
      · rintro ⟨_, docs, hdepth, hdocs, rfl⟩
        obtain rfl := Nat.succ.inj hdepth
        exact ⟨docs, hdocs, rfl⟩

/-- The documents of an object are those of its members, one level down. -/
theorem ofWritten_object_eq_ok_iff {depth : Nat} {members : List (StringLiteral × Written)}
    {doc : Document} :
    ofWritten depth (.object members none) = .ok doc
      ↔ ∃ below entries, depth = below + 1
        ∧ members.mapM (readMember (ofWritten below)) = .ok entries
        ∧ doc = .object (Named.ofList entries) := by
  cases depth with
  | zero => simp [ofWritten]
  | succ below =>
      rw [ofWritten, membersOfWritten_eq, map_eq_ok]
      constructor
      · rintro ⟨entries, hentries, rfl⟩
        exact ⟨below, entries, rfl, hentries, rfl⟩
      · rintro ⟨_, entries, hdepth, hentries, rfl⟩
        obtain rfl := Nat.succ.inj hdepth
        exact ⟨entries, hentries, rfl⟩

/-- **A document does not depend on the order of members.** -/
theorem stable_ofWritten (depth : Nat) : Stable (ofWritten depth) := by
  intro v w doc h hv
  induction h generalizing depth doc with
  | refl => exact hv
  | trans _ _ ih ih' => exact ih' _ (ih _ hv)
  | item _ ih =>
      rw [ofWritten_array_eq_ok_iff] at *
      obtain ⟨below, docs, hdepth, hdocs, hdoc⟩ := hv
      exact ⟨below, docs, hdepth, mapM_replace_eq (fun _ => ih below) hdocs, hdoc⟩
  | value _ ih =>
      rw [ofWritten_object_eq_ok_iff] at *
      obtain ⟨below, entries, hdepth, hentries, hdoc⟩ := hv
      exact ⟨below, entries, hdepth,
        mapM_replace_eq (Written.readMember_replace fun _ => ih below) hentries, hdoc⟩
  | members hdistinct hperm =>
      rw [ofWritten_object_eq_ok_iff] at *
      obtain ⟨below, entries, hdepth, hentries, rfl⟩ := hv
      obtain ⟨entries', hentries', heq⟩ := Written.ofList_of_perm hdistinct hperm hentries
      exact ⟨below, entries', hdepth, hentries', congrArg Document.object heq⟩

/-- The members of a document can be written in any order. -/
theorem permuted_written {members others : List (String × Document)}
    (hperm : members.Perm others) (h : (members.map Prod.fst).Nodup) :
    Written.Permuted (Document.object members).written (Document.object others).written := by
  rw [Document.written, Document.written, writtenMembers_eq, writtenMembers_eq]
  refine .members (List.pairwise_map.mpr ?_) (hperm.map _)
  refine (List.pairwise_map.mp h).imp fun hne name hname hname' => hne ?_
  rw [StringLiteral.text_ofText] at hname hname'
  injection hname.trans hname'.symm

end Document

end ChainGenesis
