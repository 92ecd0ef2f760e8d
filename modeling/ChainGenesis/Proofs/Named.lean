import ChainGenesis.Named
import Mathlib.Data.List.Dedup
import Mathlib.Data.List.Forall2

/-!
# An ordered collection is what its look-ups say

Two ordered collections in which every name has the same value are one list. This is why
nothing that is computed from a collection can depend on the order in which it was written.
-/

namespace ChainGenesis.Named

variable {α β : Type}

/-! ## Members and look-ups -/

theorem mem_of_lookup? {entries : Named α} {name : String} {value : α}
    (h : lookup? name entries = some value) : (name, value) ∈ entries := by
  induction entries with
  | nil => exact absurd h (by simp)
  | cons entry rest ih =>
      obtain ⟨first, old⟩ := entry
      rw [lookup?_cons] at h
      split at h
      · rename_i heq
        injection h with h
        subst heq h
        exact List.mem_cons_self
      · exact List.mem_cons_of_mem _ (ih h)

theorem lookup?_eq_none_iff {entries : Named α} {name : String} :
    lookup? name entries = none ↔ ∀ entry ∈ entries, entry.1 ≠ name := by
  induction entries with
  | nil => simp
  | cons entry rest ih =>
      obtain ⟨first, old⟩ := entry
      rw [lookup?_cons]
      by_cases h : first = name
      · simp [h]
      · simp [h, ih]

theorem mem_map_fst_iff {entries : Named α} {name : String} :
    name ∈ entries.map Prod.fst ↔ lookup? name entries ≠ none := by
  rw [Ne, lookup?_eq_none_iff, not_forall, List.mem_map]
  exact exists_congr fun entry => by rw [not_forall, Decidable.not_not, exists_prop]

theorem Ordered.tail {entry : String × α} {rest : Named α} (h : Ordered (entry :: rest)) :
    Ordered rest := (List.pairwise_cons.mp h).2

/-- The first name of an ordered collection is not among the others. -/
theorem Ordered.lookup?_tail {name : String} {value : α} {rest : Named α}
    (h : Ordered ((name, value) :: rest)) : lookup? name rest = none := by
  rw [lookup?_eq_none_iff]
  intro entry hmem heq
  have hlt := (List.pairwise_cons.mp h).1 entry hmem
  rw [heq] at hlt
  exact String.lt_irrefl name hlt

theorem Ordered.lookup?_of_mem {entries : Named α} (h : entries.Ordered) {name : String}
    {value : α} (hmem : (name, value) ∈ entries) : lookup? name entries = some value := by
  induction entries with
  | nil => exact absurd hmem (by simp)
  | cons entry rest ih =>
      obtain ⟨first, old⟩ := entry
      rcases List.mem_cons.mp hmem with heq | hmem
      · injection heq with h1 h2
        subst h1 h2
        rw [lookup?_cons, if_pos rfl]
      · have hlt : first < name := (List.pairwise_cons.mp h).1 _ hmem
        have hne : first ≠ name := fun heq => String.lt_irrefl name (heq ▸ hlt)
        rw [lookup?_cons, if_neg hne]
        exact ih h.tail hmem

/-! ## Extensionality -/

/-- A name below the first of an ordered collection is not in it. -/
theorem Ordered.lookup?_of_lt {name first : String} {value : α} {rest : Named α}
    (h : Ordered ((first, value) :: rest)) (hlt : name < first) :
    lookup? name ((first, value) :: rest) = none := by
  rw [lookup?_eq_none_iff]
  intro entry hmem heq
  rcases List.mem_cons.mp hmem with he | hmem
  · rw [he] at heq
    exact String.lt_irrefl name (heq ▸ hlt)
  · have := String.lt_trans hlt ((List.pairwise_cons.mp h).1 entry hmem)
    exact String.lt_irrefl name (heq ▸ this)

/-- Ordered collections that have the same values begin with the same name. -/
theorem Ordered.head_eq {a b : String} {v w : α} {rest others : Named α}
    (ha : Ordered ((a, v) :: rest)) (hb : Ordered ((b, w) :: others))
    (hab : lookup? a ((b, w) :: others) ≠ none) (hba : lookup? b ((a, v) :: rest) ≠ none) :
    a = b := by
  rcases Classical.em (a < b) with hlt | hge
  · exact absurd (hb.lookup?_of_lt hlt) hab
  rcases Classical.em (b < a) with hlt | hge'
  · exact absurd (ha.lookup?_of_lt hlt) hba
  exact String.le_antisymm (String.not_lt.mp hge') (String.not_lt.mp hge)

theorem Ordered.ext {entries others : Named α} (h : entries.Ordered) (h' : others.Ordered)
    (hl : ∀ name, lookup? name entries = lookup? name others) : entries = others := by
  induction entries generalizing others with
  | nil =>
      cases others with
      | nil => rfl
      | cons entry others =>
          have := hl entry.1
          rw [lookup?_cons, if_pos rfl] at this
          exact absurd this (by simp)
  | cons entry rest ih =>
      obtain ⟨a, v⟩ := entry
      cases others with
      | nil =>
          have := hl a
          rw [lookup?_cons, if_pos rfl] at this
          exact absurd this (by simp)
      | cons entry others =>
          obtain ⟨b, w⟩ := entry
          have hab : a = b := h.head_eq h' (by rw [← hl a, lookup?_cons, if_pos rfl]; simp)
            (by rw [hl b, lookup?_cons, if_pos rfl]; simp)
          subst hab
          have hvw := hl a
          rw [lookup?_cons, lookup?_cons, if_pos rfl, if_pos rfl] at hvw
          injection hvw with hvw
          subst hvw
          -- below the common first name neither list has it again
          refine congrArg _ (ih h.tail h'.tail fun name => ?_)
          by_cases hn : a = name
          · subst hn
            rw [h.lookup?_tail, h'.lookup?_tail]
          · have := hl name
            rwa [lookup?_cons, lookup?_cons, if_neg hn, if_neg hn] at this

/-! ## Collections from lists -/

theorem lookup?_append (entries others : Named α) (name : String) :
    lookup? name (entries ++ others) = (lookup? name entries).or (lookup? name others) := by
  induction entries with
  | nil => rfl
  | cons entry rest ih =>
      obtain ⟨first, old⟩ := entry
      rw [List.cons_append, lookup?_cons, lookup?_cons]
      by_cases h : first = name
      · simp [h]
      · simp [h, ih]

theorem lookup?_putAll (entries : Named α) (changes : List (String × α)) (name : String) :
    lookup? name (putAll entries changes)
      = (lookup? name changes.reverse).or (lookup? name entries) := by
  induction changes generalizing entries with
  | nil => rfl
  | cons change rest ih =>
      obtain ⟨first, value⟩ := change
      show lookup? name (putAll (entries.put first value) rest) = _
      rw [ih, lookup?_put, List.reverse_cons, lookup?_append, lookup?_cons, Option.or_assoc]
      by_cases h : first = name
      · simp [h]
      · simp [h]

/-- In a collection made from a list the last value of a name counts. -/
theorem lookup?_ofList (entries : List (String × α)) (name : String) :
    lookup? name (ofList entries) = lookup? name entries.reverse := by
  show lookup? name (putAll [] entries) = _
  rw [lookup?_putAll, lookup?_nil, Option.or_none]

/-- Lists with the same names, which agree on the values of one, have the same value for it. -/
theorem lookup?_congr {name : String} {entries others : List (String × α)}
    (h : List.Forall₂ (fun a b => a.1 = b.1 ∧ (a.1 = name → a.2 = b.2)) entries others) :
    lookup? name entries = lookup? name others := by
  induction h with
  | nil => rfl
  | @cons a b _ _ hab _ ih =>
      obtain ⟨first, value⟩ := a
      obtain ⟨_, value'⟩ := b
      obtain ⟨rfl, hvalue⟩ := hab
      rw [lookup?_cons, lookup?_cons, ih]
      by_cases hname : first = name
      · rw [if_pos hname, if_pos hname]
        exact congrArg some (hvalue hname)
      · rw [if_neg hname, if_neg hname]

theorem lookup?_ofList_congr {name : String} {entries others : List (String × α)}
    (h : List.Forall₂ (fun a b => a.1 = b.1 ∧ (a.1 = name → a.2 = b.2)) entries others) :
    lookup? name (ofList entries) = lookup? name (ofList others) := by
  rw [lookup?_ofList, lookup?_ofList]
  exact lookup?_congr (List.forall₂_reverse_iff.mpr h)

/-- The order of a list does not matter to a look-up if no name stands in it twice. -/
theorem lookup?_reverse {entries : List (String × α)} (h : (entries.map Prod.fst).Nodup)
    (name : String) : lookup? name entries.reverse = lookup? name entries := by
  induction entries with
  | nil => rfl
  | cons entry rest ih =>
      obtain ⟨first, value⟩ := entry
      have hrest := List.nodup_cons.mp h
      rw [List.reverse_cons, lookup?_append, ih hrest.2, lookup?_cons, lookup?_cons]
      by_cases hn : first = name
      · subst hn
        have : lookup? first rest = none := by
          rw [lookup?_eq_none_iff]
          intro entry hmem heq
          exact hrest.1 (List.mem_map.mpr ⟨entry, hmem, heq⟩)
        simp [this]
      · simp [hn]

/-- Of names that all have one value each has it, and no other name has any. -/
theorem lookup?_map_const (names : List String) (value : α) (name : String) :
    lookup? name (names.map fun other => (other, value))
      = if name ∈ names then some value else none := by
  induction names with
  | nil => rfl
  | cons first rest ih =>
      rw [List.map_cons, lookup?_cons, ih]
      by_cases hfirst : first = name
      · rw [if_pos hfirst, if_pos (hfirst ▸ List.mem_cons_self)]
      · simp [hfirst, Ne.symm hfirst]

theorem Ordered.nodup {entries : Named α} (h : entries.Ordered) :
    (entries.map Prod.fst).Nodup := by
  rw [List.Nodup, List.pairwise_map]
  refine List.Pairwise.imp (fun {a b} hlt heq => ?_) h
  exact String.lt_irrefl b.1 (heq ▸ hlt)

/-- Putting the entries of an ordered collection in order changes nothing. -/
theorem Ordered.ofList_eq {entries : Named α} (h : entries.Ordered) : ofList entries = entries :=
  (ordered_ofList entries).ext h fun name => by
    rw [lookup?_ofList, lookup?_reverse h.nodup]

theorem Ordered.putAll {entries : Named α} (h : entries.Ordered) (changes : List (String × α)) :
    (entries.putAll changes).Ordered := by
  induction changes generalizing entries with
  | nil => exact h
  | cons change rest ih => exact ih (h.put _ _)

/-- Values that are changed one by one can be changed before they are set or after. -/
theorem map_put (f : α → β) (entries : Named α) (name : String) (value : α) :
    (entries.put name value).map (fun entry => (entry.1, f entry.2))
      = Named.put name (f value) (entries.map fun entry => (entry.1, f entry.2)) := by
  induction entries with
  | nil => rfl
  | cons entry rest ih =>
      obtain ⟨first, old⟩ := entry
      rw [put, List.map_cons, put]
      split
      · rfl
      · split
        · rfl
        · rw [List.map_cons, ih]

/-! ## Repeated names -/

/-- A new name is added and nothing else happens. -/
theorem put_perm {entries : Named α} {name : String} (value : α)
    (h : lookup? name entries = none) :
    (entries.put name value).Perm ((name, value) :: entries) := by
  induction entries with
  | nil => exact .refl _
  | cons entry rest ih =>
      obtain ⟨first, old⟩ := entry
      rw [lookup?_cons] at h
      split at h
      · exact absurd h (by simp)
      · rename_i hne
        rw [put, if_neg (Ne.symm hne)]
        split
        · exact .refl _
        · exact ((ih h).cons _).trans (.swap _ _ _)

theorem putAll_perm {entries : Named α} {changes : List (String × α)}
    (hnodup : (changes.map Prod.fst).Nodup)
    (hnew : ∀ change ∈ changes, lookup? change.1 entries = none) :
    (entries.putAll changes).Perm (changes ++ entries) := by
  induction changes generalizing entries with
  | nil => exact .refl _
  | cons change rest ih =>
      obtain ⟨name, value⟩ := change
      rw [List.map_cons, List.nodup_cons] at hnodup
      rw [List.forall_mem_cons] at hnew
      -- the first name is none of the others, so they are still new once it is set
      have hrest : ∀ change ∈ rest, lookup? change.1 (entries.put name value) = none := by
        intro change hmem
        have hne : name ≠ change.1 := fun heq =>
          hnodup.1 (List.mem_map.mpr ⟨change, hmem, heq.symm⟩)
        rw [lookup?_put, if_neg hne]
        exact hnew.2 change hmem
      refine (ih hnodup.2 hrest).trans ?_
      exact ((put_perm value hnew.1).append_left rest).trans List.perm_middle

/-- A list in which no name is repeated loses nothing when it is put in order. -/
theorem ofList_perm {entries : List (String × α)} (h : (entries.map Prod.fst).Nodup) :
    (ofList entries).Perm entries := by
  have hp : (putAll [] entries).Perm (entries ++ []) := putAll_perm h fun _ _ => rfl
  rwa [List.append_nil] at hp

/-- The order of a list in which no name is repeated does not matter. -/
theorem ofList_eq_of_perm {entries others : List (String × α)} (hperm : entries.Perm others)
    (h : (entries.map Prod.fst).Nodup) : ofList entries = ofList others := by
  have h' := (hperm.map Prod.fst).nodup_iff.mp h
  refine List.Perm.eq_of_pairwise (fun a b _ _ hab hba => ?_) (ordered_ofList entries)
    (ordered_ofList others) (((ofList_perm h).trans hperm).trans (ofList_perm h').symm)
  exact absurd (String.lt_trans hab hba) (String.lt_irrefl _)

/-! ## The last of each name -/

/-- The items of a list whose key no later item has. -/
def lastOfEach {β κ : Type} [DecidableEq κ] (key : β → κ) : List β → List β
  | [] => []
  | item :: rest =>
    if key item ∈ rest.map key then lastOfEach key rest else item :: lastOfEach key rest

/-- Every key stays, and once. -/
theorem map_lastOfEach {κ : Type} [DecidableEq κ] (key : β → κ) (items : List β) :
    (lastOfEach key items).map key = (items.map key).dedup := by
  induction items with
  | nil => rfl
  | cons item rest ih =>
      rw [lastOfEach, List.map_cons]
      by_cases h : key item ∈ rest.map key
      · rw [if_pos h, List.dedup_cons_of_mem h, ih]
      · rw [if_neg h, List.dedup_cons_of_notMem h, List.map_cons, ih]

/-- Nothing is left out if and only if no key is repeated. -/
theorem length_lastOfEach_eq_iff {κ : Type} [DecidableEq κ] {key : β → κ} {items : List β} :
    (lastOfEach key items).length = items.length ↔ (items.map key).Nodup := by
  rw [← List.length_map key, map_lastOfEach, ← List.dedup_eq_self]
  constructor
  · intro h
    exact (List.dedup_sublist _).eq_of_length (h.trans (List.length_map key).symm)
  · intro h
    rw [h, List.length_map]

/-- From the end, the last value of a name is found first. -/
theorem lookup?_reverse_lastOfEach (entries : List (String × α)) (name : String) :
    lookup? name (lastOfEach Prod.fst entries).reverse = lookup? name entries.reverse := by
  induction entries with
  | nil => rfl
  | cons entry rest ih =>
      obtain ⟨first, value⟩ := entry
      rw [lastOfEach, List.reverse_cons, lookup?_append, lookup?_cons, lookup?_nil]
      by_cases hagain : first ∈ rest.map Prod.fst
      · rw [if_pos hagain, ih]
        by_cases hname : first = name
        · -- a later entry has the name
          have hfound : lookup? name rest.reverse ≠ none := by
            rw [Ne, lookup?_eq_none_iff, not_forall]
            obtain ⟨entry, hmem, heq⟩ := List.mem_map.mp hagain
            exact ⟨entry, fun h => h (List.mem_reverse.mpr hmem) (heq.trans hname)⟩
          obtain ⟨found, hfound⟩ := Option.ne_none_iff_exists'.mp hfound
          rw [hfound, Option.some_or]
        · rw [if_neg hname, Option.or_none]
      · rw [if_neg hagain, List.reverse_cons, lookup?_append, ih, lookup?_cons, lookup?_nil]

/-- A collection is made of the last value of each name. -/
theorem ofList_perm_lastOfEach (entries : List (String × α)) :
    (ofList entries).Perm (lastOfEach Prod.fst entries) := by
  have hnodup : ((lastOfEach Prod.fst entries).map Prod.fst).Nodup := by
    rw [map_lastOfEach]
    exact List.nodup_dedup _
  have heq : ofList entries = ofList (lastOfEach Prod.fst entries) :=
    (ordered_ofList _).ext (ordered_ofList _) fun name => by
      rw [lookup?_ofList, lookup?_ofList, lookup?_reverse_lastOfEach]
  exact heq ▸ ofList_perm hnodup

end ChainGenesis.Named
