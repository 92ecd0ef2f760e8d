/-!
# Values by name

Objects, ledgers and replacement texts are all collections of values under names. They are
kept as lists in strictly ascending order of name, so that two collections with the same
content are the same list and listing one needs no sorting. Names are ordered by code
point, which is also the order of their UTF-8 bytes.

Setting a name twice keeps the last value. Every operation keeps the order
(`Named.Ordered`), and what an operation does is said through `lookup?`.
-/

namespace ChainGenesis

/-- Values under names. -/
abbrev Named (α : Type) := List (String × α)

namespace Named

variable {α : Type}

/-- The value of the entry with a name. -/
def lookup? (name : String) : Named α → Option α
  | [] => none
  | (other, value) :: rest => if other = name then some value else lookup? name rest

/-- Whether there is an entry with a name. -/
def has (entries : Named α) (name : String) : Bool := (lookup? name entries).isSome

/-- Sets the value of an entry, in its place if it is new. -/
def put (name : String) (value : α) : Named α → Named α
  | [] => [(name, value)]
  | (other, old) :: rest =>
    if name < other then (name, value) :: (other, old) :: rest
    else if name = other then (name, value) :: rest
    else (other, old) :: put name value rest

/-- Takes an entry out. -/
def remove (name : String) (entries : Named α) : Named α :=
  entries.filter fun entry => entry.1 ≠ name

/-- The entries of a list, a repeated name keeping its last value. -/
def ofList (entries : List (String × α)) : Named α :=
  entries.foldl (fun entries (name, value) => entries.put name value) []

/-- Sets each of the given entries in turn. -/
def putAll (entries changes : Named α) : Named α :=
  changes.foldl (fun entries (name, value) => entries.put name value) entries

/-- The names in strictly ascending order. -/
def Ordered (entries : Named α) : Prop := entries.Pairwise fun a b => a.1 < b.1

/-! ## One lemma per operation -/

@[simp] theorem lookup?_nil (name : String) : lookup? name ([] : Named α) = none := rfl

theorem lookup?_cons (name other : String) (value : α) (rest : Named α) :
    lookup? name ((other, value) :: rest)
      = if other = name then some value else lookup? name rest := rfl

/-- An entry that was just set is found, and no other is touched. -/
theorem lookup?_put (entries : Named α) (name other : String) (value : α) :
    lookup? other (put name value entries)
      = if name = other then some value else lookup? other entries := by
  induction entries with
  | nil => simp [put, lookup?]
  | cons entry rest ih =>
    obtain ⟨first, old⟩ := entry
    unfold put
    split
    · simp [lookup?]
    · split
      · rename_i heq
        subst heq
        by_cases h : name = other <;> simp [lookup?, h]
      · rename_i hne
        simp only [lookup?, ih]
        by_cases h : name = other
        · subst h
          simp [Ne.symm hne]
        · simp [h]

/-- An entry that was taken out is gone, and no other is touched. -/
theorem lookup?_remove (entries : Named α) (name other : String) :
    lookup? other (remove name entries) = if other = name then none else lookup? other entries := by
  induction entries with
  | nil => simp [remove]
  | cons entry rest ih =>
    obtain ⟨first, old⟩ := entry
    unfold remove at ih ⊢
    by_cases hf : first = name
    · subst hf
      by_cases ho : other = first
      · simp_all [List.filter]
      · simp_all [List.filter, lookup?, Ne.symm ho]
    · by_cases ho : first = other
      · subst ho; simp [List.filter, lookup?, hf]
      · simp_all [List.filter, lookup?]

theorem mem_put {entries : Named α} {name : String} {value : α}
    {entry : String × α} (h : entry ∈ put name value entries) :
    entry = (name, value) ∨ entry ∈ entries := by
  induction entries with
  | nil => simpa [put] using h
  | cons entry rest ih =>
    obtain ⟨first, old⟩ := entry
    unfold put at h
    split at h
    · simpa using h
    · split at h
      · rcases List.mem_cons.mp h with h | h
        · exact .inl h
        · exact .inr (List.mem_cons_of_mem _ h)
      · rcases List.mem_cons.mp h with h | h
        · exact .inr (h ▸ List.mem_cons_self)
        · exact (ih h).imp id (List.mem_cons_of_mem _)

theorem Ordered.put {entries : Named α} (h : entries.Ordered) (name : String)
    (value : α) : (entries.put name value).Ordered := by
  induction entries with
  | nil => exact List.pairwise_singleton _ _
  | cons entry rest ih =>
    obtain ⟨first, old⟩ := entry
    have hrest := List.pairwise_cons.mp h
    unfold Named.put
    split
    · rename_i hlt
      refine List.pairwise_cons.mpr ⟨fun entry hentry => ?_, h⟩
      rcases List.mem_cons.mp hentry with rfl | hmem
      · exact hlt
      · exact String.lt_trans hlt (hrest.1 entry hmem)
    · rename_i hge
      split
      · rename_i heq
        subst heq
        exact List.pairwise_cons.mpr ⟨hrest.1, hrest.2⟩
      · rename_i hne
        refine List.pairwise_cons.mpr ⟨fun entry hentry => ?_, ih hrest.2⟩
        rcases mem_put hentry with rfl | hmem
        · exact Classical.byContradiction fun hnot =>
            hne (String.le_antisymm (String.not_lt.mp hnot) (String.not_lt.mp hge))
        · exact hrest.1 entry hmem

theorem Ordered.remove {entries : Named α} (h : entries.Ordered) (name : String) :
    (entries.remove name).Ordered := List.Pairwise.filter _ h

theorem ordered_ofList (entries : List (String × α)) : (ofList entries).Ordered := by
  unfold ofList
  suffices ∀ (start : Named α), start.Ordered →
      (entries.foldl (fun (entries : Named α) entry => entries.put entry.1 entry.2)
        start).Ordered from this [] List.Pairwise.nil
  intro start
  induction entries generalizing start with
  | nil => exact id
  | cons entry rest ih => exact fun h => ih _ (h.put _ _)

end Named

end ChainGenesis
