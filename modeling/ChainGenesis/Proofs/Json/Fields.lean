import ChainGenesis.Proofs.Json.Records

/-!
# What a record takes from its text

A record has for each of its fields what is read from the value that is written for it: from the
member of its name, or from the item at its position if the record is written as an array. Other
members decide nothing about the field, and a field for which nothing is written keeps what the
record started with.
-/

namespace ChainGenesis.Written

variable {α β : Type}

/-- What is written for a field of a record: the member of its name, or the item at its position. -/
def fieldAt? (name : String) (position : Nat) : Written → Option Written
  | .object members _ => (members.find? fun member => member.1.text = .ok name).map Prod.snd
  | .array items _ => items[position]?
  | _ => none

@[simp] theorem field_name (name : String) (read : Written → Except Fault β)
    (store : α → β → α) : (field name read store).name = name := rfl

/-- Setting a field leaves a part of the record alone. -/
def Field.Keeps (get : α → β) (f : Field α) : Prop :=
  ∀ v record after, f.set v record = .ok after → get after = get record

@[simp] theorem keeps_field {γ : Type} {get : α → β} {store : α → γ → α}
    (h : ∀ record value, get (store record value) = get record) (name : String)
    (read : Written → Except Fault γ) : (field name read store).Keeps get := by
  intro v record after hset
  obtain ⟨value, _, rfl⟩ := field_set_eq_ok_iff.mp hset
  exact h record value

/-- A part of a record that one of its fields sets, from what is read, and no other does. -/
structure Holds (fields : List (Field α)) (position : Nat) (name : String)
    (read : Written → Except Fault β) (get : α → β) : Prop where
  names : (fields.map Field.name).Nodup
  own : ∃ f, fields[position]? = some f ∧ f.name = name
    ∧ ∀ v record after, f.set v record = .ok after → read v = .ok (get after)
  others : ∀ f ∈ fields, f.name ≠ name → f.Keeps get

section

variable {fields : List (Field α)} {position : Nat} {name : String}
  {read : Written → Except Fault β} {get : α → β}

/-- A part that a field stores is held by it, if the other fields leave it alone. -/
theorem holds_of_field {store : α → β → α} (names : (fields.map Field.name).Nodup)
    (hfield : fields[position]? = some (field name read store))
    (hget : ∀ record value, get (store record value) = value)
    (others : ∀ f ∈ fields, f.name ≠ name → f.Keeps get) :
    Holds fields position name read get where
  names := names
  own := ⟨_, hfield, rfl, fun v record after h => by
    obtain ⟨value, hvalue, rfl⟩ := field_set_eq_ok_iff.mp h
    rw [hget]
    exact hvalue⟩
  others := others

/-- The field that is found by the name is the one that sets the part. -/
theorem Holds.read_of_set (h : Holds fields position name read get) {f : Field α}
    (hf : f ∈ fields) (hname : f.name = name) {v : Written} {record after : α}
    (hset : f.set v record = .ok after) : read v = .ok (get after) := by
  obtain ⟨own, hown, hownName, hread⟩ := h.own
  obtain rfl : f = own :=
    List.inj_on_of_nodup_map h.names hf (List.mem_of_getElem? hown) (hname.trans hownName.symm)
  exact hread v record after hset

/-! ## Objects -/

theorem fault_eq_none_of_readMembersInto {fault : Option Fault} {seen : List String}
    {members : List (StringLiteral × Written)} {start record : α}
    (h : readMembersInto fields fault seen members start = .ok record) : fault = none := by
  induction members generalizing seen start with
  | nil =>
      cases fault with
      | none => rfl
      | some fault => exact absurd h (by simp [readMembersInto])
  | cons member rest ih =>
      obtain ⟨literal, value⟩ := member
      rw [readMembersInto] at h
      obtain ⟨text, _, h⟩ := bind_eq_ok.mp h
      split at h
      · split at h
        · exact absurd h (by simp)
        · obtain ⟨middle, _, h⟩ := bind_eq_ok.mp h
          exact ih h
      · obtain ⟨_, _, h⟩ := bind_eq_ok.mp h
        exact ih h

/-- A part that was set is not set again. -/
theorem Holds.get_of_seen (h : Holds fields position name read get)
    {members : List (StringLiteral × Written)} {state after : Finset String × α}
    (hseen : name ∈ state.1) (hread : members.foldlM (readField fields) state = .ok after) :
    get after.2 = get state.2 := by
  induction members generalizing state with
  | nil =>
      injection hread with hread
      rw [hread]
  | cons member rest ih =>
      obtain ⟨middle, hmiddle, hrest⟩ := foldlM_cons_eq_ok.mp hread
      obtain ⟨text, _, hstep⟩ := readField_eq_ok_iff.mp hmiddle
      rcases hstep with ⟨f, record, hf, hnew, hset, rfl⟩ | ⟨_, _, rfl⟩
      · obtain ⟨hmem, rfl⟩ := name_of_find? hf
        have hne : f.name ≠ name := fun heq => hnew (heq ▸ hseen)
        rw [ih (Finset.mem_insert_of_mem hseen) hrest]
        exact h.others f hmem hne _ _ _ hset
      · exact ih hseen hrest

/-- A part that was not set is read from the first member of its name. -/
theorem Holds.get_of_new (h : Holds fields position name read get)
    {members : List (StringLiteral × Written)} {state after : Finset String × α}
    (hnew : name ∉ state.1) (hread : members.foldlM (readField fields) state = .ok after) :
    ((members.find? fun member => member.1.text = .ok name).map Prod.snd).elim
      (.ok (get state.2)) read = .ok (get after.2) := by
  induction members generalizing state with
  | nil =>
      injection hread with hread
      rw [hread]
      rfl
  | cons member rest ih =>
      obtain ⟨middle, hmiddle, hrest⟩ := foldlM_cons_eq_ok.mp hread
      obtain ⟨text, htext, hstep⟩ := readField_eq_ok_iff.mp hmiddle
      rcases hstep with ⟨f, record, hf, _, hset, rfl⟩ | ⟨hnone, _, rfl⟩
      · obtain ⟨hmem, rfl⟩ := name_of_find? hf
        by_cases hname : f.name = name
        · -- this member is the one, and what follows leaves the part alone
          rw [List.find?_cons_of_pos (by rw [htext, hname, decide_eq_true_eq]),
            h.get_of_seen (Finset.mem_insert.mpr (.inl hname.symm)) hrest]
          exact h.read_of_set hmem hname hset
        · have hother : member.1.text ≠ .ok name := fun heq =>
            hname (Except.ok.inj (htext.symm.trans heq))
          rw [List.find?_cons_of_neg (by rw [decide_eq_true_eq]; exact hother),
            ← h.others f hmem hname _ _ _ hset]
          refine ih (fun hin => ?_) hrest
          rcases Finset.mem_insert.mp hin with heq | hin
          · exact hname heq.symm
          · exact hnew hin
      · have hother : member.1.text ≠ .ok name := by
          obtain ⟨own, hown, hownName, _⟩ := h.own
          intro heq
          have hnot := List.find?_eq_none.mp hnone own (List.mem_of_getElem? hown)
          rw [decide_eq_true_eq, hownName] at hnot
          exact hnot (Except.ok.inj (heq.symm.trans htext))
        rw [List.find?_cons_of_neg (by rw [decide_eq_true_eq]; exact hother)]
        exact ih hnew hrest

/-! ## Arrays -/

theorem fault_eq_none_of_readItemsInto {fault : Option Fault} {fields : List (Field α)}
    {items : List Written} {start record : α}
    (h : readItemsInto fault fields items start = .ok record) : fault = none := by
  induction items generalizing fields start with
  | nil =>
      cases fault with
      | none => rfl
      | some fault => exact absurd h (by simp [readItemsInto])
  | cons item rest ih =>
      cases fields with
      | nil => exact absurd h (by simp [readItemsInto])
      | cons f fields =>
          obtain ⟨middle, _, h⟩ := bind_eq_ok.mp h
          exact ih h

/-- Items for other fields leave a part alone. -/
theorem get_of_readItemsInto {fields : List (Field α)} (h : ∀ f ∈ fields, f.Keeps get)
    {items : List Written} {start record : α}
    (hread : readItemsInto none fields items start = .ok record) : get record = get start := by
  induction items generalizing fields start with
  | nil =>
      rw [readItemsInto] at hread
      injection hread with hread
      rw [hread]
  | cons item rest ih =>
      obtain ⟨f, others, middle, rfl, hset, hrest⟩ := readItemsInto_cons_eq_ok_iff.mp hread
      rw [List.forall_mem_cons] at h
      rw [ih h.2 hrest]
      exact h.1 _ _ _ hset

/-- A part is read from the item at the position of its field. -/
theorem Holds.get_of_items (h : Holds fields position name read get) {items : List Written}
    {start record : α} (hread : readItemsInto none fields items start = .ok record) :
    (items[position]?).elim (.ok (get start)) read = .ok (get record) := by
  induction items generalizing fields position start with
  | nil =>
      rw [readItemsInto] at hread
      injection hread with hread
      rw [hread]
      rfl
  | cons item rest ih =>
      obtain ⟨f, others, middle, rfl, hset, hrest⟩ := readItemsInto_cons_eq_ok_iff.mp hread
      have hnames := List.nodup_cons.mp h.names
      have hothers := List.forall_mem_cons.mp h.others
      obtain ⟨own, hown, hownName, hownRead⟩ := h.own
      cases position with
      | zero =>
          -- the first field is the one, and no other has its name
          injection hown with hown
          subst hown
          have hkeeps : ∀ g ∈ others, g.Keeps get := fun g hg => hothers.2 g hg fun heq =>
            hnames.1 (List.mem_map.mpr ⟨g, hg, heq.trans hownName.symm⟩)
          rw [get_of_readItemsInto hkeeps hrest]
          exact hownRead _ _ _ hset
      | succ position =>
          have hne : f.name ≠ name := fun heq => hnames.1
            (List.mem_map.mpr ⟨own, List.mem_of_getElem? hown, hownName.trans heq.symm⟩)
          have hrestHolds : Holds others position name read get :=
            ⟨hnames.2, ⟨own, hown, hownName, hownRead⟩, hothers.2⟩
          rw [List.getElem?_cons_succ, ← hothers.1 hne _ _ _ hset]
          exact ih hrestHolds hrest

/-! ## Records -/

/-- **A part of a record is what is read from the value that is written for its field.** -/
theorem Holds.get_of_record (h : Holds fields position name read get) {start record : α}
    {written : Written} (hread : readRecord fields start written = .ok record) :
    (written.fieldAt? name position).elim (.ok (get start)) read = .ok (get record) := by
  cases written with
  | object members fault =>
      obtain rfl := fault_eq_none_of_readMembersInto hread
      obtain ⟨names, hread⟩ := readRecord_object_eq_ok_iff.mp hread
      exact h.get_of_new (Finset.notMem_empty name) hread
  | array items fault =>
      obtain rfl := fault_eq_none_of_readItemsInto hread
      exact h.get_of_items hread
  | null | bool _ | number _ | string _ | brokenNumber _ | brokenWord _ | missing _ =>
      exact absurd hread (by simp [readRecord])

/-- A part that is not as the record started out has a value written for it. -/
theorem Holds.exists_written (h : Holds fields position name read get) {start record : α}
    {written : Written} (hread : readRecord fields start written = .ok record)
    (hne : get record ≠ get start) :
    ∃ value, written.fieldAt? name position = some value ∧ read value = .ok (get record) := by
  have hget := h.get_of_record hread
  cases hvalue : written.fieldAt? name position with
  | none =>
      rw [hvalue] at hget
      injection hget with hget
      exact absurd hget.symm hne
  | some value => exact ⟨value, rfl, by rwa [hvalue] at hget⟩

end

/-! ## Collections -/

theorem exists_members_of_readNamed {read : Written → Except Fault α} {written : Written}
    {named : Named α} (h : readNamed read written = .ok named) :
    ∃ members, written = .object members none := by
  cases written with
  | object members fault =>
      obtain ⟨entries, _, h⟩ := bind_eq_ok.mp h
      cases fault with
      | none => exact ⟨members, rfl⟩
      | some fault => exact absurd h (by simp)
  | null | bool _ | number _ | string _ | array _ _ | brokenNumber _ | brokenWord _ | missing _ =>
      exact absurd h (by simp [readNamed])

theorem exists_items_of_readList {read : Written → Except Fault α} {written : Written}
    {values : List α} (h : readList read written = .ok values) :
    ∃ items, written = .array items none := by
  cases written with
  | array items fault =>
      obtain ⟨found, _, h⟩ := bind_eq_ok.mp h
      cases fault with
      | none => exact ⟨items, rfl⟩
      | some fault => exact absurd h (by simp)
  | null | bool _ | number _ | string _ | object _ _ | brokenNumber _ | brokenWord _ | missing _ =>
      exact absurd h (by simp [readList])

/-- Members are read with the names that they are written with. -/
theorem names_of_mapM {read : Written → Except Fault α}
    {members : List (StringLiteral × Written)} {entries : List (String × α)}
    (h : members.mapM (readMember read) = .ok entries) :
    members.map (fun member => member.1.text) = entries.map fun entry => .ok entry.1 := by
  induction members generalizing entries with
  | nil =>
      injection h with h
      subst h
      rfl
  | cons member rest ih =>
      obtain ⟨entry, others, hentry, hothers, rfl⟩ := mapM_cons_eq_ok.mp h
      rw [List.map_cons, List.map_cons, ih hothers, (readMember_eq_ok_iff.mp hentry).1]

/-- The last member of each name is read as the last entry of each name. -/
theorem mapM_lastOfEach {read : Written → Except Fault α}
    {members : List (StringLiteral × Written)} {entries : List (String × α)}
    (h : members.mapM (readMember read) = .ok entries) :
    (Named.lastOfEach (fun member => member.1.text) members).mapM (readMember read)
      = .ok (Named.lastOfEach Prod.fst entries) := by
  induction members generalizing entries with
  | nil =>
      injection h with h
      subst h
      rfl
  | cons member rest ih =>
      obtain ⟨entry, others, hentry, hothers, rfl⟩ := mapM_cons_eq_ok.mp h
      have hagain : member.1.text ∈ rest.map (fun member => member.1.text)
          ↔ entry.1 ∈ others.map Prod.fst := by
        rw [names_of_mapM hothers, (readMember_eq_ok_iff.mp hentry).1]
        simp
      rw [Named.lastOfEach, Named.lastOfEach]
      by_cases hlater : entry.1 ∈ others.map Prod.fst
      · rw [if_pos hlater, if_pos (hagain.mpr hlater)]
        exact ih hothers
      · rw [if_neg hlater, if_neg fun h => hlater (hagain.mp h)]
        exact mapM_cons_eq_ok.mpr ⟨entry, _, hentry, ih hothers, rfl⟩

/-- What members are read as, without their names. -/
theorem mapM_snd {read : Written → Except Fault α}
    {members : List (StringLiteral × Written)} {entries : List (String × α)}
    (h : members.mapM (readMember read) = .ok entries) :
    (members.map Prod.snd).mapM read = .ok (entries.map Prod.snd) := by
  induction members generalizing entries with
  | nil =>
      injection h with h
      subst h
      rfl
  | cons member rest ih =>
      obtain ⟨entry, others, hentry, hothers, rfl⟩ := mapM_cons_eq_ok.mp h
      exact mapM_cons_eq_ok.mpr ⟨_, _, (readMember_eq_ok_iff.mp hentry).2, ih hothers, rfl⟩

/-- The values of a collection are those of the last member of each name. -/
theorem values_of_readNamed {read : Written → Except Fault α}
    {members : List (StringLiteral × Written)} {named : Named α}
    (h : readNamed read (.object members none) = .ok named) :
    ∃ values, ((Named.lastOfEach (fun member => member.1.text) members).map Prod.snd).mapM read
      = .ok values ∧ (named.map Prod.snd).Perm values := by
  obtain ⟨entries, hentries, rfl⟩ := readNamed_eq_ok_iff.mp h
  exact ⟨_, mapM_snd (mapM_lastOfEach hentries),
    (Named.ofList_perm_lastOfEach entries).map Prod.snd⟩

end ChainGenesis.Written
