import ChainGenesis.Proofs.Json.Permuted
import Mathlib.Data.Finset.Insert
import Mathlib.Data.List.Pairwise

/-!
# The order of fields

A record is read field by field, in the order in which the fields are written. Setting one field
does nothing to another, so the order decides nothing: a record reads the same with its members
in another order. And when the values that are written for one field are exchanged, the records
that are read differ in what that field makes of them. What a writer writes of a record, all its
fields in their order, is read as the values alone would be (`readRecord_membersOf`).
-/

namespace ChainGenesis.Written

variable {α β γ : Type}

/-! ## Fields -/

/-- A field that can as well be set after another one. -/
def Field.Commute (f g : Field α) : Prop :=
  ∀ v w record middle after, f.set v record = .ok middle → g.set w middle = .ok after →
    ∃ middle', g.set w record = .ok middle' ∧ f.set v middle' = .ok after

/-- Two fields of which it does not matter which is set first. -/
structure Field.Independent (f g : Field α) : Prop where
  commute : f.Commute g
  commute' : g.Commute f

/-- Setting a field keeps records related. -/
def Field.Respects (R : α → α → Prop) (f : Field α) : Prop :=
  ∀ v record record' after, R record record' → f.set v record = .ok after →
    ∃ after', f.set v record' = .ok after' ∧ R after after'

/-- Fields whose order does not matter, and neither does that of the members below them. For
fields that are stored apart this is seen by unfolding their list. -/
structure Orderless (fields : List (Field α)) : Prop where
  stable : ∀ f ∈ fields, ∀ record, Stable fun written => f.set written record
  independent : fields.Pairwise Field.Independent

theorem Orderless.commute_of_ne {fields : List (Field α)} (h : Orderless fields)
    {f g : Field α} (hf : f ∈ fields) (hg : g ∈ fields) (hne : f.name ≠ g.name) :
    f.Commute g := by
  have : Std.Symm fun f g : Field α => f.Independent g :=
    ⟨fun _ _ h => ⟨h.commute', h.commute⟩⟩
  exact (h.independent.forall hf hg fun heq => hne (heq ▸ rfl)).commute

@[simp] theorem orderless_nil : Orderless ([] : List (Field α)) :=
  ⟨by simp, .nil⟩

@[simp] theorem orderless_cons {f : Field α} {fields : List (Field α)} :
    Orderless (f :: fields) ↔ (∀ record, Stable fun written => f.set written record)
      ∧ (∀ g ∈ fields, f.Independent g) ∧ Orderless fields := by
  constructor
  · rintro ⟨hstable, hindependent⟩
    rw [List.forall_mem_cons] at hstable
    rw [List.pairwise_cons] at hindependent
    exact ⟨hstable.1, hindependent.1, hstable.2, hindependent.2⟩
  · rintro ⟨hf, hindependent, hfields⟩
    exact ⟨List.forall_mem_cons.mpr ⟨hf, hfields.stable⟩,
      List.pairwise_cons.mpr ⟨hindependent, hfields.independent⟩⟩

theorem field_set_eq_ok_iff {name : String} {read : Written → Except Fault β}
    {store : α → β → α} {v : Written} {record after : α} :
    (field name read store).set v record = .ok after
      ↔ ∃ value, read v = .ok value ∧ store record value = after := map_eq_ok

@[simp] theorem stable_field {read : Written → Except Fault β} (hread : Stable read) (name : String)
    (store : α → β → α) (record : α) :
    Stable fun written => (field name read store).set written record := by
  intro v w after h hv
  rw [field_set_eq_ok_iff] at *
  obtain ⟨value, hvalue, heq⟩ := hv
  exact ⟨value, hread h hvalue, heq⟩

/-- Fields that are stored apart are independent. -/
@[simp] theorem independent_field {readFirst : Written → Except Fault β}
    {readSecond : Written → Except Fault γ}
    {first : α → β → α} {second : α → γ → α}
    (h : ∀ record a b, second (first record a) b = first (second record b) a)
    (nameFirst nameSecond : String) :
    (field nameFirst readFirst first).Independent (field nameSecond readSecond second) := by
  constructor
  · intro v w record middle after hf hg
    obtain ⟨a, ha, rfl⟩ := field_set_eq_ok_iff.mp hf
    obtain ⟨b, hb, rfl⟩ := field_set_eq_ok_iff.mp hg
    exact ⟨_, field_set_eq_ok_iff.mpr ⟨b, hb, rfl⟩,
      field_set_eq_ok_iff.mpr ⟨a, ha, (h record a b).symm⟩⟩
  · intro v w record middle after hf hg
    obtain ⟨b, hb, rfl⟩ := field_set_eq_ok_iff.mp hf
    obtain ⟨a, ha, rfl⟩ := field_set_eq_ok_iff.mp hg
    exact ⟨_, field_set_eq_ok_iff.mpr ⟨a, ha, rfl⟩,
      field_set_eq_ok_iff.mpr ⟨b, hb, h record a b⟩⟩

theorem respects_field {R : α → α → Prop} {store : α → β → α}
    (h : ∀ record record' value, R record record' → R (store record value) (store record' value))
    (name : String) (read : Written → Except Fault β) : (field name read store).Respects R := by
  intro v record record' after hR hset
  obtain ⟨value, hvalue, rfl⟩ := field_set_eq_ok_iff.mp hset
  exact ⟨_, field_set_eq_ok_iff.mpr ⟨value, hvalue, rfl⟩, h record record' value hR⟩

theorem respects_eq (f : Field α) : f.Respects Eq := by
  rintro v record _ after rfl hset
  exact ⟨after, hset, rfl⟩

/-! ## Records as objects -/

/-- Reads a member into a record: a step, with the names of the fields that were set. -/
def readField (fields : List (Field α)) (state : Finset String × α)
    (member : StringLiteral × Written) : Except Fault (Finset String × α) := do
  let name ← member.1.text
  match fields.find? fun field => field.name = name with
  | some field =>
    if name ∈ state.1 then .error .mistyped
    else do
      let record ← field.set member.2 state.2
      return (insert name state.1, record)
  | none => do
    member.2.skip
    return state

/-- A record is read from members step by step. -/
theorem readMembersInto_eq (fields : List (Field α)) (seen : List String)
    (members : List (StringLiteral × Written)) (record : α) :
    readMembersInto fields none seen members record
      = members.foldlM (readField fields) (seen.toFinset, record) >>= fun state => .ok state.2 := by
  induction members generalizing seen record with
  | nil => rfl
  | cons member rest ih =>
      obtain ⟨name, value⟩ := member
      rw [readMembersInto, List.foldlM_cons, bind_assoc, readField, bind_assoc]
      refine congrArg (name.text >>= ·) (funext fun text => ?_)
      cases fields.find? fun field => field.name = text with
      | some field =>
          dsimp only
          by_cases hseen : text ∈ seen
          · rw [if_pos (List.contains_iff_mem.mpr hseen), if_pos (List.mem_toFinset.mpr hseen)]
            rfl
          · rw [if_neg (fun h => hseen (List.contains_iff_mem.mp h)),
              if_neg (fun h => hseen (List.mem_toFinset.mp h)), bind_assoc]
            simp only [ih, List.toFinset_cons, pure_bind]
      | none =>
          dsimp only
          rw [bind_assoc]
          simp only [ih, pure_bind]

theorem readRecord_object_eq_ok_iff {fields : List (Field α)} {start record : α}
    {members : List (StringLiteral × Written)} :
    readRecord fields start (.object members none) = .ok record
      ↔ ∃ names, members.foldlM (readField fields) (∅, start) = .ok (names, record) := by
  rw [readRecord, readMembersInto_eq, List.toFinset_nil, bind_eq_ok]
  constructor
  · rintro ⟨⟨names, found⟩, hstate, h⟩
    injection h with h
    exact ⟨names, h ▸ hstate⟩
  · rintro ⟨names, hstate⟩
    exact ⟨_, hstate, rfl⟩

/-- What a step does: it sets a field that was not set before, or passes over the member. -/
theorem readField_eq_ok_iff {fields : List (Field α)} {state after : Finset String × α}
    {member : StringLiteral × Written} :
    readField fields state member = .ok after ↔ ∃ name, member.1.text = .ok name
      ∧ ((∃ f record, (fields.find? fun field => field.name = name) = some f ∧ name ∉ state.1
          ∧ f.set member.2 state.2 = .ok record ∧ after = (insert name state.1, record))
        ∨ ((fields.find? fun field => field.name = name) = none ∧ member.2.skip = .ok ()
          ∧ after = state)) := by
  unfold readField
  rw [bind_eq_ok]
  refine exists_congr fun name => and_congr_right fun _ => ?_
  cases fields.find? fun field => field.name = name with
  | some f =>
      dsimp only
      constructor
      · intro h
        split at h
        · exact absurd h (by simp)
        · rename_i hnew
          obtain ⟨record, hset, h⟩ := bind_eq_ok.mp h
          injection h with h
          exact .inl ⟨f, record, rfl, hnew, hset, h.symm⟩
      · rintro (⟨_, record, heq, hnew, hset, rfl⟩ | ⟨heq, _⟩)
        · injection heq with heq
          subst heq
          rw [if_neg hnew]
          exact bind_eq_ok.mpr ⟨record, hset, rfl⟩
        · exact absurd heq (by simp)
  | none =>
      dsimp only
      constructor
      · intro h
        obtain ⟨_, hskip, h⟩ := bind_eq_ok.mp h
        injection h with h
        exact .inr ⟨rfl, hskip, h.symm⟩
      · rintro (⟨_, _, heq, _⟩ | ⟨_, hskip, rfl⟩)
        · exact absurd heq (by simp)
        · exact bind_eq_ok.mpr ⟨(), hskip, rfl⟩

theorem name_of_find? {fields : List (Field α)} {name : String} {f : Field α}
    (h : (fields.find? fun field => field.name = name) = some f) : f ∈ fields ∧ f.name = name := by
  have hname := List.find?_some h
  exact ⟨List.mem_of_find?_eq_some h, of_decide_eq_true hname⟩

/-- Of members with different names it does not matter which is read first. -/
theorem commutes_readField {fields : List (Field α)} (h : Orderless fields)
    {a b : StringLiteral × Written} (hdiffer : Differ a b) : Commutes (readField fields) a b := by
  intro state middle after hfirst hsecond
  obtain ⟨first, hname, hfirst⟩ := readField_eq_ok_iff.mp hfirst
  obtain ⟨second, hname', hsecond⟩ := readField_eq_ok_iff.mp hsecond
  have hne : first ≠ second := fun heq => hdiffer first hname (heq ▸ hname')
  rcases hfirst with ⟨f, record, hf, hnew, hset, rfl⟩ | ⟨hnone, hskip, rfl⟩
  · rcases hsecond with ⟨g, record', hg, hnew', hset', rfl⟩ | ⟨hnone', hskip', rfl⟩
    · obtain ⟨hmemf, rfl⟩ := name_of_find? hf
      obtain ⟨hmemg, rfl⟩ := name_of_find? hg
      obtain ⟨middle', hmiddle', hafter⟩ :=
        h.commute_of_ne hmemf hmemg hne _ _ _ _ _ hset hset'
      rw [Finset.mem_insert, not_or] at hnew'
      refine ⟨(insert g.name state.1, middle'), readField_eq_ok_iff.mpr
        ⟨g.name, hname', .inl ⟨g, middle', hg, hnew'.2, hmiddle', rfl⟩⟩, ?_⟩
      refine readField_eq_ok_iff.mpr ⟨f.name, hname, .inl ⟨f, record', hf, ?_, hafter, ?_⟩⟩
      · rw [Finset.mem_insert, not_or]
        exact ⟨hne, hnew⟩
      · rw [Finset.insert_comm]
    · exact ⟨state, readField_eq_ok_iff.mpr ⟨second, hname', .inr ⟨hnone', hskip', rfl⟩⟩,
        readField_eq_ok_iff.mpr ⟨first, hname, .inl ⟨f, record, hf, hnew, hset, rfl⟩⟩⟩
  · exact ⟨after, readField_eq_ok_iff.mpr ⟨second, hname', hsecond⟩,
      readField_eq_ok_iff.mpr ⟨first, hname, .inr ⟨hnone, hskip, rfl⟩⟩⟩

/-- States with the same names and related records. -/
def Alike (R : α → α → Prop) (state state' : Finset String × α) : Prop :=
  state.1 = state'.1 ∧ R state.2 state'.2

theorem readField_rel {R : α → α → Prop} {fields : List (Field α)}
    (hrespects : ∀ f ∈ fields, f.Respects R) {member : StringLiteral × Written}
    {state state' after : Finset String × α} (halike : Alike R state state')
    (h : readField fields state member = .ok after) :
    ∃ after', readField fields state' member = .ok after' ∧ Alike R after after' := by
  obtain ⟨names, record⟩ := state
  obtain ⟨_, record'⟩ := state'
  obtain ⟨rfl, hR⟩ := halike
  obtain ⟨name, hname, hstep⟩ := readField_eq_ok_iff.mp h
  rcases hstep with ⟨f, found, hf, hnew, hfound, rfl⟩ | ⟨hnone, hskip, rfl⟩
  · obtain ⟨found', hfound', hR⟩ := hrespects f (name_of_find? hf).1 _ _ _ _ hR hfound
    exact ⟨(insert name names, found'), readField_eq_ok_iff.mpr
      ⟨name, hname, .inl ⟨f, found', hf, hnew, hfound', rfl⟩⟩, rfl, hR⟩
  · exact ⟨(names, record'), readField_eq_ok_iff.mpr
      ⟨name, hname, .inr ⟨hnone, hskip, rfl⟩⟩, rfl, hR⟩

/-- A step with one value in the place of another. -/
theorem readField_value {R : α → α → Prop} (hrefl : ∀ record, R record record)
    {fields : List (Field α)} {name : StringLiteral} {v w : Written}
    (hskip : v.skip = .ok () → w.skip = .ok ())
    (hset : ∀ f ∈ fields, name.text = .ok f.name → ∀ record after, f.set v record = .ok after →
      ∃ after', f.set w record = .ok after' ∧ R after after') {state after : Finset String × α}
    (h : readField fields state (name, v) = .ok after) :
    ∃ after', readField fields state (name, w) = .ok after' ∧ Alike R after after' := by
  obtain ⟨text, hname, hstep⟩ := readField_eq_ok_iff.mp h
  rcases hstep with ⟨f, found, hf, hnew, hfound, rfl⟩ | ⟨hnone, hpassed, rfl⟩
  · obtain ⟨hmem, rfl⟩ := name_of_find? hf
    obtain ⟨found', hfound', hR⟩ := hset f hmem hname _ _ hfound
    exact ⟨(insert f.name state.1, found'), readField_eq_ok_iff.mpr
      ⟨f.name, hname, .inl ⟨f, found', hf, hnew, hfound', rfl⟩⟩, rfl, hR⟩
  · exact ⟨after, readField_eq_ok_iff.mpr
      ⟨text, hname, .inr ⟨hnone, hskip hpassed, rfl⟩⟩, rfl, hrefl _⟩

/-- **One value in the place of another** makes a related record if it does so in the field that
it is written for. -/
theorem readRecord_value {R : α → α → Prop} (hrefl : ∀ record, R record record)
    {fields : List (Field α)} {start : α} (hrespects : ∀ f ∈ fields, f.Respects R)
    {name : StringLiteral} {v w : Written} (hskip : v.skip = .ok () → w.skip = .ok ())
    (hset : ∀ f ∈ fields, name.text = .ok f.name → ∀ record after, f.set v record = .ok after →
      ∃ after', f.set w record = .ok after' ∧ R after after')
    {front back : List (StringLiteral × Written)} {record : α}
    (h : readRecord fields start (.object (front ++ (name, v) :: back) none) = .ok record) :
    ∃ record', readRecord fields start (.object (front ++ (name, w) :: back) none) = .ok record'
      ∧ R record record' := by
  obtain ⟨names, h⟩ := readRecord_object_eq_ok_iff.mp h
  rw [List.foldlM_append] at h
  obtain ⟨state, hfront, h⟩ := bind_eq_ok.mp h
  obtain ⟨middle, hmiddle, hback⟩ := foldlM_cons_eq_ok.mp h
  obtain ⟨middle', hmiddle', halike⟩ := readField_value hrefl hskip hset hmiddle
  obtain ⟨⟨names', record'⟩, hback', _, hR⟩ :=
    foldlM_rel (fun _ _ _ _ _ => readField_rel hrespects) halike hback
  refine ⟨record', readRecord_object_eq_ok_iff.mpr ⟨names', ?_⟩, hR⟩
  rw [List.foldlM_append]
  exact bind_eq_ok.mpr ⟨state, hfront, foldlM_cons_eq_ok.mpr ⟨middle', hmiddle', hback'⟩⟩

/-! ## Records as arrays -/

theorem readItemsInto_cons_eq_ok_iff {fields : List (Field α)} {item : Written}
    {rest : List Written} {start record : α} :
    readItemsInto none fields (item :: rest) start = .ok record
      ↔ ∃ f others middle, fields = f :: others ∧ f.set item start = .ok middle
        ∧ readItemsInto none others rest middle = .ok record := by
  cases fields with
  | nil => simp [readItemsInto]
  | cons f others =>
      rw [readItemsInto, bind_eq_ok]
      constructor
      · rintro ⟨middle, hset, h⟩
        exact ⟨f, others, middle, rfl, hset, h⟩
      · rintro ⟨_, _, middle, heq, hset, h⟩
        injection heq with hf hothers
        subst hf hothers
        exact ⟨middle, hset, h⟩

theorem readItemsInto_rel {R : α → α → Prop} {fields : List (Field α)}
    (hrespects : ∀ f ∈ fields, f.Respects R) {items : List Written} {start start' record : α}
    (hR : R start start') (h : readItemsInto none fields items start = .ok record) :
    ∃ record', readItemsInto none fields items start' = .ok record' ∧ R record record' := by
  induction items generalizing fields start start' with
  | nil =>
      rw [readItemsInto] at h ⊢
      injection h with h
      exact ⟨start', rfl, h ▸ hR⟩
  | cons item rest ih =>
      obtain ⟨f, others, middle, rfl, hset, h⟩ := readItemsInto_cons_eq_ok_iff.mp h
      rw [List.forall_mem_cons] at hrespects
      obtain ⟨middle', hset', hR⟩ := hrespects.1 _ _ _ _ hR hset
      obtain ⟨record', h', hR⟩ := ih hrespects.2 hR h
      exact ⟨record', readItemsInto_cons_eq_ok_iff.mpr ⟨f, others, middle', rfl, hset', h'⟩, hR⟩

/-- One item in the place of another makes a related record if it does so in the field at its
position. -/
theorem readItemsInto_replace {R : α → α → Prop} {fields : List (Field α)}
    (hrespects : ∀ f ∈ fields, f.Respects R) {v w : Written} {front back : List Written}
    (hset : ∀ f, fields[front.length]? = some f → ∀ record after, f.set v record = .ok after →
      ∃ after', f.set w record = .ok after' ∧ R after after') {start record : α}
    (h : readItemsInto none fields (front ++ v :: back) start = .ok record) :
    ∃ record', readItemsInto none fields (front ++ w :: back) start = .ok record'
      ∧ R record record' := by
  induction front generalizing fields start with
  | nil =>
      obtain ⟨f, others, middle, rfl, hfound, h⟩ := readItemsInto_cons_eq_ok_iff.mp h
      obtain ⟨middle', hfound', hR⟩ := hset f rfl _ _ hfound
      obtain ⟨record', h', hR⟩ :=
        readItemsInto_rel (List.forall_mem_cons.mp hrespects).2 hR h
      exact ⟨record', readItemsInto_cons_eq_ok_iff.mpr ⟨f, others, middle', rfl, hfound', h'⟩, hR⟩
  | cons item front ih =>
      obtain ⟨f, others, middle, rfl, hfound, h⟩ := readItemsInto_cons_eq_ok_iff.mp h
      obtain ⟨record', h', hR⟩ := ih (List.forall_mem_cons.mp hrespects).2 hset h
      exact ⟨record', readItemsInto_cons_eq_ok_iff.mpr ⟨f, others, middle, rfl, hfound, h'⟩, hR⟩

/-! ## Records -/

/-- **A record does not depend on the order of members.** -/
theorem stable_readRecord {fields : List (Field α)} (horderless : Orderless fields) (start : α) :
    Stable (readRecord fields start) := by
  have hrespects : ∀ f ∈ fields, f.Respects Eq := fun f _ => respects_eq f
  intro v w record h hv
  induction h with
  | refl => exact hv
  | trans _ _ ih ih' => exact ih' (ih hv)
  | item hpermuted =>
      obtain ⟨_, hw, rfl⟩ := readItemsInto_replace hrespects (fun f hf record after hset =>
        ⟨after, horderless.stable f (List.mem_of_getElem? hf) record hpermuted hset, rfl⟩) hv
      exact hw
  | value hpermuted =>
      obtain ⟨_, hw, rfl⟩ := readRecord_value Eq.refl hrespects hpermuted.skip
        (fun f hf _ record after hset =>
          ⟨after, horderless.stable f hf record hpermuted hset, rfl⟩) hv
      exact hw
  | members hdistinct hperm =>
      obtain ⟨names, hv⟩ := readRecord_object_eq_ok_iff.mp hv
      exact readRecord_object_eq_ok_iff.mpr ⟨names, foldlM_perm Differ.symm
        (fun _ _ => commutes_readField horderless) hperm hdistinct hv⟩

/-! ## Fields in their order -/

/-- Members that write the given values for fields. -/
def membersOf (fields : List (Field α)) (values : List Written) :
    List (StringLiteral × Written) :=
  List.zipWith (fun field value => (.ofText field.name, value)) fields values

theorem find?_eq_some_of_nodup {fields : List (Field α)} (hnames : (fields.map Field.name).Nodup)
    {field : Field α} (h : field ∈ fields) :
    (fields.find? fun other => other.name = field.name) = some field := by
  cases hfind : fields.find? fun other => other.name = field.name with
  | none => exact absurd (List.find?_eq_none.mp hfind field h) (by simp)
  | some other =>
      obtain ⟨hmem, hname⟩ := name_of_find? hfind
      rw [List.inj_on_of_nodup_map hnames hmem h hname]

theorem readMembersInto_membersOf {fields : List (Field α)}
    (hnames : (fields.map Field.name).Nodup) {tail : List (Field α)} {values : List Written}
    {seen : List String} {record : α} (hfields : ∀ field ∈ tail, field ∈ fields)
    (htail : (tail.map Field.name).Nodup) (hseen : ∀ field ∈ tail, field.name ∉ seen)
    (hlength : values.length = tail.length) :
    readMembersInto fields none seen (membersOf tail values) record
      = readItemsInto none tail values record := by
  induction tail generalizing values seen record with
  | nil =>
      rw [List.length_nil, List.length_eq_zero_iff] at hlength
      subst hlength
      rfl
  | cons field tail ih =>
      obtain ⟨value, values, rfl⟩ := List.exists_cons_of_length_eq_add_one hlength
      rw [List.forall_mem_cons] at hfields hseen
      rw [List.map_cons, List.nodup_cons] at htail
      rw [membersOf, List.zipWith_cons_cons, readMembersInto, StringLiteral.text_ofText,
        readItemsInto]
      dsimp only [bind, Except.bind]
      rw [find?_eq_some_of_nodup hnames hfields.1]
      dsimp only
      rw [if_neg (by simp [hseen.1])]
      cases field.set value record with
      | error fault => rfl
      | ok record =>
          refine ih hfields.2 htail.2 (fun other hmem => ?_) (Nat.succ.inj hlength)
          rw [List.mem_cons, not_or]
          refine ⟨fun heq => htail.1 ?_, hseen.2 other hmem⟩
          rw [← heq]
          exact List.mem_map_of_mem hmem

/-- An object of all the fields in their order is read as the array of their values. -/
theorem readRecord_membersOf {fields : List (Field α)} (hnames : (fields.map Field.name).Nodup)
    {values : List Written} (hlength : values.length = fields.length) (start : α) :
    readRecord fields start (.object (membersOf fields values) none)
      = readRecord fields start (.array values none) :=
  readMembersInto_membersOf hnames (fun _ h => h) hnames (fun _ _ => List.not_mem_nil) hlength

/-- One value of such an array after another is stored. -/
theorem readItemsInto_field {name : String} {read : Written → Except Fault β} {store : α → β → α}
    {fields : List (Field α)} {v : Written} {rest : List Written} {record : α} {value : β}
    (h : read v = .ok value) :
    readItemsInto none (field name read store :: fields) (v :: rest) record
      = readItemsInto none fields rest (store record value) := by
  rw [readItemsInto, field_set_eq_ok_iff.mpr ⟨value, h, rfl⟩]
  rfl

end ChainGenesis.Written
