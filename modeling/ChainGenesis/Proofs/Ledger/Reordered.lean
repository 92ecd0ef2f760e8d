import ChainGenesis.Proofs.Json.Records
import ChainGenesis.Proofs.Ledger.Rendered
import ChainGenesis.Proofs.Paths

/-!
# The order of a ledger

A ledger lists its operators, and they could as well be listed in another order: it is a matter
of the file and not of what the file says. Two ledgers that differ in nothing else are both
sound or neither of them is, and they fund the same accounts. The paths of the entries differ,
since a path counts operators, but in a sound ledger no path is ever reported.
-/

namespace ChainGenesis

namespace Ledger

open Written (Permuted Stable)

/-! ## Members in another order -/

@[simp] theorem stable_readAllocation : Stable readAllocation :=
  Written.stable_readRecord (by simp [allocationFields]) _

@[simp] theorem stable_readHeader : Stable readHeader :=
  Written.stable_readRecord (by simp [headerFields]) _

theorem stable_ofWritten : Stable ofWritten := Written.stable_readRecord (by simp [fields]) _

/-! ## Operators in another order -/

/-- Ledgers that differ in the order of their operators alone. -/
structure Shuffled (ledger other : Ledger) : Prop where
  header : ledger.header = other.header
  buckets : ledger.buckets = other.buckets
  operators : ledger.operators.Perm other.operators
  deployer : ledger.deployer = other.deployer

theorem Shuffled.refl (ledger : Ledger) : Shuffled ledger ledger := ⟨rfl, rfl, .refl _, rfl⟩

theorem Shuffled.trans {first second third : Ledger} (h : Shuffled first second)
    (h' : Shuffled second third) : Shuffled first third :=
  ⟨h.header.trans h'.header, h.buckets.trans h'.buckets, h.operators.trans h'.operators,
    h.deployer.trans h'.deployer⟩

theorem respects_shuffled : ∀ f ∈ fields, f.Respects Shuffled := by
  simp only [fields, List.forall_mem_cons, List.not_mem_nil, false_implies, implies_true,
    and_true]
  refine ⟨?header, ?buckets, ?operators, ?deployer⟩
  case header =>
    exact Written.respects_field
      (fun _ _ _ h => ⟨rfl, h.buckets, h.operators, h.deployer⟩) _ _
  case buckets =>
    exact Written.respects_field
      (fun _ _ _ h => ⟨h.header, rfl, h.operators, h.deployer⟩) _ _
  case operators =>
    exact Written.respects_field (fun _ _ _ h => ⟨h.header, h.buckets, .refl _, h.deployer⟩) _ _
  case deployer =>
    exact Written.respects_field (fun _ _ _ h => ⟨h.header, h.buckets, h.operators, rfl⟩) _ _

/-- The name under which a ledger lists its operators. -/
def operatorsName : String := "operators"

/-- A written ledger with members in another order, or with its operators in another order. A
record can be written as an array, and then the operators are its third item. -/
inductive Reordered : Written → Written → Prop where
  | permuted {v w : Written} : Permuted v w → Reordered v w
  | trans {u v w : Written} : Reordered u v → Reordered v w → Reordered u w
  | operators {name : StringLiteral} {operators others : List Written}
      {front back : List (StringLiteral × Written)} :
      name.text = .ok operatorsName → operators.Perm others →
      Reordered (.object (front ++ (name, .array operators none) :: back) none)
        (.object (front ++ (name, .array others none) :: back) none)
  | third {header buckets : Written} {operators others back : List Written} :
      operators.Perm others →
      Reordered (.array (header :: buckets :: .array operators none :: back) none)
        (.array (header :: buckets :: .array others none :: back) none)

/-- The field for operators takes them in another order and shuffles the ledger. -/
theorem set_operators {f : Written.Field Ledger} (hf : f ∈ fields) (hname : f.name = operatorsName)
    {operators others : List Written} (hperm : operators.Perm others) {ledger after : Ledger}
    (h : f.set (.array operators none) ledger = .ok after) :
    ∃ after', f.set (.array others none) ledger = .ok after' ∧ Shuffled after after' := by
  obtain rfl : f = Written.field operatorsName (Written.readList readAllocation)
      fun ledger operators => { ledger with operators } := by
    simp only [fields, List.mem_cons, List.not_mem_nil, or_false] at hf
    rcases hf with rfl | rfl | rfl | rfl
    · exact absurd hname (by decide)
    · exact absurd hname (by decide)
    · rfl
    · exact absurd hname (by decide)
  obtain ⟨found, hfound, rfl⟩ := Written.field_set_eq_ok_iff.mp h
  obtain ⟨found', hfound', hp⟩ := mapM_perm hperm (Written.readList_eq_ok_iff.mp hfound)
  exact ⟨_, Written.field_set_eq_ok_iff.mpr ⟨found', Written.readList_eq_ok_iff.mpr hfound', rfl⟩,
    rfl, rfl, hp, rfl⟩

/-- The operators of a document can be written in any order. -/
theorem reordered_written {front back : List (String × Document)}
    {operators others : List Document} (h : operators.Perm others) :
    Reordered
      (Document.object (front ++ (operatorsName, .array operators) :: back)).written
      (Document.object (front ++ (operatorsName, .array others) :: back)).written := by
  simp only [Document.written, Document.writtenMembers_eq, Document.writtenItems_eq,
    List.map_append, List.map_cons]
  exact .operators (StringLiteral.text_ofText _) (h.map _)

/-- **Reordering a file reorders the ledger that is read from it.** -/
theorem Reordered.ofWritten {v w : Written} (h : Reordered v w) {ledger : Ledger}
    (hv : Ledger.ofWritten v = .ok ledger) :
    ∃ other, Ledger.ofWritten w = .ok other ∧ Shuffled ledger other := by
  induction h generalizing ledger with
  | permuted h => exact ⟨ledger, stable_ofWritten h hv, .refl ledger⟩
  | trans _ _ ih ih' =>
      obtain ⟨second, hsecond, h⟩ := ih hv
      obtain ⟨third, hthird, h'⟩ := ih' hsecond
      exact ⟨third, hthird, h.trans h'⟩
  | operators hname hperm =>
      refine Written.readRecord_value Shuffled.refl respects_shuffled (fun hskip => ?_)
        (fun f hf hname' _ _ => set_operators hf ?_ hperm) hv
      · rw [Written.skip, Written.skipItems_eq_ok_iff] at *
        exact fun item hmem => hskip item (hperm.mem_iff.mpr hmem)
      · injection hname'.symm.trans hname
  | @third header buckets operators others back hperm =>
      have hv : Written.readItemsInto none fields
          ([header, buckets] ++ .array operators none :: back) blank = .ok ledger := hv
      refine Written.readItemsInto_replace respects_shuffled (fun f hf _ _ => ?_) hv
      have hmem : f ∈ fields := List.mem_of_getElem? hf
      injection hf with hf
      exact set_operators hmem (hf ▸ rfl) hperm

/-! ## Balances -/

/-- The allocations are the same but for their order. -/
theorem Shuffled.entries {ledger other : Ledger} (h : Shuffled ledger other) :
    (ledger.entries.map Prod.snd).Perm (other.entries.map Prod.snd) := by
  rw [map_snd_entries, map_snd_entries, h.buckets, h.deployer]
  exact (h.operators.append_left _).append_right _

/-- What is read off the allocations alone is the same but for its order. -/
theorem Shuffled.map_entries {α : Type} {ledger other : Ledger} (h : Shuffled ledger other)
    (f : Allocation → α) : (ledger.entries.map fun entry => f entry.2).Perm
      (other.entries.map fun entry => f entry.2) := by
  have hmap := h.entries.map f
  rwa [List.map_map, List.map_map] at hmap

theorem Shuffled.sound {opts : VerifyOptions} {ledger other : Ledger} (h : Shuffled ledger other)
    (hsound : ledger.Sound opts) : other.Sound opts where
  unit := h.header ▸ hsound.unit
  decimals := h.header ▸ hsound.decimals
  token := h.header ▸ hsound.token
  buckets := h.buckets ▸ hsound.buckets
  entries := by
    intro entry hmem
    obtain ⟨found, hfound, heq⟩ :=
      List.mem_map.mp (h.entries.mem_iff.mpr (List.mem_map.mpr ⟨entry, hmem, rfl⟩))
    exact heq ▸ hsound.entries found hfound
  distinct := (h.map_entries Allocation.account).nodup_iff.mp hsound.distinct

/-- **The balances of a sound ledger do not depend on the order of its operators.** -/
theorem Shuffled.alloc {opts : VerifyOptions} {ledger other : Ledger} (h : Shuffled ledger other)
    (hsound : ledger.Sound opts) : ledger.alloc = other.alloc := by
  have hfunds : ledger.funds.Perm other.funds := h.map_entries Allocation.funded
  rw [hsound.alloc, (h.sound hsound).alloc, Named.ofList_eq_of_perm hfunds hsound.nodup_funds,
    Wei.sum_perm (h.map_entries Allocation.wei)]

/-! ## The file as a document -/

/-- An array is a document in another order too. -/
theorem document_of_perm {items others : List Written} (hperm : items.Perm others) {depth : Nat}
    {doc : Document} (h : Document.ofWritten depth (.array items none) = .ok doc) :
    ∃ other, Document.ofWritten depth (.array others none) = .ok other := by
  obtain ⟨below, docs, rfl, hdocs, _⟩ := Document.ofWritten_array_eq_ok_iff.mp h
  obtain ⟨docs', hdocs', _⟩ := mapM_perm hperm hdocs
  exact ⟨.array docs', Document.ofWritten_array_eq_ok_iff.mpr ⟨below, docs', rfl, hdocs', rfl⟩⟩

/-- A reordered ledger is the same document but for the operators. -/
theorem Reordered.document {v w : Written} (h : Reordered v w) {depth : Nat} {doc : Document}
    (hv : Document.ofWritten depth v = .ok doc) :
    ∃ other, Document.ofWritten depth w = .ok other
      ∧ Document.AlikeBut operatorsName doc other := by
  induction h generalizing doc with
  | permuted h => exact ⟨doc, Document.stable_ofWritten depth h hv, .refl doc⟩
  | trans _ _ ih ih' =>
      obtain ⟨second, hsecond, h⟩ := ih hv
      obtain ⟨third, hthird, h'⟩ := ih' hsecond
      exact ⟨third, hthird, h.trans h'⟩
  | @operators name operators others front back hname hperm =>
      obtain ⟨below, entries, rfl, hentries, rfl⟩ := Document.ofWritten_object_eq_ok_iff.mp hv
      -- the member for the operators keeps its name, and every other member stays as it is
      have hmember : ∀ entry,
          Written.readMember (Document.ofWritten below) (name, .array operators none) = .ok entry →
          ∃ entry', Written.readMember (Document.ofWritten below) (name, .array others none)
              = .ok entry'
            ∧ (entry.1 = entry'.1 ∧ (entry.1 ≠ operatorsName → entry.2 = entry'.2)) := by
        intro entry hentry
        obtain ⟨htext, hvalue⟩ := Written.readMember_eq_ok_iff.mp hentry
        obtain ⟨value', hvalue'⟩ := document_of_perm hperm hvalue
        injection htext.symm.trans hname with heq
        exact ⟨(entry.1, value'), Written.readMember_eq_ok_iff.mpr ⟨htext, hvalue'⟩, rfl,
          fun hne => absurd heq hne⟩
      obtain ⟨entries', hentries', hall⟩ :=
        mapM_replace (fun _ => ⟨rfl, fun _ => rfl⟩) hmember hentries
      refine ⟨_, Document.ofWritten_object_eq_ok_iff.mpr
        ⟨below, entries', rfl, hentries', rfl⟩, rfl, fun found hne => ?_⟩
      rw [Document.get?_object, Document.get?_object]
      exact Named.lookup?_ofList_congr
        (hall.imp fun _ _ h => ⟨h.1, fun heq => h.2 (heq ▸ hne)⟩)
  | @third header buckets operators others back hperm =>
      obtain ⟨below, docs, rfl, hdocs, rfl⟩ := Document.ofWritten_array_eq_ok_iff.mp hv
      have hdocs : ([header, buckets] ++ .array operators none :: back).mapM
          (Document.ofWritten below) = .ok docs := hdocs
      obtain ⟨docs', hdocs', _⟩ := mapM_replace (fun _ => trivial)
        (fun _ hdoc => (document_of_perm hperm hdoc).imp fun _ h => ⟨h, trivial⟩) hdocs
      exact ⟨.array docs', Document.ofWritten_array_eq_ok_iff.mpr ⟨below, docs', rfl, hdocs', rfl⟩,
        rfl, fun _ _ => rfl⟩

end Ledger

end ChainGenesis
