import ChainGenesis.Ledger
import ChainGenesis.Proofs.DocPath

/-!
# The entries of a ledger

The entries of a ledger are its buckets, its operators and the deployer, each under a path of its
own kind: the buckets are told apart by their names, the operators by their positions.
-/

namespace ChainGenesis

namespace Ledger

/-! ## What they hold -/

theorem length_operatorEntries (n : Nat) (operators : List Allocation) :
    (operatorEntries n operators).length = operators.length := by
  induction operators generalizing n with
  | nil => rfl
  | cons operator rest ih => rw [operatorEntries, List.length_cons, ih, List.length_cons]

/-- The buckets, the operators and the deployer each have their entries. -/
theorem length_entries (ledger : Ledger) :
    ledger.entries.length = ledger.buckets.length + ledger.operators.length + 1 := by
  rw [entries, List.length_append, List.length_append, length_operatorEntries, bucketEntries,
    List.length_map, List.length_singleton]

theorem map_snd_operatorEntries (n : Nat) (operators : List Allocation) :
    (operatorEntries n operators).map Prod.snd = operators := by
  induction operators generalizing n with
  | nil => rfl
  | cons operator rest ih => rw [operatorEntries, List.map_cons, ih]

theorem map_snd_entries (ledger : Ledger) :
    ledger.entries.map Prod.snd
      = ledger.buckets.map Prod.snd ++ ledger.operators ++ [ledger.deployer] := by
  rw [entries, List.map_append, List.map_append, map_snd_operatorEntries, bucketEntries,
    List.map_map]
  rfl

/-! ## Where they are -/

theorem ne_root_of_mem_operatorEntries {n : Nat} {operators : List Allocation}
    {entry : DocPath × Allocation} (h : entry ∈ operatorEntries n operators) :
    entry.1 ≠ DocPath.root := by
  induction operators generalizing n with
  | nil => exact absurd h (by simp [operatorEntries])
  | cons operator rest ih =>
      rcases List.mem_cons.mp h with rfl | h
      · exact List.cons_ne_nil _ _
      · exact ih h

/-- No entry stands at the root. -/
theorem ne_root_of_mem_entries {ledger : Ledger} {entry : DocPath × Allocation}
    (h : entry ∈ ledger.entries) : entry.1 ≠ DocPath.root := by
  rw [entries, List.mem_append, List.mem_append] at h
  rcases h with (h | h) | h
  · obtain ⟨bucket, _, rfl⟩ := List.mem_map.mp h
    exact List.cons_ne_nil _ _
  · exact ne_root_of_mem_operatorEntries h
  · rw [List.mem_singleton.mp h]
    exact List.cons_ne_nil _ _

theorem map_text_bucketEntries (buckets : Named Allocation) :
    (bucketEntries buckets).map (fun entry => entry.1.text)
      = buckets.map fun bucket => "buckets." ++ bucket.1 := by
  rw [bucketEntries, List.map_map]
  exact List.map_congr_left fun bucket _ => DocPath.text_field_field "buckets" bucket.1

theorem map_text_operatorEntries (n : Nat) (operators : List Allocation) :
    (operatorEntries n operators).map (fun entry => entry.1.text)
      = (List.range' n operators.length).map fun k => "operators[" ++ (Nat.repr k ++ "]") := by
  induction operators generalizing n with
  | nil => rfl
  | cons operator rest ih =>
      rw [operatorEntries, List.map_cons, ih, List.length_cons, List.range'_succ, List.map_cons]
      exact congrArg (· :: _)
        ((DocPath.text_field_index "operators" n).trans String.append_assoc)

theorem map_text_entries (ledger : Ledger) :
    ledger.entries.map (fun entry => entry.1.text)
      = (ledger.buckets.map fun bucket => "buckets." ++ bucket.1)
        ++ ((List.range' 0 ledger.operators.length).map fun k =>
          "operators[" ++ (Nat.repr k ++ "]"))
        ++ ["deployer"] := by
  rw [entries, List.map_append, List.map_append, map_text_bucketEntries, map_text_operatorEntries]
  rfl

end Ledger

end ChainGenesis
