import ChainGenesis.Proofs.DocPath
import ChainGenesis.Proofs.Validation

/-!
# Where the errors on a document are located

Each rule reports at the path it is given or below it. So the errors on a chain configuration lie
in places that are apart: those on keys of the old layout at the root, those on the parameters
each below its own parameter, and those on the genesis below `genesis` or, where it is a file,
below a member of that file.
-/

namespace ChainGenesis

/-! ## Findings below a path -/

/-- Every error is located at the path or below it. -/
def Findings.Below (path : DocPath) (found : Findings) : Prop :=
  ∀ issue ∈ found.errors, issue.Below path

namespace Findings

variable {path : DocPath}

theorem below_none : Findings.none.Below path := fun _ hmem => absurd hmem (by simp [none])

theorem below_warning (w : Warning) : (Findings.warning w).Below path :=
  fun _ hmem => absurd hmem (by simp [warning])

theorem below_error (below : DocPath) (problem : Problem) :
    (Findings.error (path ++ below) problem).Below path := by
  intro issue hmem
  rw [error, List.mem_singleton] at hmem
  subst hmem
  exact List.prefix_append _ _

theorem below_error_self (problem : Problem) : (Findings.error path problem).Below path := by
  have h := @below_error path [] problem
  rwa [List.append_nil] at h

theorem Below.concat {all : List Findings} (h : ∀ found ∈ all, found.Below path) :
    (Findings.concat all).Below path := by
  intro issue hmem
  rw [errors_concat] at hmem
  obtain ⟨found, hfound, hmem⟩ := List.mem_flatMap.mp hmem
  exact h found hfound issue hmem

/-- What is found below a longer path is found below a shorter one. -/
theorem Below.of_append {below : DocPath} {found : Findings} (h : found.Below (path ++ below)) :
    found.Below path :=
  fun issue hmem => (List.prefix_append path below).trans (h issue hmem)

theorem below_under (found : Findings) : (found.under path).Below path := by
  intro issue hmem
  obtain ⟨inner, _, rfl⟩ := List.mem_map.mp hmem
  exact List.prefix_append _ _

end Findings

namespace Validation

/-! ## Each rule -/

theorem below_checkForks (path : DocPath) (forks : Option Document) :
    (checkForks path forks).Below path := by
  unfold checkForks
  split
  · refine Findings.Below.concat fun found hmem => ?_
    obtain ⟨⟨name, fork⟩, _, rfl⟩ := List.mem_map.mp hmem
    dsimp only
    split
    · exact Findings.below_none
    · exact Findings.below_error [.field name] _
  · exact Findings.below_error_self _

theorem below_checkEngineType (path : DocPath) (kind : Option Document) :
    (checkEngineType path kind).Below path := by
  unfold checkEngineType
  split
  · exact Findings.below_error_self _
  · split
    · exact Findings.below_error_self _
    · split
      · exact Findings.below_none
      · exact Findings.below_error_self _
  · exact Findings.below_error_self _

theorem below_checkEngine (policy : Policy) (top : Members) (path : DocPath)
    (engine : Option Document) : (checkEngine policy top path engine).Below path := by
  unfold checkEngine
  split
  · split
    · have htype := below_checkEngineType (path.field "ibft" |>.field "type")
      exact (htype _).of_append.of_append
    · split
      · exact Findings.below_warning _
      · exact Findings.below_error [.field "ibft"] _
  · exact Findings.below_error_self _

theorem below_checkGenesis (path : DocPath) (doc : Document) :
    (checkGenesis path doc).Below path := by
  rw [checkGenesis_eq_under]
  exact Findings.below_under _

/-- Every error on a genesis that is an object is about one of its members. -/
theorem below_of_mem_rawGenesis {top : Members} {issue : Issue}
    (h : issue ∈ (rawGenesis (.object top)).errors) :
    ∃ name ∈ genesisNames, issue.Below [.field name] := by
  have hfield : ∀ name, DocPath.root.field name = [.field name] ++ [] := fun _ => rfl
  rw [rawGenesis, checkGenesis, Findings.errors_append, Findings.errors_append,
    Findings.errors_concat] at h
  rcases List.mem_append.mp h with h | h
  · rcases List.mem_append.mp h with h | h
    · rw [hfield, checkAlloc_under] at h
      exact ⟨"alloc", by decide, Findings.below_under _ issue h⟩
    · obtain ⟨found, hmem, h⟩ := List.mem_flatMap.mp h
      obtain ⟨name, hname, rfl⟩ := List.mem_map.mp hmem
      have hgenesis : ∀ name ∈ ["gasLimit", "difficulty", "extraData"], name ∈ genesisNames := by
        decide
      rw [hfield, checkString_under] at h
      exact ⟨name, hgenesis name hname, Findings.below_under _ issue h⟩
  · rw [hfield, checkBool_under] at h
    exact ⟨"baseFeeEnabled", by decide, Findings.below_under _ issue h⟩

theorem path_of_mem_checkLegacyKeys {policy : Policy} {top : Members} {issue : Issue}
    (h : issue ∈ (checkLegacyKeys policy top).errors) : issue.path = .root := by
  unfold checkLegacyKeys at h
  split at h
  · exact absurd h (by simp [Findings.none])
  · split at h
    · rw [Findings.error, List.mem_singleton] at h
      rw [h]
    · exact absurd h (by simp [Findings.warning])

/-! ## The parameters -/

/-- The findings on the parameters of a chain, except those on its engine. -/
def besideEngine (path : DocPath) (params : Members) : Findings :=
  (if hasNumber params "chainID" || hasNumber params "chainId" then .none
    else .error (path.field "chainID") .chainIdNotNumeric)
    ++ (if Named.has params "minGasPrice" then .none else .warning .noMinGasPrice)
    ++ checkForks (path.field "forks") (Named.lookup? "forks" params)

theorem checkParams_object (policy : Policy) (top : Members) (path : DocPath)
    (params : Members) :
    checkParams policy top path (some (.object params))
      = besideEngine path params
        ++ checkEngine policy top (path.field "engine") (Named.lookup? "engine" params) := rfl

theorem mem_besideEngine {path : DocPath} {params : Members} {issue : Issue}
    (h : issue ∈ (besideEngine path params).errors) :
    issue.Below (path.field "chainID")
      ∨ issue ∈ (checkForks (path.field "forks") (Named.lookup? "forks" params)).errors := by
  rw [besideEngine, Findings.errors_append, Findings.errors_append, List.append_assoc] at h
  rcases List.mem_append.mp h with h | h
  · left
    split at h
    · exact absurd h (by simp [Findings.none])
    · exact Findings.below_error_self _ issue h
  · rcases List.mem_append.mp h with h | h
    · split at h
      · exact absurd h (by simp [Findings.none])
      · exact absurd h (by simp [Findings.warning])
    · exact .inr h

/-! ## The genesis -/

/-- An error on the genesis is not shown below a path that is apart from the genesis and from
all that a genesis is made of. -/
theorem not_shownBelow_of_mem_checkReference {fs : FileSystem} {genesis : Option Document}
    {issue : Issue} {other : DocPath} (hother : other.text ≠ "")
    (hapart : ∀ name ∈ "genesis" :: genesisNames, DocPath.Apart [.field name] other)
    (h : issue ∈ (checkReference fs (DocPath.root.field "genesis") genesis).errors) :
    ¬ issue.ShownBelow other := by
  have hbelow : ∀ {name : String} {issue : Issue}, name ∈ "genesis" :: genesisNames →
      issue.Below [.field name] → ¬ issue.ShownBelow other := by
    intro name issue hname hbelow
    exact (hbelow.shownBelow (by simp [DocPath.root])).not_of_apart (hapart name hname)
  have hreference : ∀ {found : Findings}, found.Below (DocPath.root.field "genesis") →
      issue ∈ found.errors → ¬ issue.ShownBelow other :=
    fun hfound hmem => hbelow List.mem_cons_self (hfound issue hmem)
  unfold checkReference at h
  split at h
  · exact hreference (Findings.below_error_self _) h
  · exact hreference (below_checkGenesis _ _) h
  · split at h
    · exact hreference (Findings.below_error_self _) h
    · unfold checkGenesisFile at h
      split at h
      · split at h
        · -- the paths of errors in a file begin anew
          rename_i doc _
          obtain ⟨inner, hinner, rfl⟩ := List.mem_map.mp h
          cases hobject : doc.isObject with
          | false =>
              rw [rawGenesis_of_not_object hobject, Findings.error, List.mem_singleton] at hinner
              subst hinner
              exact Issue.not_shownBelow_of_root rfl hother
          | true =>
              obtain ⟨top, rfl⟩ := Document.isObject_iff.mp hobject
              obtain ⟨name, hname, hinner⟩ := below_of_mem_rawGenesis hinner
              exact hbelow (List.mem_cons_of_mem _ hname) hinner
        · exact hreference (Findings.below_error_self _) h
      · exact absurd h (by simp [Findings.none])
  · exact hreference (Findings.below_error_self _) h

end Validation

end ChainGenesis
