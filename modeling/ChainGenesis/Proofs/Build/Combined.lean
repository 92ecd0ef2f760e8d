import ChainGenesis.Proofs.Build.Course
import ChainGenesis.Proofs.Forks

/-!
# What putting together leaves alone

Between merging and validating a build makes three edits: it takes out the keys of the old
layout, it takes the engine from the overlay, and it adds the upgrades. A path is apart from
them if it leads anywhere else, and what stands there is what merging put there.
-/

namespace ChainGenesis.Build

open Validation (legacyKeys)

/-! ## The keys of the old layout -/

/-- Of names that are taken out one after the other none is left, and no other is touched. -/
theorem lookup?_foldl_remove (keys : List String) (members : Members) (name : String) :
    Named.lookup? name (keys.foldl (fun members key => Named.remove key members) members)
      = if name ∈ keys then none else Named.lookup? name members := by
  induction keys generalizing members with
  | nil => rfl
  | cons key keys ih =>
      rw [List.foldl_cons, ih, Named.lookup?_remove]
      by_cases hkey : name = key
      · subst hkey
        simp
      · simp [hkey]

theorem get?_withoutLegacyKeys (doc : Document) (name : String) :
    (withoutLegacyKeys doc).get? name
      = if name ∈ legacyKeys then none else doc.get? name := by
  cases doc with
  | object root => exact lookup?_foldl_remove legacyKeys root name
  | null | bool _ | number _ | string _ | array _ =>
      rw [withoutLegacyKeys]
      split <;> rfl
      all_goals simp

/-! ## The engine -/

theorem get?_withEngineOf (overlay doc : Document) {name : String} (h : name ≠ "params") :
    (withEngineOf overlay doc).get? name = doc.get? name := by
  cases doc with
  | object root => exact Document.get?_setBelow root _ (Ne.symm h)
  | null | bool _ | number _ | string _ | array _ => rfl

/-- Beside the engine the parameters are as they were. -/
theorem at?_withEngineOf (overlay doc : Document) {name : String} (path : List String)
    (h : name ≠ "engine") :
    (withEngineOf overlay doc).at? ("params" :: name :: path)
      = doc.at? ("params" :: name :: path) := by
  cases doc with
  | object root => exact Document.at?_setBelow root _ path (Ne.symm h)
  | null | bool _ | number _ | string _ | array _ => rfl

/-- No key of the old layout is left when a document is put together. -/
theorem get?_combine_legacyKey (template overlay : Document) (env : Environment)
    (supported : Option (List String)) {key : String} (h : key ∈ legacyKeys) :
    ((combine template overlay).ensureForks env supported).get? key = none := by
  have hname : key ≠ "params" := by
    rintro rfl
    exact absurd h (by decide)
  rw [Document.get?_ensureForks _ _ _ hname, combine, get?_withEngineOf _ _ hname,
    get?_withoutLegacyKeys, if_pos h]

/-! ## Paths apart from the edits -/

/-- A path that no edit of a build touches. -/
inductive Apart : List String → Prop where
  | top {name : String} {path : List String} :
      name ∉ legacyKeys → name ≠ "params" → Apart (name :: path)
  | params {name : String} {path : List String} :
      name ≠ "engine" → name ≠ "forks" → Apart ("params" :: name :: path)

theorem at?_combine (template overlay : Document) {path : List String} (h : Apart path)
    (env : Environment) (supported : Option (List String)) :
    ((combine template overlay).ensureForks env supported).at? path
      = (template.merge overlay).at? path := by
  cases h with
  | @top name path hkey hname =>
      refine Document.at?_congr ?_ path
      rw [Document.get?_ensureForks _ _ _ hname, combine, get?_withEngineOf _ _ hname,
        get?_withoutLegacyKeys, if_neg hkey]
  | @params name path hengine hforks =>
      rw [Document.at?_ensureForks _ _ _ _ hforks, combine, at?_withEngineOf _ _ _ hengine]
      refine Document.at?_congr ?_ _
      rw [get?_withoutLegacyKeys, if_neg (by decide)]

/-- **Apart from its edits a build changes nothing that merging put there.** -/
theorem Course.at?_combined {fs : FileSystem} {opts : BuildOptions} {result : Build}
    (course : Course fs opts result) {path : List String} (h : Apart path) :
    result.combined.at? path
      = ((course.template.fill (values opts course.alloc result.contracts)).merge
          (course.overlay.fill (values opts course.alloc result.contracts))).at? path := by
  rw [course.combined_eq, at?_combine _ _ h]

/-- What stands in the template, and the overlay does not mention, is shipped filled in. -/
theorem Course.at?_of_template {fs : FileSystem} {opts : BuildOptions} {result : Build}
    (course : Course fs opts result) {path : List String} {value : Document} (h : Apart path)
    (ht : course.template.at? path = some value) (ho : course.overlay.Leaves path) :
    result.combined.at? path
      = some (value.fill (values opts course.alloc result.contracts)) := by
  rw [course.at?_combined h]
  exact Document.at?_merge (ho.fill _) (Document.at?_fill _ ht)

/-! ## The three documents -/

section

variable {fs : FileSystem} {opts : BuildOptions} {result : Build}

/-- The raw genesis is the genesis of the combined document. -/
theorem Course.get?_genesis (course : Course fs opts result) :
    result.combined.get? "genesis" = some result.genesis :=
  (embeddedGenesis_eq_ok_iff.mp course.genesisFound).1

/-- Below the genesis of the combined document stands what stands in the raw genesis. -/
theorem Course.at?_genesis (course : Course fs opts result) (path : List String) :
    result.combined.at? ("genesis" :: path) = result.genesis.at? path := by
  rw [Document.at?_cons, course.get?_genesis]
  rfl

/-- Beside the genesis the chain configuration is the combined document. -/
theorem Course.get?_chain (course : Course fs opts result) {name : String}
    (h : name ≠ "genesis") : result.chain.get? name = result.combined.get? name := by
  rw [course.chain_eq]
  exact Document.get?_set _ _ _ _ (Ne.symm h)

end

end ChainGenesis.Build
