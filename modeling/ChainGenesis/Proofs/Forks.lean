import ChainGenesis.Proofs.Merge
import ChainGenesis.Proofs.Validation.Chain
import ChainGenesis.Proofs.Validation.Located

/-!
# The upgrades of a document

A document that states its upgrades keeps them and everything else. One that does not is given
the upgrades of its environment under `params.forks`, which makes an object of the parameters if
there is none, and changes nothing beside that. From then on it states its upgrades, so doing the
same again in another environment does nothing, and no validation finds fault with them.
-/

namespace ChainGenesis

/-! ## Which upgrades are active -/

namespace Forks

/-- A list that names nothing leaves the whole catalogue, and any other what it names of it. -/
theorem active_eq (env : Environment) (supported : Option (List String)) :
    active env supported
      = if env = .devnet then
          catalogue.filter fun fork =>
            (supported.getD []).all (· = "") || (supported.getD []).contains fork
        else [] := by
  cases env with
  | staging => rfl
  | mainnet => rfl
  | devnet =>
      rw [if_pos rfl, active, restriction]
      cases supported with
      | none => rfl
      | some names =>
          have hblank : names.all (· = "") = !names.any fun name => name ≠ "" := by
            simp [List.not_any_eq_all_not]
          rw [Option.getD_some, hblank, Option.filter_some]
          cases names.any fun name => name ≠ "" with
          | true => rfl
          | false => rfl

/-- **Which upgrades are active:** none outside development networks, and there those of the
catalogue that are supported, if anything is said of that. -/
theorem mem_active_iff {env : Environment} {supported : Option (List String)} {fork : String} :
    fork ∈ active env supported
      ↔ env = .devnet ∧ fork ∈ catalogue
        ∧ ((∀ name ∈ supported.getD [], name = "") ∨ fork ∈ supported.getD []) := by
  rw [active_eq]
  by_cases henv : env = .devnet
  · rw [if_pos henv, List.mem_filter, Bool.or_eq_true, List.all_eq_true, List.contains_iff_mem]
    simp [henv]
  · rw [if_neg henv]
    simp [henv]

/-- Only the names that are not empty count, however often and in whatever order they stand. -/
theorem active_congr {supported others : Option (List String)}
    (h : ∀ name, name ≠ "" → (name ∈ supported.getD [] ↔ name ∈ others.getD []))
    (env : Environment) : active env supported = active env others := by
  have hblank : (∀ name ∈ supported.getD [], name = "") ↔ ∀ name ∈ others.getD [], name = "" := by
    refine forall_congr' fun name => ?_
    by_cases hempty : name = ""
    · simp [hempty]
    · rw [h name hempty]
  have hnamed : ∀ fork ∈ catalogue, fork ≠ "" := by decide
  rw [active_eq, active_eq]
  congr 1
  refine List.filter_congr fun fork hmem => ?_
  rw [Bool.eq_iff_iff]
  simp only [Bool.or_eq_true, List.all_eq_true, decide_eq_true_eq, List.contains_iff_mem]
  rw [hblank, h fork (hnamed fork hmem)]

/-- The upgrades that are stated are the active ones, each from the first block. -/
theorem get?_activations (env : Environment) (supported : Option (List String)) (name : String) :
    (activations env supported).get? name
      = if name ∈ active env supported then some atGenesis else none := by
  rw [activations, Document.get?_object, Named.lookup?_ofList, ← List.map_reverse,
    Named.lookup?_map_const]
  simp only [List.mem_reverse]

/-- **Which upgrades are stated:** the active ones and no others, each from the first block. -/
theorem get?_activations_iff {env : Environment} {supported : Option (List String)}
    {name : String} {value : Document} :
    (activations env supported).get? name = some value
      ↔ value = atGenesis ∧ env = .devnet ∧ name ∈ catalogue
        ∧ ((∀ listed ∈ supported.getD [], listed = "") ∨ name ∈ supported.getD []) := by
  rw [get?_activations, ← mem_active_iff]
  by_cases hactive : name ∈ active env supported
  · simp [hactive, eq_comm]
  · simp [hactive]

theorem activations_congr {supported others : Option (List String)}
    (h : ∀ name, name ≠ "" → (name ∈ supported.getD [] ↔ name ∈ others.getD []))
    (env : Environment) : activations env supported = activations env others := by
  rw [activations, activations, active_congr h env]

/-- What is stated of the upgrades meets the rule for upgrades. -/
theorem errors_checkForks_activations (path : DocPath) (env : Environment)
    (supported : Option (List String)) :
    (Validation.checkForks path (some (activations env supported))).errors = [] := by
  refine Validation.errors_checkForks_eq_nil_iff.mpr ⟨_, rfl, fun fork hmem => ?_⟩
  have hlookup := (Named.ordered_ofList _).lookup?_of_mem hmem
  have hget : (activations env supported).get? fork.1 = some fork.2 := hlookup
  rw [get?_activations] at hget
  split at hget
  · injection hget with hget
    rw [← hget]
    rfl
  · exact absurd hget (by simp)

end Forks

namespace Document

/-! ## Adding the upgrades -/

theorem ensureForks_eq (env : Environment) (supported : Option (List String)) (root : Members) :
    (object root).ensureForks env supported = object root
      ∨ (object root).ensureForks env supported
        = setBelow root "params" "forks" (Forks.activations env supported) := by
  rw [ensureForks]
  split
  · exact .inl rfl
  · exact .inr rfl

/-- Beside the parameters nothing is changed. -/
theorem get?_ensureForks (env : Environment) (supported : Option (List String)) (doc : Document)
    {name : String} (h : name ≠ "params") :
    (doc.ensureForks env supported).get? name = doc.get? name := by
  cases doc with
  | object root =>
      rcases ensureForks_eq env supported root with heq | heq
      · rw [heq]
      · rw [heq]
        exact get?_setBelow root _ (Ne.symm h)
  | null | bool _ | number _ | string _ | array _ => rfl

/-- Beside the upgrades the parameters are as they were. -/
theorem at?_ensureForks (env : Environment) (supported : Option (List String)) (doc : Document)
    {name : String} (path : List String) (h : name ≠ "forks") :
    (doc.ensureForks env supported).at? ("params" :: name :: path)
      = doc.at? ("params" :: name :: path) := by
  cases doc with
  | object root =>
      rcases ensureForks_eq env supported root with heq | heq
      · rw [heq]
      · rw [heq]
        exact at?_setBelow root _ path (Ne.symm h)
  | null | bool _ | number _ | string _ | array _ => rfl

/-- Upgrades that are stated already are left as they are, and otherwise the environment's are
added. -/
theorem at?_ensureForks_forks (env : Environment) (supported : Option (List String))
    (root : Members) :
    ((object root).HasObject ["params", "forks"] →
        (object root).ensureForks env supported = .object root)
      ∧ (¬ (object root).HasObject ["params", "forks"] →
        ((object root).ensureForks env supported).at? ["params", "forks"]
          = some (Forks.activations env supported)) := by
  have hlookup : Named.lookup? "forks" (objectAt root "params")
      = (object root).at? ["params", "forks"] := lookup?_objectAt _ _ _
  rw [ensureForks]
  split
  · rename_i forks heq
    exact ⟨fun _ => rfl, fun hnone => absurd ⟨forks, hlookup.symm.trans heq⟩ hnone⟩
  · rename_i hnot
    have hnone : ¬ (object root).HasObject ["params", "forks"] := by
      rintro ⟨forks, hforks⟩
      exact hnot forks (hlookup.trans hforks)
    refine ⟨fun h => absurd h hnone, fun _ => ?_⟩
    show (setBelow root "params" "forks" _).at? _ = _
    rw [at?_cons, get?_setBelow_self, Option.bind_some, at?_singleton, get?_object,
      Named.lookup?_put, if_pos rfl]

theorem ordered_ensureForks (env : Environment) (supported : Option (List String))
    {doc : Document} (h : doc.Ordered) : (doc.ensureForks env supported).Ordered := by
  have hactivations : (Forks.activations env supported).Ordered := by
    refine ⟨Named.ordered_ofList _, orderedMembers_iff.mpr fun member hmem => ?_⟩
    obtain ⟨fork, _, rfl⟩ := List.mem_map.mp (mem_of_mem_ofList hmem)
    exact (by decide : Forks.atGenesis.Ordered)
  cases doc with
  | object root =>
      rcases ensureForks_eq env supported root with heq | heq
      · rwa [heq]
      · rw [heq]
        exact h.setBelow "params" "forks" hactivations
  | null | bool _ | number _ | string _ | array _ => exact h

/-- A document is another one with the upgrades of an environment added. -/
structure Installed (env : Environment) (supported : Option (List String))
    (doc installed : Document) : Prop where
  /-- Beside the parameters nothing is changed. -/
  top : ∀ name, name ≠ "params" → installed.get? name = doc.get? name
  /-- There are parameters, also where there were none. -/
  params : installed.HasObject ["params"]
  /-- Beside the upgrades the parameters are those that were there. -/
  others : ∀ name, name ≠ "forks" → installed.at? ["params", name] = doc.at? ["params", name]
  forks : installed.at? ["params", "forks"] = some (Forks.activations env supported)

theorem ensureForks_of_stated {env : Environment} {supported : Option (List String)}
    {doc : Document} (h : doc.isObject = false ∨ doc.HasObject ["params", "forks"]) :
    doc.ensureForks env supported = doc := by
  cases doc with
  | object root =>
      rcases h with h | h
      · exact absurd h (by simp [isObject, members?])
      · exact (at?_ensureForks_forks env supported root).1 h
  | null | bool _ | number _ | string _ | array _ => rfl

theorem installed_ensureForks (env : Environment) (supported : Option (List String))
    {doc : Document} (hobject : doc.isObject = true) (h : ¬ doc.HasObject ["params", "forks"]) :
    Installed env supported doc (doc.ensureForks env supported) := by
  obtain ⟨root, rfl⟩ := isObject_iff.mp hobject
  have hforks := (at?_ensureForks_forks env supported root).2 h
  exact {
    top := fun _ hname => get?_ensureForks env supported _ hname
    params := .of_at? hforks
    others := fun _ hname => at?_ensureForks env supported _ [] hname
    forks := hforks }

/-- Nothing is left open beside the order of the members. -/
theorem Installed.unique {env : Environment} {supported : Option (List String)}
    {doc installed other : Document} (h : Installed env supported doc installed)
    (h' : Installed env supported doc other) (hordered : installed.Ordered)
    (hordered' : other.Ordered) : other = installed := by
  have hsameParams : other.at? ["params"] = installed.at? ["params"] := by
    refine hordered'.at?_ext hordered h'.params h.params fun name => ?_
    show other.at? ["params", name] = installed.at? ["params", name]
    by_cases hname : name = "forks"
    · rw [hname, h'.forks, h.forks]
    · rw [h'.others name hname, h.others name hname]
  obtain ⟨_, hparams⟩ := h.params
  obtain ⟨_, hparams'⟩ := h'.params
  have hsame : other.at? [] = installed.at? [] := by
    refine hordered'.at?_ext hordered (.of_at? hparams') (.of_at? hparams) fun name => ?_
    show other.at? [name] = installed.at? [name]
    by_cases hname : name = "params"
    · rw [hname, hsameParams]
    · rw [at?_singleton, at?_singleton, h'.top name hname, h.top name hname]
  exact Option.some.inj hsame

/-- A document that is given its upgrades states them, if it is an object at all. -/
theorem stated_ensureForks (env : Environment) (supported : Option (List String))
    (doc : Document) :
    (doc.ensureForks env supported).isObject = false
      ∨ (doc.ensureForks env supported).HasObject ["params", "forks"] := by
  by_cases h : doc.isObject = false ∨ doc.HasObject ["params", "forks"]
  · rw [ensureForks_of_stated h]
    exact h
  · obtain ⟨hobject, hnone⟩ := not_or.mp h
    exact .inr ⟨_, (installed_ensureForks env supported (by simpa using hobject) hnone).forks⟩

/-! ## Validating the upgrades -/

/-- Where the upgrades of a chain are stated. -/
def forksPath : DocPath := DocPath.root.field "params" |>.field "forks"

/-- No error is shown at the upgrades of a chain, or below them, if the rule for upgrades finds
none: all other rules report elsewhere. -/
theorem not_shownBelow_forks {doc : Document}
    (h : (Validation.checkForks forksPath (doc.at? ["params", "forks"])).errors = [])
    (fs : FileSystem) (policy : Policy) {issue : Issue}
    (hmem : issue ∈ (Validation.chainConfig fs policy doc).errors) :
    ¬ issue.ShownBelow forksPath := by
  obtain ⟨forks, hforks, _⟩ := Validation.errors_checkForks_eq_nil_iff.mp h
  obtain ⟨params, hparams⟩ := @HasObject.of_at? _ _ ["params"] "forks" hforks
  rw [show doc.at? ["params", "forks"] = Named.lookup? "forks" params from
    at?_of_object hparams "forks"] at h
  obtain ⟨top, rfl, hfound⟩ := get?_eq_some ((at?_singleton doc "params").symm.trans hparams)
  rw [Validation.chainConfig, hfound, Validation.checkParams_object] at hmem
  rw [Findings.errors_append, Findings.errors_append, Findings.errors_append] at hmem
  rcases List.mem_append.mp hmem with hmem | hmem
  · rcases List.mem_append.mp hmem with hmem | hmem
    · exact Issue.not_shownBelow_of_root (Validation.path_of_mem_checkLegacyKeys hmem) (by decide)
    · rcases List.mem_append.mp hmem with hmem | hmem
      · rcases Validation.mem_besideEngine hmem with hbelow | hmem
        · exact (hbelow.shownBelow (by decide)).not_of_apart (by decide)
        · exact absurd (h ▸ hmem : issue ∈ []) List.not_mem_nil
      · have hbelow := Validation.below_checkEngine _ _ _ _ issue hmem
        exact (hbelow.shownBelow (by decide)).not_of_apart (by decide)
  · exact Validation.not_shownBelow_of_mem_checkReference (by decide) (by decide) hmem

/-! ## The policy for upgrades -/

/--
**The upgrades are added where none are stated, and nothing else is done.** A document that is
no object, or that states its upgrades, is left as it is. Any other is changed at
`params.forks` only, where no validation finds fault afterwards, and of ordered documents it is
the only one of which this is true. Doing the same again, for whatever environment, does nothing.
The upgrades that are added are none outside development networks, and there those of the
catalogue that the list names, or all of them if it names nothing; so only the names of the list
that are not empty count.
-/
theorem ensureForks_exact (env : Environment) (supported : Option (List String))
    (doc : Document) :
    (doc.isObject = false ∨ doc.HasObject ["params", "forks"] →
        doc.ensureForks env supported = doc)
      ∧ (doc.isObject = true → ¬ doc.HasObject ["params", "forks"] →
        Installed env supported doc (doc.ensureForks env supported)
          ∧ (∀ fs policy,
            ∀ issue ∈ (Validation.chainConfig fs policy (doc.ensureForks env supported)).errors,
              ¬ issue.ShownBelow forksPath)
          ∧ (doc.Ordered → (doc.ensureForks env supported).Ordered
            ∧ ∀ other : Document, other.Ordered → Installed env supported doc other →
              other = doc.ensureForks env supported))
      ∧ (∀ env' supported', (doc.ensureForks env supported).ensureForks env' supported'
        = doc.ensureForks env supported)
      ∧ (∀ name value, (Forks.activations env supported).get? name = some value
        ↔ value = Forks.atGenesis ∧ env = .devnet ∧ name ∈ Forks.catalogue
          ∧ ((∀ listed ∈ supported.getD [], listed = "") ∨ name ∈ supported.getD []))
      ∧ (∀ others : Option (List String),
        (∀ name, name ≠ "" → (name ∈ supported.getD [] ↔ name ∈ others.getD [])) →
          doc.ensureForks env others = doc.ensureForks env supported) := by
  refine ⟨ensureForks_of_stated, fun hobject hnone => ?_,
    fun env' supported' => ensureForks_of_stated (stated_ensureForks env supported doc),
    fun name value => Forks.get?_activations_iff, fun others hsame => ?_⟩
  · have hinstalled := installed_ensureForks env supported hobject hnone
    refine ⟨hinstalled, fun fs policy issue hmem => ?_, fun hordered => ?_⟩
    · refine not_shownBelow_forks ?_ fs policy hmem
      rw [hinstalled.forks]
      exact Forks.errors_checkForks_activations forksPath env supported
    · have hresult := ordered_ensureForks env supported hordered
      exact ⟨hresult, fun other hother h => hinstalled.unique h hresult hother⟩
  · cases doc with
    | object root => rw [ensureForks, ensureForks, Forks.activations_congr hsame env]
    | null | bool _ | number _ | string _ | array _ => rfl

/-- A chain configuration whose parameters are no object. -/
def withoutParams : Document := .object [
  ("genesis", .string "genesis.json"), ("params", .string "none")]

/-- The parameters become an object with the one upgrade that is listed and is one. The list can
be in another order, and a second time nothing happens. -/
theorem ensureForks_exact_london :
    let installed := withoutParams.ensureForks .devnet (some ["", "london", "futureFork"])
    installed.get? "genesis" = some (.string "genesis.json")
      ∧ installed.at? ["params", "chainID"] = none
      ∧ installed.at? ["params", "forks"] = some (.object [("london", Forks.atGenesis)])
      ∧ withoutParams.ensureForks .devnet (some ["futureFork", "london", "futureFork"])
        = installed
      ∧ installed.ensureForks .mainnet none = installed := by
  have hnone : ¬ withoutParams.HasObject ["params", "forks"] := by
    rintro ⟨forks, hfound⟩
    exact absurd hfound (by simp [withoutParams, at?, get?, members?, Named.lookup?])
  obtain ⟨_, hadded, hagain, _, hsame⟩ :=
    ensureForks_exact .devnet (some ["", "london", "futureFork"]) withoutParams
  obtain ⟨hinstalled, _⟩ := hadded rfl hnone
  refine ⟨hinstalled.top "genesis" (by decide), hinstalled.others "chainID" (by decide), ?_,
    hsame _ fun name hname => ?_, hagain .mainnet none⟩
  · rw [hinstalled.forks]
    rfl
  · simp [hname]
    tauto

end Document

end ChainGenesis
