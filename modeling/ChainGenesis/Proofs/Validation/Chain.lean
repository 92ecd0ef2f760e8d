import ChainGenesis.Proofs.Validation.Genesis

/-!
# What a sound chain configuration is

A chain configuration has no errors exactly if it is sound, for every policy and whatever files
there are. The policy comes into it twice: a strict one allows no key of the old layout, and one
that accepts the old layout takes its engine where the new layout has none. An engine of the
new layout is judged by the new layout even then.
-/

namespace ChainGenesis.Validation

/-! ## Sound chain configurations -/

/-- The engine is of a type that is known. Where the engine is no object of the new layout, one
of the old layout will do if the policy accepts it. -/
inductive SoundEngine (policy : Policy) (doc : Document) (engine : Members) : Prop where
  | ibft {ibft : Members} {kind : String} :
      (Document.object engine).get? "ibft" = some (.object ibft) →
      (Document.object ibft).get? "type" = some (.string kind) → kind ∈ ["PoA", "PoS"] →
      SoundEngine policy doc engine
  | legacy {kind : String} : policy.acceptLegacyConsensus = true →
      (∀ ibft, (Document.object engine).get? "ibft" ≠ some (.object ibft)) →
      doc.at? ["consensus", "type"] = some (.string kind) → Text.sameWord kind "ibft" = true →
      SoundEngine policy doc engine

/-- The parameters of a chain: its number under one of two names, its upgrades and its
engine. -/
structure SoundParams (policy : Policy) (doc params : Document) : Prop where
  chainId : ∃ name ∈ ["chainID", "chainId"], ∃ number, params.get? name = some (.number number)
  forks : ∃ forks, params.get? "forks" = some (.object forks)
    ∧ ∀ fork ∈ forks, fork.2.isObject = true
  engine : ∃ engine, params.get? "engine" = some (.object engine)
    ∧ SoundEngine policy doc engine

/-- A genesis that is embedded, or that a path leads to. The file need not be there yet. -/
inductive SoundReference (fs : FileSystem) : Document → Prop where
  | embedded {members : Members} : SoundGenesis (.object members) →
      SoundReference fs (.object members)
  | absent {path : String} : Text.isBlank path = false → fs.isFile path = false →
      SoundReference fs (.string path)
  | loaded {path : String} {genesis : Document} : Text.isBlank path = false →
      fs.loadDocument path = .ok genesis → SoundGenesis genesis → SoundReference fs (.string path)

/-- A chain configuration with everything that one must have. -/
structure SoundChain (fs : FileSystem) (policy : Policy) (doc : Document) : Prop where
  object : doc.isObject = true
  /-- Under a strict policy nothing is left of the old layout. -/
  migrated : policy.strict = true → ∀ key ∈ legacyKeys, doc.get? key = none
  params : ∃ params, doc.get? "params" = some params ∧ SoundParams policy doc params
  genesis : ∃ genesis, doc.get? "genesis" = some genesis ∧ SoundReference fs genesis

/-! ## Keys of the old layout -/

theorem errors_checkLegacyKeys_eq_nil_iff {policy : Policy} {top : Members} :
    (checkLegacyKeys policy top).errors = []
      ↔ (policy.strict = true → ∀ key ∈ legacyKeys, Named.lookup? key top = none) := by
  rw [← legacyKeysOf_eq_nil_iff, checkLegacyKeys]
  cases legacyKeysOf top with
  | nil => simp [Findings.none]
  | cons key keys => cases policy.strict <;> simp [Findings.error, Findings.warning]

/-! ## The engine -/

theorem errors_checkEngineType_eq_nil_iff {path : DocPath} {kind : Option Document} :
    (checkEngineType path kind).errors = []
      ↔ ∃ name, kind = some (.string name) ∧ name ∈ ["PoA", "PoS"] := by
  unfold checkEngineType
  split
  · simp [Findings.error]
  · rename_i name
    have hname : (∃ found, some (Document.string name) = some (.string found)
        ∧ found ∈ ["PoA", "PoS"]) ↔ name ∈ ["PoA", "PoS"] := by simp
    rw [hname, List.mem_pair]
    split
    · rename_i hempty
      rw [String.isEmpty_iff] at hempty
      simp [hempty, Findings.error]
    · split
      · rename_i hkind
        exact iff_of_true rfl hkind
      · rename_i hkind
        exact iff_of_false (by simp [Findings.error]) hkind
  · rename_i hnot
    refine iff_of_false (by simp [Findings.error]) ?_
    rintro ⟨name, heq, _⟩
    injection heq with heq
    exact hnot name heq

theorem namesLegacyEngine_iff {top : Members} :
    namesLegacyEngine top = true
      ↔ ∃ kind, (Document.object top).at? ["consensus", "type"] = some (.string kind)
        ∧ Text.sameWord kind "ibft" = true := by
  have hat : (Named.lookup? "consensus" top).bind (fun consensus => consensus.get? "type")
      = (Document.object top).at? ["consensus", "type"] := by
    rw [Document.at?_cons]
    exact Option.bind_congr fun consensus _ => (Document.at?_singleton consensus "type").symm
  unfold namesLegacyEngine
  rw [hat]
  split
  · rename_i kind hkind
    rw [hkind]
    simp
  · rename_i hnot
    refine iff_of_false Bool.false_ne_true ?_
    rintro ⟨kind, heq, _⟩
    exact hnot kind heq

theorem errors_checkEngine_eq_nil_iff {policy : Policy} {top : Members} {path : DocPath}
    {value : Option Document} :
    (checkEngine policy top path value).errors = []
      ↔ ∃ engine, value = some (.object engine) ∧ SoundEngine policy (.object top) engine := by
  unfold checkEngine
  split
  · rename_i engine
    have hengine : (∃ found, some (Document.object engine) = some (.object found)
        ∧ SoundEngine policy (.object top) found) ↔ SoundEngine policy (.object top) engine := by
      simp
    rw [hengine]
    split
    · rename_i ibft hibft
      rw [errors_checkEngineType_eq_nil_iff]
      constructor
      · rintro ⟨kind, htype, hkind⟩
        exact .ibft hibft htype hkind
      · rintro (⟨hsame, htype, hkind⟩ | ⟨_, hnot, _, _⟩)
        · injection hibft.symm.trans hsame with hsame
          injection hsame with hsame
          exact ⟨_, hsame ▸ htype, hkind⟩
        · -- an engine of the new layout leaves the old one no say
          exact absurd hibft (hnot ibft)
    · rename_i hnot
      cases hlegacy : policy.acceptLegacyConsensus && namesLegacyEngine top with
      | true =>
          rw [Bool.and_eq_true, namesLegacyEngine_iff] at hlegacy
          obtain ⟨haccept, kind, htype, hkind⟩ := hlegacy
          exact iff_of_true rfl (.legacy haccept hnot htype hkind)
      | false =>
          refine iff_of_false (by simp [Findings.error]) ?_
          rintro (⟨hsame, _, _⟩ | ⟨haccept, _, htype, hkind⟩)
          · exact hnot _ hsame
          · have hnames := namesLegacyEngine_iff.mpr ⟨_, htype, hkind⟩
            rw [haccept, hnames] at hlegacy
            exact Bool.noConfusion hlegacy
  · rename_i hnot
    refine iff_of_false (by simp [Findings.error]) ?_
    rintro ⟨engine, heq, _⟩
    exact hnot engine heq

/-! ## The parameters -/

theorem hasNumber_iff {params : Members} {name : String} :
    hasNumber params name = true
      ↔ ∃ number, (Document.object params).get? name = some (.number number) := by
  have hnumber : ∀ value : Document, value.isNumber = true ↔ ∃ number, value = .number number := by
    intro value
    cases value <;> simp [Document.isNumber]
  rw [hasNumber, Option.any_eq_true]
  constructor
  · rintro ⟨value, hlookup, h⟩
    obtain ⟨number, rfl⟩ := (hnumber value).mp h
    exact ⟨number, hlookup⟩
  · rintro ⟨number, hlookup⟩
    exact ⟨_, hlookup, rfl⟩

theorem errors_checkForks_eq_nil_iff {path : DocPath} {value : Option Document} :
    (checkForks path value).errors = []
      ↔ ∃ forks, value = some (.object forks) ∧ ∀ fork ∈ forks, fork.2.isObject = true := by
  unfold checkForks
  split
  · rename_i forks
    have hfork : ∀ fork : String × Document,
        (if fork.2.isObject then Findings.none
          else .error (path.field fork.1) .forkNotObject).errors = []
        ↔ fork.2.isObject = true := by
      intro fork
      cases fork.2.isObject <;> simp [Findings.none, Findings.error]
    rw [Findings.errors_concat, List.flatMap_map, List.flatMap_eq_nil_iff]
    simp only [hfork]
    simp
  · rename_i hnot
    refine iff_of_false (by simp [Findings.error]) ?_
    rintro ⟨forks, heq, _⟩
    exact hnot forks heq

theorem errors_checkParams_eq_nil_iff {policy : Policy} {top : Members} {path : DocPath}
    {value : Option Document} :
    (checkParams policy top path value).errors = []
      ↔ ∃ params, value = some params ∧ SoundParams policy (.object top) params := by
  unfold checkParams
  split
  · rename_i params
    have hnumber : (if hasNumber params "chainID" || hasNumber params "chainId" then Findings.none
          else .error (path.field "chainID") .chainIdNotNumeric).errors = []
        ↔ ∃ name ∈ ["chainID", "chainId"], ∃ number,
          (Document.object params).get? name = some (.number number) := by
      simp only [List.mem_pair, exists_eq_or_imp, exists_eq_left, ← hasNumber_iff,
        ← Bool.or_eq_true]
      cases hasNumber params "chainID" || hasNumber params "chainId" <;>
        simp [Findings.none, Findings.error]
    have hadvice : (if Named.has params "minGasPrice" then Findings.none
        else .warning .noMinGasPrice).errors = [] := by
      cases Named.has params "minGasPrice" <;> rfl
    rw [Findings.errors_append, Findings.errors_append, Findings.errors_append, hadvice,
      List.append_nil, List.append_eq_nil_iff, List.append_eq_nil_iff, hnumber,
      errors_checkForks_eq_nil_iff, errors_checkEngine_eq_nil_iff]
    constructor
    · rintro ⟨⟨chainId, forks⟩, engine⟩
      exact ⟨_, rfl, chainId, forks, engine⟩
    · rintro ⟨_, heq, chainId, forks, engine⟩
      injection heq with heq
      subst heq
      exact ⟨⟨chainId, forks⟩, engine⟩
  · rename_i hnot
    refine iff_of_false (by simp [Findings.error]) ?_
    rintro ⟨params, heq, hsound⟩
    obtain ⟨_, hget, _⟩ := hsound.forks
    obtain ⟨members, rfl, _⟩ := Document.get?_eq_some hget
    exact hnot members heq

/-- Without the old layout an engine says its type in the new one. -/
theorem SoundParams.engineType {policy : Policy} {doc params : Document}
    (h : SoundParams policy doc params) (hlegacy : doc.get? "consensus" = none) :
    ∃ kind, params.at? ["engine", "ibft", "type"] = some (.string kind) := by
  obtain ⟨engine, hengine, hsound⟩ := h.engine
  cases hsound with
  | @ibft _ kind hibft htype _ =>
      refine ⟨kind, ?_⟩
      rw [Document.at?_cons, hengine, Option.bind_some, Document.at?_cons, hibft,
        Option.bind_some, Document.at?_singleton, htype]
  | legacy _ _ htype _ =>
      rw [Document.at?_cons, hlegacy] at htype
      exact absurd htype (by simp)

/-! ## The genesis -/

theorem errors_checkGenesis_eq_nil_iff {path : DocPath} {doc : Document} :
    (checkGenesis path doc).errors = [] ↔ SoundGenesis doc := by
  rw [checkGenesis_eq_under, Findings.under, List.map_eq_nil_iff, errors_rawGenesis_eq_nil_iff]

theorem errors_checkReference_eq_nil_iff {fs : FileSystem} {path : DocPath}
    {value : Option Document} :
    (checkReference fs path value).errors = []
      ↔ ∃ genesis, value = some genesis ∧ SoundReference fs genesis := by
  cases value with
  | none => simp [checkReference, Findings.error]
  | some value =>
      have hvalue : (∃ genesis, some value = some genesis ∧ SoundReference fs genesis)
          ↔ SoundReference fs value := by simp
      rw [hvalue]
      cases value with
      | object members =>
          rw [checkReference, errors_checkGenesis_eq_nil_iff]
          constructor
          · exact .embedded
          · intro h
            cases h with
            | embedded h => exact h
      | string file =>
          rw [checkReference]
          split
          · rename_i hblank
            refine iff_of_false (by simp [Findings.error]) ?_
            rintro (_ | ⟨hfile, _⟩ | ⟨hfile, _, _⟩)
            · exact absurd (hblank.symm.trans hfile) (by simp)
            · exact absurd (hblank.symm.trans hfile) (by simp)
          · rename_i hblank
            rw [Bool.not_eq_true] at hblank
            rw [errors_checkGenesisFile_eq_nil_iff]
            simp only [errors_rawGenesis_eq_nil_iff]
            constructor
            · intro h
              cases hfile : fs.isFile file with
              | false => exact .absent hblank hfile
              | true =>
                  obtain ⟨genesis, hload, hsound⟩ := h hfile
                  exact .loaded hblank hload hsound
            · rintro (_ | ⟨_, habsent⟩ | ⟨_, hload, hsound⟩) hfile
              · exact absurd (hfile.symm.trans habsent) (by simp)
              · exact ⟨_, hload, hsound⟩
      | null | bool _ | number _ | array _ =>
          refine iff_of_false (by simp [checkReference, Findings.error]) ?_
          rintro ⟨⟩

/-! ## The whole configuration -/

/--
**A chain configuration has no errors exactly if it is sound,** whatever the policy and the
files. A key of the old layout is allowed only where the policy is not strict. An engine of the
old layout is taken only where the policy accepts it and the new layout has no engine object,
and a genesis by path is taken on trust only where there is no file.
-/
theorem chainConfig_accepts_iff (fs : FileSystem) (policy : Policy) (doc : Document) :
    (chainConfig fs policy doc).errors = [] ↔ SoundChain fs policy doc := by
  cases hobject : doc.isObject with
  | false =>
      refine iff_of_false ?_ fun h => absurd (hobject.symm.trans h.object) (by simp)
      cases doc with
      | object top => exact absurd hobject Bool.noConfusion
      | null | bool _ | number _ | string _ | array _ => simp [chainConfig, Findings.error]
  | true =>
      obtain ⟨top, rfl⟩ := Document.isObject_iff.mp hobject
      rw [chainConfig, Findings.errors_append, Findings.errors_append, List.append_eq_nil_iff,
        List.append_eq_nil_iff, errors_checkLegacyKeys_eq_nil_iff, errors_checkParams_eq_nil_iff,
        errors_checkReference_eq_nil_iff]
      constructor
      · rintro ⟨⟨migrated, params⟩, genesis⟩
        exact ⟨rfl, migrated, params, genesis⟩
      · intro h
        exact ⟨⟨h.migrated, h.params⟩, h.genesis⟩

end ChainGenesis.Validation
