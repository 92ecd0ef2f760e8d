import ChainGenesis.Proofs.Validation.Chain
import ChainGenesis.Proofs.Validation.Located

/-!
# What a policy decides

The two flags of a policy decide about one finding each. Keys of the old layout are an error
under a strict policy and a warning under any other; either way they are found first. An engine
that only the old layout names is an error or, where the old layout is accepted, a warning. All
other findings are the same under every policy and in the same order, so what is accepted under
one flag is accepted under the milder one as well.
-/

namespace ChainGenesis

namespace Policy

/-- The policy with keys of the old layout refused or allowed. -/
def withStrict (policy : Policy) (strict : Bool) : Policy := { policy with strict }

/-- The policy with an engine of the old layout accepted or refused. -/
def withLegacyConsensus (policy : Policy) (acceptLegacyConsensus : Bool) : Policy :=
  { policy with acceptLegacyConsensus }

end Policy

namespace Validation

/-! ## The finding that each flag moves -/

/-- The keys of the old layout that a document has, in the order in which they are listed. -/
def legacyKeysIn (doc : Document) : List String :=
  legacyKeys.filter fun key => (doc.get? key).isSome

/-- The engine is an object that says nothing of the new layout, and the old layout names it. -/
structure LegacyEngine (doc : Document) : Prop where
  engine : doc.HasObject ["params", "engine"]
  noIbft : ¬ doc.HasObject ["params", "engine", "ibft"]
  named : ∃ kind, doc.at? ["consensus", "type"] = some (.string kind)
    ∧ Text.sameWord kind "ibft" = true

/-- Where an engine of the new layout is missed. -/
def ibftPath : DocPath := DocPath.root.field "params" |>.field "engine" |>.field "ibft"

/-- The same findings, but for the one on keys of the old layout, which comes first: an error of
the whole document on one side, a warning on the other. -/
structure KeysRefused (keys : List String) (strict lenient : Findings) : Prop where
  errors : strict.errors = ⟨.root, .legacyKeys keys⟩ :: lenient.errors
  warnings : lenient.warnings = .legacyKeys keys :: strict.warnings

/-- The same findings, but for the one on an engine of the old layout: an error on one side, the
only one that is shown there or below, and on the other side a warning. -/
structure EngineAccepted (refused accepted : Findings) : Prop where
  errors : ∃ before after, refused.errors = before ++ ⟨ibftPath, .notObject⟩ :: after
    ∧ accepted.errors = before ++ after
    ∧ ∀ issue ∈ before ++ after, ¬ issue.ShownBelow ibftPath
  warnings : accepted.warnings = refused.warnings ++ [.legacyConsensus]

theorem legacyKeysIn_eq_nil_iff {doc : Document} :
    legacyKeysIn doc = [] ↔ ∀ key ∈ legacyKeys, doc.get? key = none := by
  simp [legacyKeysIn]

/-! ## Strictness -/

/-- The rules behind the first do not know whether the policy is strict. -/
theorem chainConfig_strict (fs : FileSystem) (policy : Policy) (strict : Bool) (top : Members) :
    chainConfig fs (policy.withStrict strict) (.object top)
      = checkLegacyKeys (policy.withStrict strict) top
        ++ checkParams policy top (DocPath.root.field "params") (Named.lookup? "params" top)
        ++ checkReference fs (DocPath.root.field "genesis") (Named.lookup? "genesis" top) := by
  have hparams := @checkParams_congr_accepted (policy.withStrict strict) policy top top rfl
  rw [chainConfig, hparams]

theorem chainConfig_of_not_isObject {doc : Document} (h : doc.isObject = false)
    (fs : FileSystem) (policy : Policy) :
    chainConfig fs policy doc = .error .root .chainNotObject := by
  cases doc with
  | object top => exact absurd h Bool.noConfusion
  | null | bool _ | number _ | string _ | array _ => rfl

/-- Without keys of the old layout strictness finds nothing else. -/
theorem chainConfig_strict_of_migrated {doc : Document} (h : legacyKeysIn doc = [])
    (fs : FileSystem) (policy : Policy) :
    chainConfig fs (policy.withStrict true) doc
      = chainConfig fs (policy.withStrict false) doc := by
  cases hobject : doc.isObject with
  | false => rw [chainConfig_of_not_isObject hobject, chainConfig_of_not_isObject hobject]
  | true =>
      obtain ⟨top, rfl⟩ := Document.isObject_iff.mp hobject
      have hkeys := legacyKeysIn_eq_nil_iff.mp h
      rw [chainConfig_strict, chainConfig_strict, checkLegacyKeys_eq_none hkeys,
        checkLegacyKeys_eq_none hkeys]

/-- Keys of the old layout are the first error or the first warning. -/
theorem keysRefused {doc : Document} (h : legacyKeysIn doc ≠ []) (fs : FileSystem)
    (policy : Policy) :
    KeysRefused (legacyKeysIn doc) (chainConfig fs (policy.withStrict true) doc)
      (chainConfig fs (policy.withStrict false) doc) := by
  have hobject : doc.isObject = true := by
    obtain ⟨key, hmem⟩ := List.exists_mem_of_ne_nil _ h
    obtain ⟨value, hvalue⟩ := Option.isSome_iff_exists.mp (List.mem_filter.mp hmem).2
    obtain ⟨top, rfl, _⟩ := Document.get?_eq_some hvalue
    rfl
  obtain ⟨top, rfl⟩ := Document.isObject_iff.mp hobject
  have hkeys : legacyKeysOf top = legacyKeysIn (.object top) := rfl
  have hfound : ∀ strict, checkLegacyKeys (policy.withStrict strict) top
      = if strict then .error .root (.legacyKeys (legacyKeysIn (.object top)))
        else .warning (.legacyKeys (legacyKeysIn (.object top))) := by
    intro strict
    rw [checkLegacyKeys, hkeys]
    split
    · rename_i hnil
      exact absurd hnil h
    · rfl
  constructor
  · rw [chainConfig_strict, chainConfig_strict, hfound, hfound]
    rfl
  · rw [chainConfig_strict, chainConfig_strict, hfound, hfound]
    rfl

/-! ## The engine of the old layout -/

/-- Where an engine stands and what is missed in it, from the outside in. -/
theorem LegacyEngine.exists_engine {top : Members} (h : LegacyEngine (.object top)) :
    ∃ params engine, Named.lookup? "params" top = some (.object params)
      ∧ Named.lookup? "engine" params = some (.object engine)
      ∧ ∀ ibft, Named.lookup? "ibft" engine ≠ some (.object ibft) := by
  obtain ⟨engine, hengine⟩ := h.engine
  obtain ⟨params, hparams⟩ := @Document.HasObject.of_at? _ _ ["params"] "engine" hengine
  refine ⟨params, engine, ?_, ?_, fun ibft hibft => h.noIbft ⟨ibft, ?_⟩⟩
  · rw [← Document.get?_object, ← Document.at?_singleton, hparams]
  · rw [← Document.at?_of_object hparams]
    exact hengine
  · rw [← hibft, ← Document.at?_of_object hengine]
    rfl

theorem checkEngine_of_no_ibft {engine : Members}
    (h : ∀ ibft, Named.lookup? "ibft" engine ≠ some (.object ibft)) (policy : Policy)
    (top : Members) (path : DocPath) :
    checkEngine policy top path (some (.object engine))
      = if policy.acceptLegacyConsensus && namesLegacyEngine top then .warning .legacyConsensus
        else .error (path.field "ibft") .notObject := by
  unfold checkEngine
  dsimp only
  split
  · rename_i ibft hibft
    exact absurd hibft (h ibft)
  · rfl

/-- Accepting the old layout makes no difference where it does not come to the engine. -/
theorem checkParams_acceptance {top : Members} (h : ¬ LegacyEngine (.object top))
    (policy : Policy) (path : DocPath) :
    checkParams (policy.withLegacyConsensus true) top path (Named.lookup? "params" top)
      = checkParams (policy.withLegacyConsensus false) top path
        (Named.lookup? "params" top) := by
  unfold checkParams
  split
  · rename_i params hparams
    congr 1
    unfold checkEngine
    split
    · rename_i engine hengine
      split
      · rfl
      · rename_i hibft
        -- the engine is missed in the new layout, so it is the old one that does not name it
        have hat : (Document.object top).at? ["params"] = some (.object params) := by
          rw [Document.at?_singleton, Document.get?_object, hparams]
        have hat' : (Document.object top).at? ["params", "engine"] = some (.object engine) :=
          (Document.at?_of_object hat "engine").trans hengine
        have hnames : namesLegacyEngine top = false := by
          rw [← Bool.not_eq_true, namesLegacyEngine_iff]
          intro hnamed
          refine h ⟨⟨engine, hat'⟩, ?_, hnamed⟩
          rintro ⟨ibft, hfound⟩
          exact hibft ibft ((Document.at?_of_object hat' "ibft").symm.trans hfound)
        rw [hnames, Bool.and_false, Bool.and_false]
    · rfl
  · rfl

theorem chainConfig_acceptance {doc : Document} (h : ¬ LegacyEngine doc) (fs : FileSystem)
    (policy : Policy) :
    chainConfig fs (policy.withLegacyConsensus true) doc
      = chainConfig fs (policy.withLegacyConsensus false) doc := by
  cases hobject : doc.isObject with
  | false => rw [chainConfig_of_not_isObject hobject, chainConfig_of_not_isObject hobject]
  | true =>
      obtain ⟨top, rfl⟩ := Document.isObject_iff.mp hobject
      rw [chainConfig, chainConfig, checkParams_acceptance h]
      rfl

/-- An engine of the old layout is one error, or where it is accepted one warning. -/
theorem engineAccepted {doc : Document} (h : LegacyEngine doc) (fs : FileSystem)
    (policy : Policy) :
    EngineAccepted (chainConfig fs (policy.withLegacyConsensus false) doc)
      (chainConfig fs (policy.withLegacyConsensus true) doc) := by
  obtain ⟨kind, htype, hkind⟩ := h.named
  obtain ⟨_, hconsensus, _⟩ := Option.bind_eq_some_iff.mp htype
  obtain ⟨top, rfl, _⟩ := Document.get?_eq_some hconsensus
  obtain ⟨params, engine, hparams, hengine, hibft⟩ := h.exists_engine
  have hnames : namesLegacyEngine top = true := namesLegacyEngine_iff.mpr ⟨kind, htype, hkind⟩
  have hfound : ∀ accepts, chainConfig fs (policy.withLegacyConsensus accepts) (.object top)
      = checkLegacyKeys policy top
        ++ (besideEngine (DocPath.root.field "params") params
          ++ if accepts then .warning .legacyConsensus else .error ibftPath .notObject)
        ++ checkReference fs (DocPath.root.field "genesis") (Named.lookup? "genesis" top) := by
    intro accepts
    rw [chainConfig, hparams, checkParams_object, hengine, checkEngine_of_no_ibft hibft, hnames,
      Bool.and_true]
    rfl
  have hreference := warnings_checkReference fs (DocPath.root.field "genesis")
    (Named.lookup? "genesis" top)
  rw [hfound, hfound]
  constructor
  · refine ⟨(checkLegacyKeys policy top).errors
      ++ (besideEngine (DocPath.root.field "params") params).errors,
      (checkReference fs (DocPath.root.field "genesis") (Named.lookup? "genesis" top)).errors,
      ?_, ?_, fun issue hmem => ?_⟩
    · simp [Findings.error]
    · simp [Findings.warning]
    · rcases List.mem_append.mp hmem with hmem | hmem
      · rcases List.mem_append.mp hmem with hmem | hmem
        · exact Issue.not_shownBelow_of_root (path_of_mem_checkLegacyKeys hmem) (by decide)
        · -- beside the engine there are the chain's number and the upgrades
          rcases mem_besideEngine hmem with hbelow | hmem
          · exact (hbelow.shownBelow (by decide)).not_of_apart (by decide)
          · have hbelow := below_checkForks _ _ issue hmem
            exact (hbelow.shownBelow (by decide)).not_of_apart (by decide)
      · exact not_shownBelow_of_mem_checkReference (by decide) (by decide) hmem
  · simp [Findings.error, Findings.warning, hreference]

/-! ## Both flags -/

/-- What has no errors for one side has none for the milder one. -/
theorem KeysRefused.isOk {keys : List String} {strict lenient : Findings}
    (h : KeysRefused keys strict lenient) : strict.isOk = false := by
  rw [Findings.isOk, h.errors]
  rfl

theorem EngineAccepted.isOk {refused accepted : Findings} (h : EngineAccepted refused accepted) :
    refused.isOk = false := by
  obtain ⟨before, after, herrors, _⟩ := h.errors
  rw [Findings.isOk, herrors, List.isEmpty_eq_false_iff]
  simp

/--
**Each flag of a policy moves one finding.** Whether a policy is strict decides about nothing
unless there are keys of the old layout. Then the one message about them is the first error, of
the whole document, where it would be the first warning. Whether the old layout is accepted
decides about nothing unless the engine is an object without an engine of the new layout, and the
old layout names one. Then the one error in its place makes way for a warning. So what a strict
policy accepts is accepted by one that is not, and what is accepted without the old layout is
accepted with it.
-/
theorem findings_of_flags (words : Wording) (fs : FileSystem) (policy : Policy) (doc : Document) :
    (legacyKeysIn doc = [] →
        chainConfig fs (policy.withStrict true) doc
          = chainConfig fs (policy.withStrict false) doc)
      ∧ (legacyKeysIn doc ≠ [] →
        KeysRefused (legacyKeysIn doc) (chainConfig fs (policy.withStrict true) doc)
          (chainConfig fs (policy.withStrict false) doc))
      ∧ (∀ keys, Issue.shown words ⟨.root, .legacyKeys keys⟩
        = ("", (Warning.legacyKeys keys).message))
      ∧ (¬ LegacyEngine doc →
        chainConfig fs (policy.withLegacyConsensus true) doc
          = chainConfig fs (policy.withLegacyConsensus false) doc)
      ∧ (LegacyEngine doc →
        EngineAccepted (chainConfig fs (policy.withLegacyConsensus false) doc)
          (chainConfig fs (policy.withLegacyConsensus true) doc))
      ∧ ((chainConfig fs (policy.withStrict true) doc).isOk = true →
        (chainConfig fs (policy.withStrict false) doc).isOk = true)
      ∧ ((chainConfig fs (policy.withLegacyConsensus false) doc).isOk = true →
        (chainConfig fs (policy.withLegacyConsensus true) doc).isOk = true) := by
  refine ⟨fun h => chainConfig_strict_of_migrated h fs policy, fun h => keysRefused h fs policy,
    fun _ => rfl, fun h => chainConfig_acceptance h fs policy,
    fun h => engineAccepted h fs policy, fun hok => ?_, fun hok => ?_⟩
  · by_cases hkeys : legacyKeysIn doc = []
    · rwa [← chainConfig_strict_of_migrated hkeys]
    · exact absurd hok (by simp [(keysRefused hkeys fs policy).isOk])
  · by_cases hlegacy : LegacyEngine doc
    · exact absurd hok (by simp [(engineAccepted hlegacy fs policy).isOk])
    · rwa [chainConfig_acceptance hlegacy]

/-- A chain configuration of the old layout: the engine is named there, and is missed where it
should be. -/
def oldChain : Document := .object [
  ("consensus", .object [("type", .string "IBFT")]),
  ("genesis", .string "genesis.json"),
  ("params", .object [
    ("chainID", .number (.integer 7)),
    ("engine", .object []),
    ("forks", .object [])])]

def noFiles : FileSystem := { nodes := [], workingDirectory := [] }

theorem legacyEngine_oldChain : LegacyEngine oldChain where
  engine := ⟨[], rfl⟩
  noIbft := by
    rintro ⟨ibft, hfound⟩
    exact absurd hfound (by simp [oldChain, Document.at?, Document.get?, Document.members?,
      Named.lookup?])
  named := ⟨"IBFT", rfl, by decide⟩

/-- Under the harder values of both flags it has two errors, and under the milder ones none:
each has made way for a warning. -/
theorem findings_of_flags_old :
    (chainConfig noFiles ⟨true, false⟩ oldChain).errors.map (Issue.shown .plain)
        = [("", "legacy top-level key(s) present: consensus; migrate to params.engine.ibft"),
          ("params.engine.ibft", "must be an object")]
      ∧ (chainConfig noFiles ⟨false, true⟩ oldChain).isOk = true
      ∧ (chainConfig noFiles ⟨false, true⟩ oldChain).warnings.map Warning.message
        = ["legacy top-level key(s) present: consensus; migrate to params.engine.ibft",
          "params.minGasPrice is recommended",
          "legacy consensus schema accepted; migrate to params.engine.ibft"] := by
  have hkeys : legacyKeysIn oldChain = ["consensus"] := by decide
  obtain ⟨_, hrefused, _, _, haccepted, _⟩ :=
    findings_of_flags .plain noFiles ⟨false, false⟩ oldChain
  have hstrict : KeysRefused ["consensus"] (chainConfig noFiles ⟨true, false⟩ oldChain)
      (chainConfig noFiles ⟨false, false⟩ oldChain) :=
    hkeys ▸ hrefused (by rw [hkeys]; exact List.cons_ne_nil _ _)
  have hlegacy : EngineAccepted (chainConfig noFiles ⟨false, false⟩ oldChain)
      (chainConfig noFiles ⟨false, true⟩ oldChain) := haccepted legacyEngine_oldChain
  refine ⟨?_, by decide, ?_⟩
  · rw [hstrict.errors]
    decide
  · rw [hlegacy.warnings, hstrict.warnings]
    decide

end Validation

end ChainGenesis
