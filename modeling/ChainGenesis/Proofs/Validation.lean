import ChainGenesis.Proofs.FileSystem
import ChainGenesis.Proofs.Paths
import ChainGenesis.Validation

/-!
# What the findings on a document depend on

A genesis is judged by what it says and not by where it stands: the findings on an embedded
genesis are those on the raw genesis, each with the path of the genesis before its own. The
policy and the rest of the document come into the findings on the parameters only where the
old layout names the engine, and of the files only the one that is referred to comes into
anything.
-/

namespace ChainGenesis

/-! ## Findings below a path -/

/-- The issue with a path put before its own. -/
def Issue.under (path : DocPath) (issue : Issue) : Issue := ⟨path ++ issue.path, issue.problem⟩

namespace Findings

/-- The findings with a path put before the path of every issue. -/
def under (path : DocPath) (found : Findings) : Findings :=
  ⟨found.errors.map (Issue.under path), found.warnings⟩

theorem under_append (path : DocPath) (a b : Findings) :
    (a ++ b).under path = a.under path ++ b.under path := by
  show Findings.mk ((a.errors ++ b.errors).map (Issue.under path)) _ = _
  rw [List.map_append]
  rfl

theorem under_concat (path : DocPath) (all : List Findings) :
    (concat all).under path = concat (all.map (under path)) := by
  induction all with
  | nil => rfl
  | cons found rest ih =>
      show (found ++ concat rest).under path = found.under path ++ concat (rest.map (under path))
      rw [under_append, ih]

theorem errors_concat (all : List Findings) : (concat all).errors = all.flatMap errors := by
  induction all with
  | nil => rfl
  | cons found rest ih => exact congrArg (found.errors ++ ·) ih

theorem warnings_concat (all : List Findings) :
    (concat all).warnings = all.flatMap warnings := by
  induction all with
  | nil => rfl
  | cons found rest ih => exact congrArg (found.warnings ++ ·) ih

end Findings

namespace DocPath

theorem field_append (path below : DocPath) (name : String) :
    (path ++ below).field name = path ++ below.field name := List.append_assoc path below _

end DocPath

namespace Validation

/-! ## A genesis and where it stands -/

theorem checkBalance_under (path below : DocPath) (balance : Option Document) :
    checkBalance (path ++ below) balance = (checkBalance below balance).under path := by
  unfold checkBalance
  rw [DocPath.field_append]
  split
  · split
    · rfl
    · rfl
  · rfl

theorem checkFunded_under (path below : DocPath) (key : String) (entry : Document) :
    checkFunded (path ++ below) key entry = (checkFunded below key entry).under path := by
  unfold checkFunded
  rw [Findings.under_append]
  congr 1
  · split
    · rfl
    · rfl
  · split
    · exact checkBalance_under path below _
    · rfl

theorem checkAlloc_under (path below : DocPath) (alloc : Option Document) :
    checkAlloc (path ++ below) alloc = (checkAlloc below alloc).under path := by
  unfold checkAlloc
  split
  · rw [Findings.under_concat, List.map_map]
    refine congrArg Findings.concat (List.map_congr_left fun entry _ => ?_)
    obtain ⟨key, entry⟩ := entry
    show checkFunded ((path ++ below).field key) key entry
      = (checkFunded (below.field key) key entry).under path
    rw [DocPath.field_append]
    exact checkFunded_under path (below.field key) key entry
  · rfl

theorem checkString_under (path below : DocPath) (value : Option Document) :
    checkString (path ++ below) value = (checkString below value).under path := by
  unfold checkString
  split
  · rfl
  · rfl

theorem checkBool_under (path below : DocPath) (value : Option Document) :
    checkBool (path ++ below) value = (checkBool below value).under path := by
  unfold checkBool
  split
  · rfl
  · rfl

/-- **The findings on a genesis at a path are those on the raw genesis, below the path.** -/
theorem checkGenesis_eq_under (path : DocPath) (doc : Document) :
    checkGenesis path doc = (rawGenesis doc).under path := by
  have hfield : ∀ name, path.field name = path ++ DocPath.root.field name := fun _ => rfl
  cases doc with
  | object top =>
      show checkAlloc (path.field "alloc") _ ++ .concat (List.map _ _) ++ checkBool _ _
        = Findings.under path (checkAlloc (DocPath.root.field "alloc") _ ++ .concat (List.map _ _)
          ++ checkBool (DocPath.root.field "baseFeeEnabled") _)
      rw [Findings.under_append, Findings.under_append, Findings.under_concat, List.map_map,
        hfield, hfield, checkAlloc_under, checkBool_under]
      congr 2
      refine congrArg Findings.concat (List.map_congr_left fun name _ => ?_)
      rw [hfield]
      exact checkString_under path (DocPath.root.field name) (Named.lookup? name top)
  | null | bool _ | number _ | string _ | array _ =>
      show Findings.error path .genesisNotObject = Findings.error (path ++ []) .genesisNotObject
      rw [List.append_nil]

/-! ## A genesis is never warned about -/

theorem warnings_checkBalance (path : DocPath) (balance : Option Document) :
    (checkBalance path balance).warnings = [] := by
  unfold checkBalance
  split
  · split
    · rfl
    · rfl
  · rfl

theorem warnings_checkFunded (path : DocPath) (key : String) (entry : Document) :
    (checkFunded path key entry).warnings = [] := by
  unfold checkFunded
  rw [Findings.warnings_append, List.append_eq_nil_iff]
  constructor
  · split
    · rfl
    · rfl
  · split
    · exact warnings_checkBalance path _
    · rfl

theorem warnings_checkAlloc (path : DocPath) (alloc : Option Document) :
    (checkAlloc path alloc).warnings = [] := by
  unfold checkAlloc
  split
  · rw [Findings.warnings_concat, List.flatMap_eq_nil_iff]
    intro found hmem
    obtain ⟨⟨key, entry⟩, _, rfl⟩ := List.mem_map.mp hmem
    exact warnings_checkFunded (path.field key) key entry
  · rfl

theorem warnings_checkString (path : DocPath) (value : Option Document) :
    (checkString path value).warnings = [] := by
  unfold checkString
  split
  · rfl
  · rfl

theorem warnings_checkBool (path : DocPath) (value : Option Document) :
    (checkBool path value).warnings = [] := by
  unfold checkBool
  split
  · rfl
  · rfl

theorem warnings_checkGenesis (path : DocPath) (doc : Document) :
    (checkGenesis path doc).warnings = [] := by
  unfold checkGenesis
  split
  · rename_i top
    have hstrings : (Findings.concat (["gasLimit", "difficulty", "extraData"].map fun name =>
        checkString (path.field name) (Named.lookup? name top))).warnings = [] := by
      rw [Findings.warnings_concat, List.flatMap_eq_nil_iff]
      intro found hmem
      obtain ⟨name, _, rfl⟩ := List.mem_map.mp hmem
      exact warnings_checkString (path.field name) _
    rw [Findings.warnings_append, Findings.warnings_append, warnings_checkAlloc, hstrings,
      warnings_checkBool]
    rfl
  · rfl

/-- Wherever the genesis of a chain stands, no warning comes of it. -/
theorem warnings_checkReference (fs : FileSystem) (path : DocPath) (genesis : Option Document) :
    (checkReference fs path genesis).warnings = [] := by
  unfold checkReference
  split
  · rfl
  · exact warnings_checkGenesis path _
  · split
    · rfl
    · unfold checkGenesisFile
      split
      · split
        · rename_i doc _
          exact warnings_checkGenesis .root doc
        · rfl
      · rfl
  · rfl

/-! ## What a genesis is judged by -/

/-- The names under which a genesis is looked into. -/
def genesisNames : List String :=
  ["alloc", "gasLimit", "difficulty", "extraData", "baseFeeEnabled"]

theorem rawGenesis_of_not_object {doc : Document} (h : doc.isObject = false) :
    rawGenesis doc = .error .root .genesisNotObject := by
  cases doc with
  | object top => exact absurd h Bool.noConfusion
  | null | bool _ | number _ | string _ | array _ => rfl

/-- A member of another name plays no part in a genesis. -/
theorem rawGenesis_congr {name : String} {doc other : Document}
    (h : Document.AlikeBut name doc other) (hname : name ∉ genesisNames) :
    rawGenesis doc = rawGenesis other := by
  have hobject := h.isObject
  cases hdoc : doc.isObject with
  | false =>
      rw [rawGenesis_of_not_object hdoc, rawGenesis_of_not_object (hobject.symm.trans hdoc)]
  | true =>
      obtain ⟨top, rfl⟩ := Document.isObject_iff.mp hdoc
      obtain ⟨top', rfl⟩ := Document.isObject_iff.mp (hobject.symm.trans hdoc)
      have hlookup : ∀ found ∈ genesisNames, Named.lookup? found top = Named.lookup? found top' :=
        fun found hmem => h.get? found fun heq => hname (heq ▸ hmem)
      simp only [genesisNames, List.forall_mem_cons] at hlookup
      obtain ⟨halloc, hgas, hdifficulty, hextra, hbase, _⟩ := hlookup
      simp only [rawGenesis, checkGenesis, List.map_cons, List.map_nil, halloc, hgas, hdifficulty,
        hextra, hbase]

/-! ## The parameters -/

/-- The policy and the old layout decide about the engine together or not at all. -/
theorem checkEngine_congr {policy policy' : Policy} {top top' : Members}
    (h : (policy.acceptLegacyConsensus && namesLegacyEngine top)
      = (policy'.acceptLegacyConsensus && namesLegacyEngine top')) (path : DocPath)
    (engine : Option Document) :
    checkEngine policy top path engine = checkEngine policy' top' path engine := by
  unfold checkEngine
  rw [h]

theorem checkParams_congr_accepted {policy policy' : Policy} {top top' : Members}
    (h : (policy.acceptLegacyConsensus && namesLegacyEngine top)
      = (policy'.acceptLegacyConsensus && namesLegacyEngine top')) (path : DocPath)
    (params : Option Document) :
    checkParams policy top path params = checkParams policy' top' path params := by
  unfold checkParams
  split
  · rw [checkEngine_congr h]
  · rfl

/-- Where the old layout does not name the engine, nothing but the parameters decides. -/
theorem checkParams_congr {policy policy' : Policy} {top top' : Members}
    (h : namesLegacyEngine top = false) (h' : namesLegacyEngine top' = false) (path : DocPath)
    (params : Option Document) :
    checkParams policy top path params = checkParams policy' top' path params :=
  checkParams_congr_accepted (by rw [h, h', Bool.and_false, Bool.and_false]) path params

theorem namesLegacyEngine_eq_false {top : Members} (h : Named.lookup? "consensus" top = none) :
    namesLegacyEngine top = false := by
  unfold namesLegacyEngine
  rw [h]
  rfl

/-! ## Chain configurations without keys of the old layout -/

theorem legacyKeysOf_eq_nil_iff {top : Members} :
    legacyKeysOf top = [] ↔ ∀ key ∈ legacyKeys, Named.lookup? key top = none := by
  rw [legacyKeysOf, List.filter_eq_nil_iff]
  exact forall₂_congr fun key _ => by
    rw [Named.has, Bool.not_eq_true, Option.isSome_eq_false_iff, Option.isNone_iff_eq_none]

theorem checkLegacyKeys_eq_none {policy : Policy} {top : Members}
    (h : ∀ key ∈ legacyKeys, Named.lookup? key top = none) :
    checkLegacyKeys policy top = .none := by
  rw [checkLegacyKeys, legacyKeysOf_eq_nil_iff.mpr h]

/-- Without a key of the old layout the findings are those on parameters and genesis. -/
theorem chainConfig_object {fs : FileSystem} {policy : Policy} {top : Members}
    (h : ∀ key ∈ legacyKeys, Named.lookup? key top = none) :
    (chainConfig fs policy (.object top)).errors
      = (checkParams policy top (DocPath.root.field "params") (Named.lookup? "params" top)).errors
        ++ (checkReference fs (DocPath.root.field "genesis")
          (Named.lookup? "genesis" top)).errors := by
  rw [chainConfig, checkLegacyKeys_eq_none h, Findings.errors_append, Findings.errors_append]
  rfl

/-! ## Chain configurations and their genesis -/

/-- The findings on a chain configuration, except those on its genesis. -/
def besideGenesis (policy : Policy) (top : Members) : Findings :=
  checkLegacyKeys policy top
    ++ checkParams policy top (DocPath.root.field "params") (Named.lookup? "params" top)

theorem chainConfig_eq (fs : FileSystem) (policy : Policy) (top : Members) :
    chainConfig fs policy (.object top)
      = besideGenesis policy top
        ++ checkReference fs (DocPath.root.field "genesis") (Named.lookup? "genesis" top) := rfl

/-- Another genesis changes nothing beside it. -/
theorem besideGenesis_put (policy : Policy) (top : Members) (genesis : Document) :
    besideGenesis policy (Named.put "genesis" genesis top) = besideGenesis policy top := by
  have hother : ∀ name, "genesis" ≠ name →
      Named.lookup? name (Named.put "genesis" genesis top) = Named.lookup? name top := by
    intro name hname
    rw [Named.lookup?_put, if_neg hname]
  have hkeys : legacyKeysOf (Named.put "genesis" genesis top) = legacyKeysOf top := by
    refine List.filter_congr fun key hmem => ?_
    have hname : "genesis" ≠ key := by
      rintro rfl
      exact absurd hmem (by decide)
    rw [Named.has, Named.has, hother key hname]
  have hengine : namesLegacyEngine (Named.put "genesis" genesis top) = namesLegacyEngine top := by
    unfold namesLegacyEngine
    rw [hother "consensus" (by decide)]
  have hparams : ∀ path params, checkParams policy (Named.put "genesis" genesis top) path params
      = checkParams policy top path params :=
    checkParams_congr_accepted (congrArg (policy.acceptLegacyConsensus && ·) hengine)
  unfold besideGenesis checkLegacyKeys
  rw [hkeys, hother "params" (by decide), hparams]

theorem chainConfig_put (fs : FileSystem) (policy : Policy) (top : Members)
    (genesis : Document) :
    chainConfig fs policy (.object (Named.put "genesis" genesis top))
      = besideGenesis policy top
        ++ checkReference fs (DocPath.root.field "genesis") (some genesis) := by
  rw [chainConfig_eq, besideGenesis_put, Named.lookup?_put, if_pos rfl]

/-- Without a key of the old layout no policy finds more beside the genesis than another. -/
theorem besideGenesis_congr {top : Members}
    (h : ∀ key ∈ legacyKeys, Named.lookup? key top = none) (policy policy' : Policy) :
    besideGenesis policy top = besideGenesis policy' top := by
  have hengine := namesLegacyEngine_eq_false (h "consensus" (by decide))
  unfold besideGenesis
  rw [checkLegacyKeys_eq_none h, checkLegacyKeys_eq_none h, checkParams_congr hengine hengine]

/-! ## What is looked at -/

theorem checkGenesisFile_congr {fs other : FileSystem} {file : String}
    (h : FileSystem.SameFile fs other file) (path : DocPath) :
    checkGenesisFile fs path file = checkGenesisFile other path file := by
  unfold checkGenesisFile
  rw [← h.isFile_eq]
  split
  · rename_i hthere
    rw [FileSystem.loadDocument, FileSystem.loadDocument, FileSystem.load_congr (h.read_eq hthere)]
  · rfl

/-- **Of all files a validation looks at no other than the one the genesis refers to.** -/
theorem chainConfig_congr {fs other : FileSystem} {doc : Document} (policy : Policy)
    (h : ∀ file, doc.get? "genesis" = some (.string file) → FileSystem.SameFile fs other file) :
    chainConfig fs policy doc = chainConfig other policy doc := by
  unfold chainConfig
  split
  · rename_i top
    congr 1
    unfold checkReference
    split
    · rfl
    · rfl
    · rename_i file hgenesis
      split
      · rfl
      · exact checkGenesisFile_congr (h file hgenesis) _
    · rfl
  · rfl

theorem errors_checkReference_mono {fs other : FileSystem} {path : DocPath}
    {genesis : Option Document}
    (h : ∀ file, genesis = some (.string file) →
      (checkGenesisFile fs path file).errors = [] → (checkGenesisFile other path file).errors = [])
    (hfs : (checkReference fs path genesis).errors = []) :
    (checkReference other path genesis).errors = [] := by
  unfold checkReference at *
  split at hfs
  · exact hfs
  · exact hfs
  · rename_i file
    split at hfs
    · rename_i hblank
      rwa [if_pos hblank]
    · rename_i hblank
      rw [if_neg hblank]
      exact h file rfl hfs
  · exact hfs

/-- Where a genesis is accepted whenever it is accepted elsewhere, so is a chain configuration
that refers to it. -/
theorem errors_chainConfig_mono {fs other : FileSystem} {policy : Policy} {doc : Document}
    (h : ∀ file path, doc.get? "genesis" = some (.string file) →
      (checkGenesisFile fs path file).errors = [] → (checkGenesisFile other path file).errors = [])
    (hfs : (chainConfig fs policy doc).errors = []) :
    (chainConfig other policy doc).errors = [] := by
  unfold chainConfig at *
  split at hfs
  · rw [Findings.errors_append, List.append_eq_nil_iff] at hfs ⊢
    exact ⟨hfs.1, errors_checkReference_mono (fun file hfile => h file _ hfile) hfs.2⟩
  · exact hfs

/-- The files decide about errors and never about warnings. -/
theorem warnings_chainConfig_congr (fs other : FileSystem) (policy : Policy) (doc : Document) :
    (chainConfig fs policy doc).warnings = (chainConfig other policy doc).warnings := by
  unfold chainConfig
  split
  · rename_i top
    show _ ++ (checkReference fs _ _).warnings = _ ++ (checkReference other _ _).warnings
    rw [warnings_checkReference, warnings_checkReference]
  · rfl

/-! ## Genesis by path -/

/-- A file is accepted if there is none, or if it is an accepted genesis. -/
theorem errors_checkGenesisFile_eq_nil_iff {fs : FileSystem} {path : DocPath} {file : String} :
    (checkGenesisFile fs path file).errors = []
      ↔ (fs.isFile file = true →
        ∃ genesis, fs.loadDocument file = .ok genesis ∧ (rawGenesis genesis).errors = []) := by
  unfold checkGenesisFile
  cases fs.isFile file with
  | false => exact ⟨fun _ h => absurd h Bool.noConfusion, fun _ => rfl⟩
  | true =>
      rw [if_pos rfl]
      cases fs.loadDocument file with
      | error error =>
          refine ⟨fun h => absurd h (by simp [Findings.error]), fun h => ?_⟩
          obtain ⟨_, hload, _⟩ := h rfl
          exact absurd hload (by simp)
      | ok genesis =>
          show (rawGenesis genesis).errors.map _ = [] ↔ _
          rw [List.map_eq_nil_iff]
          constructor
          · exact fun h _ => ⟨genesis, rfl, h⟩
          · intro h
            obtain ⟨_, hload, h⟩ := h rfl
            injection hload with hload
            exact hload ▸ h

end Validation

end ChainGenesis
