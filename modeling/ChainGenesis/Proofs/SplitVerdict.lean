import ChainGenesis.Build
import ChainGenesis.Proofs.Load
import ChainGenesis.Proofs.Validation.Located

/-!
# The verdict on a split document

The genesis of a chain configuration may stand inside it, in a file of its own, or, while a
build is under way, beside it. The three are judged alike: after the errors on the rest of the
document come those on the genesis, as many and in the same order. They differ in how an error
is located. Inside the document its path begins at the genesis; in a file it begins anew, and
the message names the file.
-/

namespace ChainGenesis

/-- An issue as it is shown: the text of its path, and its message. -/
def Issue.shown (words : Wording) (issue : Issue) : String × String :=
  (issue.pathText, issue.message words)

namespace Validation

/-! ## Errors on a genesis that is an object -/

/-- An issue that lies below a member of the document. -/
def InMember (issue : Issue) : Prop := ∃ name rest, issue.path = .field name :: rest

/-- Every error on a genesis that is an object is about one of its members. -/
theorem inMember_of_mem_rawGenesis {top : Members} {issue : Issue}
    (h : issue ∈ (rawGenesis (.object top)).errors) : InMember issue := by
  obtain ⟨name, _, rest, hpath⟩ := below_of_mem_rawGenesis h
  exact ⟨name, rest, hpath.symm⟩

/-- The text of a path below a member begins with the name of the member and a point. -/
theorem text_field_cons (outer name : String) (rest : DocPath) :
    DocPath.text (.field outer :: .field name :: rest)
      = outer ++ "." ++ DocPath.text (.field name :: rest) := by
  show outer ++ ("." ++ name ++ DocPath.stepsText rest)
    = outer ++ "." ++ (name ++ DocPath.stepsText rest)
  rw [String.append_assoc, String.append_assoc]

theorem shown_under (words : Wording) {issue : Issue} (h : InMember issue) :
    (issue.under (DocPath.root.field "genesis")).shown words
      = ("genesis." ++ issue.pathText, issue.message words) := by
  obtain ⟨path, problem⟩ := issue
  obtain ⟨name, rest, hpath⟩ := h
  dsimp only at hpath
  subst hpath
  exact congrArg (·, problem.message words) (text_field_cons "genesis" name rest)

/-- The errors on an embedded genesis are shown below the genesis. -/
theorem shown_checkGenesis (words : Wording) (top : Members) :
    (checkGenesis (DocPath.root.field "genesis") (.object top)).errors.map (Issue.shown words)
      = (rawGenesis (.object top)).errors.map fun issue =>
        ("genesis." ++ issue.pathText, issue.message words) := by
  rw [checkGenesis_eq_under, Findings.under, List.map_map]
  exact List.map_congr_left fun issue hmem => shown_under words (inMember_of_mem_rawGenesis hmem)

/-- The errors on a genesis in a file are shown with the name of the file. -/
theorem shown_inFile (words : Wording) (found : Findings) (file : String) :
    (inFile found file).errors.map (Issue.shown words)
      = found.errors.map fun issue =>
        (issue.pathText, issue.message words ++ " (in " ++ file ++ ")") := by
  rw [inFile, List.map_map]
  rfl

/-! ## The three forms -/

theorem isOk_congr {found other : Findings} (h : found.errors.length = other.errors.length) :
    found.isOk = other.isOk := by
  rw [Findings.isOk, Findings.isOk, Bool.eq_iff_iff, List.isEmpty_iff_length_eq_zero,
    List.isEmpty_iff_length_eq_zero, h]

/-- A configuration that refers to no file has no errors but those beside the genesis. -/
theorem errors_chainConfig_absent {fs : FileSystem} {path : String}
    (hblank : Text.isBlank path = false) (habsent : fs.isFile path = false) (policy : Policy)
    (top : Members) :
    (chainConfig fs policy (Build.withGenesis path (.object top))).errors
      = (besideGenesis policy top).errors := by
  rw [Build.withGenesis, Document.set, chainConfig_put, checkReference, hblank,
    checkGenesisFile, habsent]
  exact List.append_nil _

/-- A configuration that refers to a file with a genesis has the errors on that genesis. -/
theorem errors_chainConfig_loaded {fs : FileSystem} {path : String} {genesis : Document}
    (hblank : Text.isBlank path = false) (hload : fs.loadDocument path = .ok genesis)
    (policy : Policy) (top : Members) :
    (chainConfig fs policy (Build.withGenesis path (.object top))).errors
      = (besideGenesis policy top).errors ++ (inFile (rawGenesis genesis) path).errors := by
  rw [Build.withGenesis, Document.set, chainConfig_put, checkReference, hblank,
    checkGenesisFile, FileSystem.isFile_of_load hload, hload]
  rfl

/-- No form of the genesis adds a warning to those beside it. -/
theorem warnings_chainConfig (fs : FileSystem) (policy : Policy) (top : Members) :
    (chainConfig fs policy (.object top)).warnings = (besideGenesis policy top).warnings := by
  rw [chainConfig_eq, Findings.warnings_append, warnings_checkReference, List.append_nil]

/--
**Splitting a document does not change its verdict.** Take a chain configuration with a genesis
inside it, and the same configuration with the stand-in for a path, which leads to no file. The
errors on the whole are those on the second, and then those on the raw genesis below its
member. If instead a path leads to a file with that genesis, they are those on the second, and
then those on the raw genesis as they are, with the file in the message. Each time there are as
many errors as a build finds that validates the two parts apart, and the same warnings.
-/
theorem verdict_of_split (words : Wording) {fs : FileSystem} (policy : Policy)
    {doc genesis : Document} (hgenesis : doc.get? "genesis" = some genesis)
    (hobject : genesis.isObject = true) (habsent : fs.isFile Build.genesisStandIn = false) :
    (chainConfig fs policy doc).errors.map (Issue.shown words)
        = (chainConfig fs policy (Build.withGenesis Build.genesisStandIn doc)).errors.map
            (Issue.shown words)
          ++ (rawGenesis genesis).errors.map
            (fun issue => ("genesis." ++ issue.pathText, issue.message words))
      ∧ (chainConfig fs policy doc).warnings
        = (chainConfig fs policy (Build.withGenesis Build.genesisStandIn doc)).warnings
      ∧ (chainConfig fs policy doc).errors.length
        = (Build.findings fs policy doc genesis).errors.length
      ∧ (chainConfig fs policy doc).isOk = (Build.findings fs policy doc genesis).isOk
      ∧ ∀ path, Text.isBlank path = false → fs.loadDocument path = .ok genesis →
        (chainConfig fs policy (Build.withGenesis path doc)).errors.map (Issue.shown words)
            = (chainConfig fs policy (Build.withGenesis Build.genesisStandIn doc)).errors.map
                (Issue.shown words)
              ++ (rawGenesis genesis).errors.map
                (fun issue => (issue.pathText, issue.message words ++ " (in " ++ path ++ ")"))
          ∧ (chainConfig fs policy (Build.withGenesis path doc)).warnings
            = (chainConfig fs policy (Build.withGenesis Build.genesisStandIn doc)).warnings
          ∧ (chainConfig fs policy (Build.withGenesis path doc)).errors.length
            = (chainConfig fs policy doc).errors.length
          ∧ (chainConfig fs policy (Build.withGenesis path doc)).isOk
            = (chainConfig fs policy doc).isOk := by
  obtain ⟨top, rfl, hlookup⟩ := Document.get?_eq_some hgenesis
  obtain ⟨inner, hinner⟩ := Option.isSome_iff_exists.mp hobject
  have hinner := Document.members?_eq_some hinner
  subst hinner
  -- the errors of the three forms, each in two parts
  have hwhole : (chainConfig fs policy (.object top)).errors
      = (besideGenesis policy top).errors
        ++ (checkGenesis (DocPath.root.field "genesis") (.object inner)).errors := by
    rw [chainConfig_eq, hlookup]
    rfl
  have hapart := errors_chainConfig_absent (by decide) habsent policy top
  have hlength : (chainConfig fs policy (.object top)).errors.length
      = (besideGenesis policy top).errors.length + (rawGenesis (.object inner)).errors.length := by
    rw [hwhole, List.length_append, checkGenesis_eq_under, Findings.under, List.length_map]
  have hbuild : (chainConfig fs policy (.object top)).errors.length
      = (Build.findings fs policy (.object top) (.object inner)).errors.length := by
    rw [Build.findings, Findings.errors_append, List.length_append, hapart, hlength]
  have hwarnings : ∀ path, (chainConfig fs policy (Build.withGenesis path (.object top))).warnings
      = (besideGenesis policy top).warnings := by
    intro path
    rw [Build.withGenesis, Document.set, warnings_chainConfig, besideGenesis_put]
  refine ⟨?_, ?_, hbuild, isOk_congr hbuild, fun path hblank hload => ?_⟩
  · rw [hwhole, hapart, List.map_append, shown_checkGenesis]
  · rw [warnings_chainConfig, hwarnings]
  · have hloaded := errors_chainConfig_loaded hblank hload policy top
    have hsame : (chainConfig fs policy (Build.withGenesis path (.object top))).errors.length
        = (chainConfig fs policy (.object top)).errors.length := by
      rw [hloaded, List.length_append, inFile, List.length_map, hlength]
    refine ⟨?_, ?_, hsame, isOk_congr hsame⟩
    · rw [hloaded, hapart, List.map_append, shown_inFile]
    · rw [hwarnings, hwarnings]

/-! A configuration with one account that is none, and nothing else in its genesis. -/

def faultyGenesis : Document := .object [("alloc", .object [("0x1", .null)])]

def faultyChain : Document := .object [("genesis", faultyGenesis)]

def faultyFiles : FileSystem :=
  { nodes := [(["genesis.json"], .file (faultyGenesis.canonical .pretty).toUTF8)]
    workingDirectory := [] }

/-- The errors on it, as they are shown for the whole and for the file. -/
theorem verdict_of_split_faulty :
    (chainConfig faultyFiles ⟨true, false⟩ faultyChain).errors.map (Issue.shown .plain)
        = [("params", "object is required"), ("genesis.alloc.0x1", "key is not an address"),
          ("genesis.alloc.0x1", "must be an object"),
          ("genesis.gasLimit", "is required and must be a string"),
          ("genesis.difficulty", "is required and must be a string"),
          ("genesis.extraData", "is required and must be a string"),
          ("genesis.baseFeeEnabled", "is required and must be a boolean")]
      ∧ ((chainConfig faultyFiles ⟨true, false⟩
          (Build.withGenesis "genesis.json" faultyChain)).errors.map (Issue.shown .plain)).take 3
        = [("params", "object is required"),
          ("alloc.0x1", "key is not an address (in genesis.json)"),
          ("alloc.0x1", "must be an object (in genesis.json)")] := by
  have hload : faultyFiles.loadDocument "genesis.json" = .ok faultyGenesis :=
    FileSystem.loadDocument_canonical rfl (by decide) (by decide) (by decide)
  have hgenesis : faultyChain.get? "genesis" = some faultyGenesis := rfl
  have habsent : faultyFiles.isFile Build.genesisStandIn = false := by decide
  obtain ⟨hwhole, _, _, _, hsplit⟩ := verdict_of_split .plain ⟨true, false⟩ hgenesis rfl habsent
  rw [hwhole, (hsplit "genesis.json" (by decide) hload).1]
  exact ⟨by decide, by decide⟩

end Validation

end ChainGenesis
