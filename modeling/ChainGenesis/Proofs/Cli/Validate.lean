import ChainGenesis.Cli.Run
import ChainGenesis.Proofs.Json.Indented
import ChainGenesis.Proofs.Load

/-!
# A validation says the same in lines and in JSON

What a validation finds is shown in lines for a reader or as one JSON document for a program. Either
way the command ends with one code and one error line, and the document, once it is read, lists what
the lines say: the same warnings and the same errors, in the same order.
-/

namespace ChainGenesis

namespace Cli

/-! ## Command lines -/

/-- A command line for a validation. Behind the lone pair of dashes any text is a file. -/
def ValidateRequest.arguments (request : ValidateRequest) : List String :=
  "genesis" :: "validate" :: ((if request.policy.strict then ["--strict"] else [])
    ++ (if request.policy.acceptLegacyConsensus then ["--accept-legacy-consensus"] else [])
    ++ (if request.json then ["--json"] else [])
    ++ ["--", request.file])

theorem parse_validate (vars : Variables) (arguments : List String) :
    Command.parse vars ("genesis" :: "validate" :: arguments)
      = (ValidateRequest.form.read vars arguments).map Command.validate := by
  have hwords : Command.parse vars ("genesis" :: "validate" :: arguments)
      = ValidateRequest.form.read vars arguments >>= fun request => pure (.validate request) := rfl
  rw [hwords]
  cases ValidateRequest.form.read vars arguments <;> rfl

/-- A validation takes nothing from the environment, so it is read once a file is given. -/
theorem read_validate {vars : Variables} {arguments : List String}
    {progress : Progress ValidateRequest}
    (h : ValidateRequest.form.readArguments ⟨ValidateRequest.form.start, [], false⟩ arguments
      = .ok progress) (hfile : progress.wordGiven = true) :
    ValidateRequest.form.read vars arguments = .ok progress.settings := by
  have hvars : Form.readVariables vars progress ValidateRequest.form.parameters = .ok progress :=
    rfl
  rw [Form.read, h, ok_bind, hvars, ok_bind, hfile]
  rfl

/-- **Every file but the empty text can be validated by a command line, with any switches.** -/
theorem parse_arguments (vars : Variables) {request : ValidateRequest} (h : request.file ≠ "") :
    Command.parse vars request.arguments = .ok (.validate request) := by
  obtain ⟨file, ⟨strict, acceptLegacyConsensus⟩, json⟩ := request
  have hpath : Value.path? file = some file := if_neg (by rwa [String.isEmpty_iff])
  -- the switches come first, and then the file is the only word
  obtain ⟨given, hswitches⟩ : ∃ given, ValidateRequest.form.readArguments
      ⟨ValidateRequest.form.start, [], false⟩
      ((if strict then ["--strict"] else [])
        ++ (if acceptLegacyConsensus then ["--accept-legacy-consensus"] else [])
        ++ (if json then ["--json"] else []) ++ ["--", file])
      = ValidateRequest.form.giveWords
          ⟨⟨"", ⟨strict, acceptLegacyConsensus⟩, json⟩, given, false⟩ [file] := by
    cases strict <;> cases acceptLegacyConsensus <;> cases json <;> exact ⟨_, rfl⟩
  have hword : ValidateRequest.form.giveWords
      ⟨⟨"", ⟨strict, acceptLegacyConsensus⟩, json⟩, given, false⟩ [file]
      = .ok ⟨⟨file, ⟨strict, acceptLegacyConsensus⟩, json⟩, given, true⟩ := by
    simp only [Form.giveWords, Form.giveWord, ValidateRequest.form, hpath]
    rfl
  rw [ValidateRequest.arguments, parse_validate, read_validate (hswitches.trans hword) rfl]
  rfl

/-! ## What is printed -/

/-- The line that says what an error in JSON says by its path and its message. -/
def lineOf (path message : String) : String :=
  if path = "" then "- " ++ message else "- " ++ path ++ ": " ++ message

/-- The findings as a program reads them. -/
def readFindings (ok : Bool) (errors : List (String × String)) (warnings : List String) :
    Document :=
  .object [
    ("errors", .array (errors.map fun (path, message) =>
      .object [("message", .string message), ("path", .string path)])),
    ("ok", .bool ok),
    ("warnings", .array (warnings.map Document.string))]

/-- The path and the message of an issue, as they are shown. -/
def shownIssue (words : Wording) (issue : Issue) : String × String :=
  (issue.pathText, issue.message words)

theorem issueLine_eq (words : Wording) (issue : Issue) :
    issueLine words issue = lineOf issue.pathText (issue.message words) := by
  rw [issueLine, Issue.display, lineOf]
  by_cases h : issue.pathText = ""
  · rw [if_pos h, if_pos (by rw [h]; rfl)]
  · rw [if_neg h, if_neg (by rwa [String.isEmpty_iff]), ← String.append_assoc,
      ← String.append_assoc]

theorem findingsDocument_eq (words : Wording) (findings : Findings) :
    findingsDocument words findings
      = readFindings findings.isOk (findings.errors.map (shownIssue words))
        (findings.warnings.map Warning.message) := by
  rw [readFindings, List.map_map]
  rfl

/-- A printed document of findings is read as those findings. -/
theorem parse_printed_readFindings (ok : Bool) (errors : List (String × String))
    (warnings : List String) :
    Document.parse (printed (readFindings ok errors warnings))
      = .ok (readFindings ok errors warnings) := by
  -- two levels of nesting below the document: a list, and an error in it
  have herror : ∀ item ∈ errors.map (fun (path, message) => Document.object
      [("message", .string message), ("path", .string path)]),
      item.Exact ∧ item.Ordered ∧ item.nesting ≤ 1 := by
    intro item hmem
    obtain ⟨⟨path, message⟩, _, rfl⟩ := List.mem_map.mp hmem
    refine ⟨⟨trivial, trivial, trivial⟩, ⟨?_, trivial, trivial, trivial⟩, Nat.le_refl _⟩
    exact Named.ordered_ofList [("message", Document.string message), ("path", .string path)]
  have hwarning : ∀ item ∈ warnings.map Document.string,
      item.Exact ∧ item.Ordered ∧ item.nesting ≤ 1 := by
    intro item hmem
    obtain ⟨warning, _, rfl⟩ := List.mem_map.mp hmem
    exact ⟨trivial, trivial, Nat.zero_le _⟩
  have hlist : ∀ {items : List Document}, (∀ item ∈ items,
      item.Exact ∧ item.Ordered ∧ item.nesting ≤ 1) →
      (Document.array items).Exact ∧ (Document.array items).Ordered
        ∧ (Document.array items).nesting ≤ 2 := by
    intro items hitems
    exact ⟨Document.exactItems_iff.mpr fun item hmem => (hitems item hmem).1,
      Document.orderedItems_iff.mpr fun item hmem => (hitems item hmem).2.1,
      Nat.succ_le_succ
        (Document.nestingOfItems_le_iff.mpr fun item hmem => (hitems item hmem).2.2)⟩
  obtain ⟨hexact, hordered, hnesting⟩ := hlist herror
  obtain ⟨hexact', hordered', hnesting'⟩ := hlist hwarning
  have hprinted : printed (readFindings ok errors warnings)
      = (readFindings ok errors warnings).indented ++ "\n" := by
    rw [printed, lines, List.map_singleton, String.join_cons, String.join_nil, String.append_empty]
  rw [hprinted]
  refine Document.parse_indented ⟨hexact, trivial, hexact', trivial⟩
    ⟨?_, hordered, trivial, hordered', trivial⟩ ?_
  · exact Named.ordered_ofList [("errors", _), ("ok", Document.bool ok), ("warnings", _)]
  · refine Nat.le_trans (Nat.succ_le_succ ?_) (by decide : 3 ≤ Document.maxDepth)
    exact Nat.max_le.mpr ⟨hnesting, Nat.max_le.mpr ⟨Nat.zero_le _,
      Nat.max_le.mpr ⟨hnesting', Nat.zero_le _⟩⟩⟩

/-! ## The outcome -/

/-- The line in which a command that fails says why, after all that it lists. -/
def Outcome.errorLine? (outcome : Outcome) : Option String :=
  if outcome.code = 0 then none else outcome.complaints.getLast?

/-- The line in which a validation that finds errors says how many. -/
def countLine (errors : Nat) : String :=
  "Error: validation failed with " ++ Nat.repr errors ++ " error(s)"

theorem countLine_eq (words : Wording) (errors : Nat) :
    "Error: " ++ (Failure.invalid errors).message words = countLine errors := by
  show "Error: " ++ ("validation failed with " ++ (Nat.repr errors ++ " error(s)")) = _
  rw [← String.append_assoc, ← String.append_assoc]
  rfl

section

variable {words : Wording} {files : FileSystem} {policy : Policy} {file : String}

theorem runValidate_of_error {error : FileError}
    (h : Validation.file files policy file = .error error) (json : Bool) :
    runValidate words files ⟨file, policy, json⟩
      = ⟨1, "", ["Error: " ++ error.message words], files⟩ := by
  rw [runValidate, h]
  rfl

/-- What a validation comes to depends on the findings alone, but for how they are shown. -/
theorem runValidate_of_ok {findings : Findings}
    (h : Validation.file files policy file = .ok findings) (json : Bool) :
    runValidate words files ⟨file, policy, json⟩
      = { code := if findings.errors = [] then 0 else 1
          output := (findingsShown words ⟨file, policy, json⟩ findings).1
          complaints := (findingsShown words ⟨file, policy, json⟩ findings).2
            ++ if findings.errors = [] then [] else [countLine findings.errors.length]
          files } := by
  rw [runValidate, h]
  dsimp only
  by_cases hok : findings.errors = []
  · have hisOk : findings.isOk = true := by rwa [Findings.isOk, List.isEmpty_iff]
    simp only [hisOk, hok, if_true, Outcome.after, Outcome.succeed, String.append_empty]
  · have hisOk : findings.isOk = false := by rwa [Findings.isOk, List.isEmpty_eq_false_iff]
    simp only [hisOk, hok, Bool.false_eq_true, if_false, Outcome.after, Outcome.fail,
      String.append_empty, countLine_eq]
    rfl

theorem code_of_ok {findings : Findings}
    (h : Validation.file files policy file = .ok findings) (json : Bool) :
    (runValidate words files ⟨file, policy, json⟩).code
      = if findings.errors = [] then 0 else 1 := by
  rw [runValidate_of_ok h]

theorem errorLine?_of_ok {findings : Findings}
    (h : Validation.file files policy file = .ok findings) (json : Bool) :
    (runValidate words files ⟨file, policy, json⟩).errorLine?
      = if findings.errors = [] then none else some (countLine findings.errors.length) := by
  rw [runValidate_of_ok h, Outcome.errorLine?]
  by_cases hok : findings.errors = []
  · simp only [hok, if_true]
  · simp only [hok, if_false, List.getLast?_concat]
    rfl

end

/-- What two runs of a validation have in common, of which one shows its findings in lines and the
other in JSON. -/
structure SaidAlike (words : Wording) (files : FileSystem) (policy : Policy) (file : String)
    (text json : Outcome) : Prop where
  /-- They end with one code. -/
  code : json.code = text.code
  /-- They have one error line, or none. -/
  errorLine : json.errorLine? = text.errorLine?
  /-- The code is zero exactly if the file is loaded and nothing is wrong with it. -/
  accepted : text.code = 0
    ↔ ∃ findings, Validation.file files policy file = .ok findings ∧ findings.errors = []
  /-- Otherwise it is one. -/
  refused : text.code ≠ 0 → text.code = 1
  /-- If the file is not loaded the error line says why. -/
  unloaded : ∀ error, Validation.file files policy file = .error error →
    text.errorLine? = some ("Error: " ++ error.message words)
  /-- If the file is loaded, the document that is printed says whether the code is zero. -/
  document : ∀ findings, Validation.file files policy file = .ok findings →
    Document.parse json.output = .ok (readFindings (text.code = 0)
      (findings.errors.map (shownIssue words)) (findings.warnings.map Warning.message))
  /-- The lines are those for the warnings and the errors of that document, in their order, and
  then the error line. -/
  lines : ∀ findings, Validation.file files policy file = .ok findings →
    text.complaints = (findings.warnings.map Warning.message).map ("warning: " ++ ·)
      ++ (findings.errors.map (shownIssue words)).map (fun (path, message) => lineOf path message)
      ++ text.errorLine?.toList
  /-- The error line counts the errors of the document. -/
  count : ∀ findings, Validation.file files policy file = .ok findings → text.code ≠ 0 →
    text.errorLine? = some (countLine (findings.errors.map (shownIssue words)).length)

section

variable {words : Wording} {files : FileSystem} {policy : Policy} {file : String}

/-- A file that is not loaded is refused in the same way in both. -/
theorem saidAlike_of_error {error : FileError}
    (hfile : Validation.file files policy file = .error error) :
    SaidAlike words files policy file (runValidate words files ⟨file, policy, false⟩)
      (runValidate words files ⟨file, policy, true⟩) := by
  have hfails : ∀ {findings}, Validation.file files policy file ≠ .ok findings := by
    rw [hfile]
    exact fun h => by cases h
  rw [runValidate_of_error hfile, runValidate_of_error hfile]
  constructor
  case code => rfl
  case errorLine => rfl
  case accepted =>
    exact ⟨fun h => absurd h Nat.one_ne_zero, fun ⟨_, h, _⟩ => absurd h hfails⟩
  case refused => exact fun _ => rfl
  case unloaded =>
    intro other h
    injection hfile.symm.trans h with h
    rw [h]
    rfl
  case document => exact fun _ h => absurd h hfails
  case lines => exact fun _ h => absurd h hfails
  case count => exact fun _ h => absurd h hfails

theorem saidAlike_of_ok {findings : Findings}
    (hfile : Validation.file files policy file = .ok findings) :
    SaidAlike words files policy file (runValidate words files ⟨file, policy, false⟩)
      (runValidate words files ⟨file, policy, true⟩) := by
  have hsame : ∀ {other}, Validation.file files policy file = .ok other → other = findings :=
    fun h => Except.ok.inj (h.symm.trans hfile)
  have hcode : (runValidate words files ⟨file, policy, false⟩).code = 0 ↔ findings.errors = [] := by
    rw [code_of_ok hfile]
    by_cases hok : findings.errors = [] <;> simp [hok]
  constructor
  case code => rw [code_of_ok hfile, code_of_ok hfile]
  case errorLine => rw [errorLine?_of_ok hfile, errorLine?_of_ok hfile]
  case accepted =>
    exact hcode.trans ⟨fun hok => ⟨findings, hfile, hok⟩, fun ⟨_, h, hok⟩ => hsame h ▸ hok⟩
  case refused =>
    intro hne
    rw [code_of_ok hfile, if_neg (mt hcode.mpr hne)]
  case unloaded => exact fun _ h => by cases hfile.symm.trans h
  case document =>
    intro other h
    have hok : findings.isOk
        = decide ((runValidate words files ⟨file, policy, false⟩).code = 0) := by
      rw [Findings.isOk, Bool.eq_iff_iff, List.isEmpty_iff, decide_eq_true_eq, hcode]
    rw [hsame h, ← hok, runValidate_of_ok hfile]
    show Document.parse (printed (findingsDocument words findings)) = _
    rw [findingsDocument_eq, parse_printed_readFindings]
  case lines =>
    intro other h
    rw [hsame h, errorLine?_of_ok hfile, runValidate_of_ok hfile]
    have hissues : findings.errors.map (issueLine words)
        = (findings.errors.map (shownIssue words)).map fun (path, message) =>
          lineOf path message := by
      rw [List.map_map]
      exact List.map_congr_left fun issue _ => issueLine_eq words issue
    have hwarnings : findings.warnings.map warningLine
        = (findings.warnings.map Warning.message).map ("warning: " ++ ·) := by
      rw [List.map_map]
      rfl
    show findings.warnings.map warningLine ++ findings.errors.map (issueLine words) ++ _ = _
    rw [hissues, hwarnings]
    by_cases hok : findings.errors = [] <;> simp only [hok, if_true, if_false] <;> rfl
  case count =>
    intro other h hne
    rw [hsame h, errorLine?_of_ok hfile, if_neg (mt hcode.mpr hne), List.length_map]

end

/--
**A validation says the same in lines and in JSON.** For every file and every policy the two runs
end with one code and one error line, zero exactly if the file is loaded and has no errors; and what
the document says, as it is read, the lines say one by one. These are the runs of the command lines
that name the file, which may be any text but the empty one, with and without the switch for JSON.
-/
theorem validations_agree (words : Wording) (files : FileSystem) (vars : Variables)
    (piped : ByteArray) (file : String) (policy : Policy) :
    let validation (json : Bool) := (Command.validate ⟨file, policy, json⟩).run words files piped
    SaidAlike words files policy file (validation false) (validation true)
    ∧ (file ≠ "" → ∀ json,
      run words files vars piped (ValidateRequest.arguments ⟨file, policy, json⟩)
        = validation json) := by
  intro validation
  refine ⟨?_, fun hne json => by rw [run, parse_arguments vars hne]⟩
  show SaidAlike words files policy file (runValidate words files ⟨file, policy, false⟩)
    (runValidate words files ⟨file, policy, true⟩)
  cases hfile : Validation.file files policy file with
  | error error => exact saidAlike_of_error hfile
  | ok findings => exact saidAlike_of_ok hfile

/-- A chain configuration with a key of the old layout and little else. -/
def unfinishedChain : Document := .object [
  ("consensus", .null),
  ("params", .object [("chainID", .number (.integer 1))])]

/-- A file whose name begins like an option. -/
def unfinishedFiles : FileSystem where
  nodes := [(["-chain"], .file (unfinishedChain.canonical .compact).toUTF8)]
  workingDirectory := []

/-- Four errors, of which the first is about the whole document, and a warning. -/
theorem validations_agree_unfinished :
    let text :=
      run .plain unfinishedFiles [] .empty ["genesis", "validate", "--strict", "--", "-chain"]
    let json := run .plain unfinishedFiles [] .empty
      ["genesis", "validate", "--strict", "--json", "--", "-chain"]
    let legacy := "legacy top-level key(s) present: consensus; migrate to params.engine.ibft"
    "-chain" ≠ "" ∧ text.code = 1 ∧ json.code = 1
      ∧ json.errorLine? = some "Error: validation failed with 4 error(s)"
      ∧ text.complaints = [
        "warning: params.minGasPrice is recommended",
        "- " ++ legacy,
        "- params.forks: must be a non-null object",
        "- params.engine: must be an object",
        "- genesis: is required",
        "Error: validation failed with 4 error(s)"]
      ∧ Document.parse json.output = .ok (readFindings false
        [("", legacy), ("params.forks", "must be a non-null object"),
          ("params.engine", "must be an object"), ("genesis", "is required")]
        ["params.minGasPrice is recommended"]) := by
  intro text json legacy
  have hne : "-chain" ≠ "" := by decide
  have hagree : SaidAlike .plain unfinishedFiles ⟨true, false⟩ "-chain" text json := by
    obtain ⟨hagree, hruns⟩ :=
      validations_agree .plain unfinishedFiles [] .empty "-chain" ⟨true, false⟩
    rw [← hruns hne false, ← hruns hne true] at hagree
    exact hagree
  have hload : unfinishedFiles.loadDocument "-chain" = .ok unfinishedChain :=
    FileSystem.loadDocument_canonical rfl (by decide) (by decide) (by decide)
  have hfile : Validation.file unfinishedFiles ⟨true, false⟩ "-chain"
      = .ok (Validation.document unfinishedFiles ⟨true, false⟩ unfinishedChain) := by
    rw [Validation.file, hload]
    rfl
  have hcode : text.code ≠ 0 := by
    intro hzero
    obtain ⟨findings, hfindings, hok⟩ := hagree.accepted.mp hzero
    injection hfile.symm.trans hfindings with hfindings
    rw [← hfindings] at hok
    exact absurd hok (by decide)
  have hone := hagree.refused hcode
  have hcount := hagree.count _ hfile hcode
  have hlines := hagree.lines _ hfile
  have hdocument := hagree.document _ hfile
  rw [hcount] at hlines
  rw [decide_eq_false hcode] at hdocument
  exact ⟨hne, hone, hagree.code.trans hone, hagree.errorLine.trans hcount, hlines, hdocument⟩

end Cli

end ChainGenesis
