import ChainGenesis.Cli.Summary

/-!
# Running a command

A command is run on a file system, which is all it depends on besides its command line and
what is piped in. It ends with a code: zero if all went well, two if the command line or the
options of a build cannot be used, and one for everything else. What is wrong is said line
by line next to the output, and a failure has the last word.
-/

namespace ChainGenesis.Cli

/-- Why a command fails. -/
inductive Failure where
  | genesis (error : GenesisError)
  /-- The file to be written canonically cannot be read. -/
  | unreadable (path : String) (fault : IoFault)
  /-- The file to be written canonically is no text or, without a path, what is piped in. -/
  | notText (path : Option String)
  /-- The text to be written canonically is no JSON. -/
  | notJson (path : Option String) (fault : Fault)
  /-- The document has errors, which have been listed. -/
  | invalid (count : Nat)
  /-- The ledger has errors, which have been listed. -/
  | unsound (count : Nat)
  deriving DecidableEq

namespace Failure

/-- What is said of a file that is to be read as text. -/
def unreadableMessage (path cause : String) : String := "failed to read " ++ path ++ ": " ++ cause

/-- What is said of bytes that are no text. -/
def notTextMessage : String := "stream did not contain valid UTF-8"

def message (words : Wording) : Failure → String
  | .genesis error => error.message words
  | .unreadable path fault => unreadableMessage path (words.system fault)
  | .notText (some path) => unreadableMessage path notTextMessage
  | .notText none => notTextMessage
  | .notJson path fault => "invalid JSON: " ++ words.reader path fault
  | .invalid count => "validation failed with " ++ errorCount count
  | .unsound count => "allocation verification failed with " ++ errorCount count

/-- The code that a command ends with. -/
def code : Failure → Nat
  | .genesis (.options _) => 2
  | _ => 1

end Failure

/-- What running a command comes to. -/
structure Outcome where
  code : Nat
  output : String
  /-- Lines about what is wrong or unwise. -/
  complaints : List String
  files : FileSystem

namespace Outcome

def succeed (files : FileSystem) (output : String) : Outcome := ⟨0, output, [], files⟩

def fail (words : Wording) (files : FileSystem) (failure : Failure) : Outcome :=
  ⟨failure.code, "", ["Error: " ++ failure.message words], files⟩

/-- The same outcome, with more said before. -/
def after (output : String) (complaints : List String) (outcome : Outcome) : Outcome :=
  { outcome with
    output := output ++ outcome.output
    complaints := complaints ++ outcome.complaints }

/-- The outcome of a command that prints what it computes and changes no file. -/
def ofResult (words : Wording) (files : FileSystem) (result : Except Failure String) :
    Outcome :=
  match result with
  | .ok output => succeed files output
  | .error failure => fail words files failure

end Outcome

/-! ## The commands -/

def runBuild (words : Wording) (files : FileSystem) (request : BuildRequest) : Outcome :=
  let options := request.complete
  match build files options with
  | .error error => .fail words files (.genesis error)
  | .ok result =>
    match result.write files with
    | (files, .error error) => .fail words files (.genesis (.file error))
    | (files, .ok ()) =>
      .succeed files
        (if request.json then printed (buildDocument options result)
          else lines (buildLines options result))

/-- The output and the complaints about the findings of a validation. -/
def findingsShown (words : Wording) (request : ValidateRequest) (findings : Findings) :
    String × List String :=
  if request.json then (printed (findingsDocument words findings), [])
  else
    (if findings.isOk then lines ["OK: " ++ request.file ++ " is valid"] else "",
      findings.warnings.map warningLine ++ findings.errors.map (issueLine words))

def runValidate (words : Wording) (files : FileSystem) (request : ValidateRequest) : Outcome :=
  match Validation.file files request.policy request.file with
  | .error error => .fail words files (.genesis (.file error))
  | .ok findings =>
    let (output, complaints) := findingsShown words request findings
    let outcome : Outcome :=
      if findings.isOk then .succeed files ""
      else .fail words files (.invalid findings.errors.length)
    outcome.after output complaints

/-- The outcome for a ledger that may have issues. -/
def ifSound (words : Wording) (files : FileSystem) (issues : List Issue) (outcome : Outcome) :
    Outcome :=
  if issues.isEmpty then outcome
  else (Outcome.fail words files (.unsound issues.length)).after "" (issues.map (issueLine words))

def runVerify (words : Wording) (files : FileSystem) (request : VerifyRequest) : Outcome :=
  match files.load Ledger.ofWritten request.file with
  | .error error => .fail words files (.genesis (.file error))
  | .ok ledger =>
    let found := ledger.verify
      { Ledger.defaultOptions with allowZeroAddress := request.allowZeroAddress }
    ifSound words files found.issues (.succeed files (lines [verificationLine found]))

/-- The token and the ledger of a report. The token is checked before the ledger is loaded. -/
def loadForReport (files : FileSystem) (request : ReportRequest) :
    Except GenesisError (Token × Ledger) := do
  let token ← Build.loadToken files request.token
  let ledger ← wrapError .file (files.load Ledger.ofWritten request.file)
  return (token, ledger)

/-- A report as it is printed. -/
def reportShown (request : ReportRequest) (report : Report) : String :=
  if request.json then printed report.document else lines (reportLines report)

def runReport (words : Wording) (files : FileSystem) (request : ReportRequest) : Outcome :=
  match loadForReport files request with
  | .error error => .fail words files (.genesis error)
  | .ok (token, ledger) =>
    let report := wrapError (fun problem => Failure.genesis (.allocation problem))
      (Report.ofLedger request.maxDecimals token ledger)
    ifSound words files (ledger.verify Ledger.defaultOptions).issues
      (.ofResult words files (report.map (reportShown request)))

/-- Bytes as a text. -/
def textOf (path : Option String) (bytes : ByteArray) : Except Failure String :=
  match String.fromUTF8? bytes with
  | some text => .ok text
  | none => .error (.notText path)

/-- The text that is to be written canonically. -/
def inputText (files : FileSystem) (piped : ByteArray) : Option String → Except Failure String
  | some path =>
    match files.read path with
    | .ok bytes => textOf path bytes
    | .error fault => .error (.unreadable path fault)
  | none => textOf none piped

/-- The canonical text of a text that stands at a path or is piped in. -/
def canonicalText (layout : Layout) (path : Option String) (text : String) :
    Except Failure String :=
  match Document.parse text with
  | .ok doc => .ok (doc.canonical layout)
  | .error fault => .error (.notJson path fault)

def runCanonicalize (words : Wording) (files : FileSystem) (piped : ByteArray)
    (request : CanonicalizeRequest) : Outcome :=
  .ofResult words files do
    let text ← inputText files piped request.input
    canonicalText (.ofPretty request.pretty) request.input text

/-- Runs a command. -/
def Command.run (words : Wording) (files : FileSystem) (piped : ByteArray) : Command → Outcome
  | .build request => runBuild words files request
  | .validate request => runValidate words files request
  | .verify request => runVerify words files request
  | .report request => runReport words files request
  | .canonicalize request => runCanonicalize words files piped request

/-! ## What a command looks at -/

/-- Whether a command looks at what is piped in. -/
def Command.readsInput : Command → Bool
  | .canonicalize request => request.input.isNone
  | _ => false

/-- The paths that a build reads or writes. -/
def buildPaths (files : FileSystem) (options : BuildOptions) : List String :=
  [options.token, options.allocations, options.template, options.overlay, options.deployments,
    Build.genesisStandIn]
    ++ match options.targets.resolve files.workingPath with
      | .error _ => []
      | .ok outputs =>
        [outputs.genesis, outputs.combined, outputs.chain, outputs.metadata, outputs.contracts]

/-- The path of the genesis that the document in a file refers to. -/
def referredPath (files : FileSystem) (file : String) : List String :=
  match files.loadDocument file with
  | .error _ => []
  | .ok doc => ((doc.get? "genesis").bind Document.text?).toList

/-- The paths that a command reads or writes, as far as the files that are known can tell. -/
def Command.paths (files : FileSystem) : Command → List String
  | .build request => buildPaths files request.complete
  | .validate request => request.file :: referredPath files request.file
  | .verify request => [request.file]
  | .report request => [request.token, request.file]
  | .canonicalize request => request.input.toList

/-! ## The command line -/

/-- What is said to a reader who needs help. -/
def usageText : List String := [
  "A command line is one of",
  "  [-v] genesis build [options]",
  "  [-v] genesis validate [options] <file>",
  "  [-v] allocations verify [options]",
  "  [-v] allocations report [options]",
  "  [-v] canonicalize [--pretty] [file]"]

/-- The outcome of a command line that leads to no command. -/
def Stop.outcome (files : FileSystem) : Stop → Outcome
  | .help => ⟨0, "", usageText, files⟩
  | .usage => ⟨2, "", usageText, files⟩

/-- Reads a command line and runs its command. -/
def run (words : Wording) (files : FileSystem) (vars : Variables) (piped : ByteArray)
    (arguments : List String) : Outcome :=
  match Command.parse vars arguments with
  | .error stop => stop.outcome files
  | .ok command => command.run words files piped

end ChainGenesis.Cli
