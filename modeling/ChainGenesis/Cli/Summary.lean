import ChainGenesis.Build
import ChainGenesis.Cli.Command
import ChainGenesis.Ledger.Report

/-!
# What commands print

A command that succeeds prints either lines for a reader or one JSON document for a program,
in the two-space layout. The members of such a document are in ascending order of name,
except in the report, whose fields have an order of their own.
-/

namespace ChainGenesis.Cli

/-- Lines of text, each with its line feed. -/
def lines (texts : List String) : String := String.join (texts.map fun text => text ++ "\n")

/-- A document as it is printed. -/
def printed (doc : Document) : String := lines [doc.indented]

/-- A list of texts as JSON. -/
def textList (texts : List String) : Document := .array (texts.map Document.string)

/-! ## Findings -/

/-- The findings of a validation as JSON. -/
def findingsDocument (words : Wording) (findings : Findings) : Document :=
  let issue (issue : Issue) : Document :=
    .object (Named.ofList [
      ("path", .string issue.pathText),
      ("message", .string (issue.message words))])
  .object (Named.ofList [
    ("ok", .bool findings.isOk),
    ("errors", .array (findings.errors.map issue)),
    ("warnings", textList (findings.warnings.map Warning.message))])

/-- The line for an issue. -/
def issueLine (words : Wording) (issue : Issue) : String := "- " ++ issue.display words

/-- The line for a warning. -/
def warningLine (warning : Warning) : String := "warning: " ++ warning.message

/-! ## The table of a report -/

/-- A text cut to a width; one that is cut ends in three points. -/
def truncate (width : Nat) (text : List Char) : List Char :=
  if text.length ≤ width then text else text.take (width - 3) ++ ['.', '.', '.']

/-- A row of the table; amounts are flush right. -/
def row (name address wei units : List Char) : String :=
  String.ofList <|
    name.rightpad 12 ' ' ++ ' ' :: address.rightpad 42 ' ' ++ ' ' :: wei.leftpad 28 ' '
      ++ ' ' :: units

def lineRow (line : ReportLine) : String :=
  row (truncate 12 line.name.toList) line.address.toList line.wei.toList line.units.toList

/-- The head of the table. -/
def tableHead : List String := [
  row "NAME".toList "ADDRESS".toList "WEI".toList "QIK".toList,
  String.ofList (List.replicate 100 '-')]

/-- A report for a reader. -/
def reportLines (report : Report) : List String :=
  ["Token: " ++ report.token.name ++ " (" ++ report.token.symbol ++ "), "
      ++ Token.intText report.token.decimals ++ " decimals, supply policy "
      ++ report.token.supplyPolicy,
    ""]
    ++ tableHead ++ report.lines.map lineRow
    ++ ["",
      "Total premine: " ++ report.totalWei ++ " wei",
      "Total premine: " ++ report.totalUnits ++ " QIK",
      "Note: " ++ Report.supplyPolicyNote]

/-! ## The ledger -/

/-- What was verified, in one line. -/
def verificationLine (found : Verification) : String :=
  "OK: " ++ Nat.repr found.buckets ++ " bucket(s), " ++ Nat.repr found.operators
    ++ " operator(s), " ++ Nat.repr found.addresses ++ " unique address(es)"

/-! ## A build -/

/-- Decimals of the total in display units. -/
def summaryDecimals : Int := 6

/-- The paths of the artifacts, by name. -/
def outputPaths (result : Build) : List (String × String) :=
  [("combined", result.outputs.combined),
    ("chain", result.outputs.chain),
    ("genesis", result.outputs.genesis),
    ("metadata", result.outputs.metadata)]
    ++ if result.contracts.isSome then [("posAddresses", result.outputs.contracts)] else []

/-- The label of an artifact in the summary for a reader. -/
def outputLabel (name : String) : String := if name = "posAddresses" then "pos" else name

/-- A label and a value, the values flush left. -/
def entry (width : Nat) (label value : String) : String :=
  "  " ++ String.ofList (label.toList.rightpad width ' ') ++ " " ++ value

/-- The summary of a build for a reader. -/
def buildLines (options : BuildOptions) (result : Build) : List String :=
  ["Built " ++ options.consensus.name ++ " genesis for " ++ options.environment.name
      ++ " (chain id " ++ Nat.repr options.chainId ++ ")"]
    ++ (outputPaths result).map (fun (name, path) => entry 9 (outputLabel name ++ ":") path)
    ++ ["Total premine: " ++ result.total.text ++ " wei ("
      ++ result.total.inUnits summaryDecimals ++ " QIK)"]
    ++ result.digests.map fun (name, digest) => entry 13 name digest.display

/-- Texts by name as JSON. -/
def textsDocument (texts : List (String × String)) : Document :=
  .object (Named.ofList (texts.map fun (name, text) => (name, .string text)))

/-- The summary of a build as JSON. -/
def buildDocument (options : BuildOptions) (result : Build) : Document :=
  .object (Named.ofList [
    ("consensus", .string options.consensus.name),
    ("env", .string options.environment.name),
    ("chainId", .number (.integer options.chainId)),
    ("outputs", textsDocument (outputPaths result)),
    ("digests", textsDocument (result.digests.map fun (name, digest) => (name, digest.display))),
    ("totalPremineWei", .string result.total.text),
    ("totalPremineQIK", .string (result.total.inUnits summaryDecimals)),
    ("posAddresses", (result.contracts.map Contracts.document).getD .null),
    ("warnings", textList (result.warnings.map Warning.message))])

end ChainGenesis.Cli
