import ChainGenesis.Json.Layout
import ChainGenesis.Json.Record
import ChainGenesis.Text.Quoted

/-!
# The token

The token file says what the chain's token is called and how it is counted. This program
issues one token under one policy, so the file is checked rather than trusted, and is then
passed on as the metadata of the chain.
-/

namespace ChainGenesis

/-- What the token file says. -/
structure Token where
  name : String
  symbol : String
  decimals : Int
  supplyPolicy : String
  phase1PosRewards : String
  deriving DecidableEq

/-- What the token file must not say. -/
inductive TokenProblem where
  | identity (name symbol : String) (decimals : Int)
  | supplyPolicy (found : String)
  | rewards (found : String)
  deriving DecidableEq

namespace Token

/-- The symbol of the token, and its name. -/
def requiredSymbol : String := "QIK"

/-- The decimals of the token, and of ledger amounts. -/
def requiredDecimals : Int := 18

def requiredPolicy : String := "fixed"

def requiredRewards : String := "0"

/-- An integer in decimal. -/
def intText (n : Int) : String := String.ofList (Number.integer n).text

end Token

def TokenProblem.message : TokenProblem → String
  | .identity name symbol decimals =>
    "token config must represent " ++ Token.requiredSymbol ++ " with "
      ++ Token.intText Token.requiredDecimals ++ " decimals, got name " ++ Text.quoted name
      ++ " symbol " ++ Text.quoted symbol ++ " decimals " ++ Token.intText decimals
  | .supplyPolicy found =>
    "supplyPolicy must be " ++ Token.requiredPolicy ++ ", got " ++ Text.quoted found
  | .rewards found =>
    "phase1PosRewards must be " ++ Token.requiredRewards ++ ", got " ++ Text.quoted found

namespace Token

/-- Checks the token and reports the first thing that is wrong with it. -/
def check (token : Token) : Except TokenProblem Unit :=
  if token.symbol ≠ requiredSymbol ∨ token.name ≠ requiredSymbol
      ∨ token.decimals ≠ requiredDecimals then
    .error (.identity token.name token.symbol token.decimals)
  else if token.supplyPolicy ≠ requiredPolicy then .error (.supplyPolicy token.supplyPolicy)
  else if token.phase1PosRewards ≠ requiredRewards then .error (.rewards token.phase1PosRewards)
  else .ok ()

/-- A token file that says nothing. -/
def blank : Token := ⟨"", "", 0, "", ""⟩

def fields : List (Written.Field Token) := [
  Written.field "name" Written.readText fun token name => { token with name },
  Written.field "symbol" Written.readText fun token symbol => { token with symbol },
  Written.field "decimals" Written.readInt64 fun token decimals => { token with decimals },
  Written.field "supplyPolicy" Written.readText fun token supplyPolicy =>
    { token with supplyPolicy },
  Written.field "phase1PosRewards" Written.readText fun token phase1PosRewards =>
    { token with phase1PosRewards }]

/-- Reads a token file. -/
def ofWritten : Written → Except Fault Token := Written.readRecord fields blank

/-- The token as JSON, its fields in their order. -/
def document (token : Token) : Document :=
  .object [
    ("name", .string token.name),
    ("symbol", .string token.symbol),
    ("decimals", .number (.integer token.decimals)),
    ("supplyPolicy", .string token.supplyPolicy),
    ("phase1PosRewards", .string token.phase1PosRewards)]

/-- The metadata of the chain: the token in the two-space layout, and a line feed. -/
def metadata (token : Token) : String := token.document.indented ++ "\n"

end Token

end ChainGenesis
