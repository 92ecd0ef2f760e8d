import ChainGenesis.Text.Quoted

/-!
# Rejected texts

Addresses, amounts and digests are parsed from text by exact rules. A text that breaks
them is rejected with the text as it was given; an amount that is right but for its minus
sign is told apart, because whoever wrote it meant something else.
-/

namespace ChainGenesis

/-- What a text was meant to be. -/
inductive Primitive where
  | address
  | amount
  | digest
  deriving DecidableEq

def Primitive.name : Primitive → String
  | .address => "address"
  | .amount => "amount"
  | .digest => "digest"

/-- Why a text is no address, amount or digest. -/
inductive Rejection where
  /-- The text does not have the shape of one. -/
  | malformed (what : Primitive) (text : String)
  /-- The amount carries a minus sign. -/
  | negative (text : String)
  deriving DecidableEq

def Rejection.message : Rejection → String
  | .malformed what text => "malformed " ++ what.name ++ ": " ++ Text.quoted text
  | .negative text => "amount " ++ text ++ " is negative"

end ChainGenesis
