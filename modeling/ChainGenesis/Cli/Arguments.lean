/-!
# Command lines

A command line is read from the left, argument by argument. Two dashes and a name are an
option, whose value stands behind an equals sign or is the next argument; one dash and some
letters are that many switches; anything else is a word, and so is everything behind a lone
pair of dashes. An argument that begins with a dash is never the value of the option before
it, so a forgotten value is found out.

Every command line may ask for more of a log or for help. What else it may say is a `Form`:
options, each with what it does to the settings of the command, and at most one word.
An option that was not given can take its value from a variable of the environment.
-/

namespace ChainGenesis.Cli

/-- Why a command line leads to no command. -/
inductive Stop where
  /-- It asks for help. -/
  | help
  /-- It says something that cannot be meant. -/
  | usage
  deriving DecidableEq

/-- Variables of the environment, with their values. -/
abbrev Variables := List (String × String)

/-! ## One argument -/

/-- What an argument is by its dashes. -/
inductive Argument where
  | word (text : String)
  /-- An option by its name, with the value behind the first equals sign. -/
  | option (name : String) (value : Option String)
  /-- Switches by their letters, of which there is at least one. -/
  | letters (letters : List Char)
  /-- The pair of dashes before words. -/
  | separator
  deriving DecidableEq

namespace Argument

def ofText (text : String) : Argument :=
  match text.toList with
  | ['-', '-'] => .separator
  | '-' :: '-' :: rest =>
    match rest.dropWhile (· ≠ '=') with
    | [] => .option (String.ofList rest) none
    | _ :: value => .option (String.ofList (rest.takeWhile (· ≠ '='))) (some (String.ofList value))
  | '-' :: letter :: rest => .letters (letter :: rest)
  | _ => .word text

/-- Whether a text can be the value of the option before it. -/
def isWord (text : String) : Bool :=
  match ofText text with
  | .word _ => true
  | _ => false

example : ofText "--a=b=c" = .option "a" (some "b=c") ∧ ofText "--a" = .option "a" none := by
  decide
example : ofText "-" = .word "-" ∧ ofText "" = .word "" ∧ ofText "-vv" = .letters ['v', 'v'] := by
  decide

end Argument

/-- Reads switches that every command line may have: `v` for more of a log, `h` for help. -/
def readLetters : List Char → Except Stop Unit
  | [] => .ok ()
  | 'v' :: rest => readLetters rest
  | 'h' :: _ => .error .help
  | _ => .error .usage

/-- Reads an option that every command line may have. -/
def readCommon (name : String) (value : Option String) : Except Stop Unit :=
  if value.isSome then .error .usage
  else if name = "verbose" then .ok ()
  else if name = "help" then .error .help
  else .error .usage

/-! ## What a command line may say -/

/-- What an option does to the settings. -/
inductive Effect (σ : Type) where
  /-- It takes no value and is given once at most. -/
  | switch (set : σ → σ)
  /-- It takes a value and is given once at most. -/
  | value (store : String → σ → Option σ)
  /-- It takes a value and can be given again. -/
  | values (store : String → σ → Option σ)

structure Parameter (σ : Type) where
  name : String
  /-- Another name that means the same. -/
  otherName : Option String := none
  /-- The variable that has the value if the option is not given. -/
  source : Option String := none
  effect : Effect σ

namespace Parameter

variable {σ β : Type}

/-- A switch. -/
def switch (name : String) (set : σ → σ) : Parameter σ := { name, effect := .switch set }

/-- An option with a value, which is read before it is stored. -/
def valued (name : String) (read : String → Option β) (store : σ → β → σ) : Parameter σ :=
  { name, effect := .value fun text settings => (read text).map (store settings) }

/-- The same option, with a variable to take its value from. -/
def orVariable (parameter : Parameter σ) (name : String) : Parameter σ :=
  { parameter with source := some name }

def answersTo (parameter : Parameter σ) (name : String) : Bool :=
  parameter.name = name || parameter.otherName = some name

def takesValue (parameter : Parameter σ) : Bool :=
  match parameter.effect with
  | .switch _ => false
  | .value _ | .values _ => true

end Parameter

/-- What a command line may say. -/
structure Form (σ : Type) where
  /-- The settings if nothing is said. -/
  start : σ
  parameters : List (Parameter σ)
  /-- What a word is stored as, if the command takes one. -/
  word : Option (String → σ → Option σ) := none
  wordRequired : Bool := false

/-- What a command line has said so far. -/
structure Progress (σ : Type) where
  settings : σ
  /-- Names of the options that were given. -/
  given : List String
  wordGiven : Bool

namespace Form

variable {σ : Type}

/-- What must not fail on the command line. -/
def orUsage (settings : Option σ) : Except Stop σ :=
  match settings with
  | some settings => .ok settings
  | none => .error .usage

/-- Gives an option, with or without a value. -/
def give (parameter : Parameter σ) (value : Option String) (progress : Progress σ) :
    Except Stop (Progress σ) := do
  let given := parameter.name :: progress.given
  let again := progress.given.contains parameter.name
  match parameter.effect, value with
  | .switch set, none =>
    if again then throw .usage
    return { progress with settings := set progress.settings, given }
  | .value store, some text =>
    if again then throw .usage
    let settings ← orUsage (store text progress.settings)
    return { progress with settings, given }
  | .values store, some text =>
    let settings ← orUsage (store text progress.settings)
    return { progress with settings, given }
  | _, _ => throw .usage

/-- Gives a word. -/
def giveWord (form : Form σ) (text : String) (progress : Progress σ) :
    Except Stop (Progress σ) := do
  match form.word with
  | none => throw .usage
  | some store =>
    if progress.wordGiven then throw .usage
    let settings ← orUsage (store text progress.settings)
    return { progress with settings, wordGiven := true }

/-- Gives every argument as a word. -/
def giveWords (form : Form σ) (progress : Progress σ) : List String → Except Stop (Progress σ)
  | [] => .ok progress
  | text :: rest => do
    let progress ← form.giveWord text progress
    form.giveWords progress rest

/-- Reads the arguments of a command. -/
def readArguments (form : Form σ) (progress : Progress σ) :
    List String → Except Stop (Progress σ)
  | [] => .ok progress
  | argument :: rest =>
    match Argument.ofText argument with
    | .separator => form.giveWords progress rest
    | .word text => do
      let progress ← form.giveWord text progress
      form.readArguments progress rest
    | .letters letters => do
      readLetters letters
      form.readArguments progress rest
    | .option name value =>
      match form.parameters.find? fun parameter => parameter.answersTo name with
      | none => do
        readCommon name value
        form.readArguments progress rest
      | some parameter =>
        if parameter.takesValue && value.isNone then
          match rest with
          | [] => .error .usage
          | next :: rest =>
            if Argument.isWord next then do
              let progress ← give parameter (some next) progress
              form.readArguments progress rest
            else .error .usage
        else do
          let progress ← give parameter value progress
          form.readArguments progress rest

/-- Gives the options that were not given and have a variable that is set. -/
def readVariables (vars : Variables) (progress : Progress σ) :
    List (Parameter σ) → Except Stop (Progress σ)
  | [] => .ok progress
  | parameter :: rest =>
    match parameter.source.bind fun name => List.lookup name vars with
    | some value =>
      if progress.given.contains parameter.name then readVariables vars progress rest
      else do
        let progress ← give parameter (some value) progress
        readVariables vars progress rest
    | none => readVariables vars progress rest

/-- The settings that a command line asks for. -/
def read (form : Form σ) (vars : Variables) (arguments : List String) : Except Stop σ := do
  let progress ← form.readArguments ⟨form.start, [], false⟩ arguments
  let progress ← readVariables vars progress form.parameters
  if form.wordRequired && !progress.wordGiven then throw .usage
  return progress.settings

end Form

/-! ## Values -/

namespace Value

/-- A path must say something. -/
def path? (text : String) : Option String := if text.isEmpty then none else some text

/-- A number in decimal. -/
def digits? (text : List Char) : Option Nat :=
  if text.isEmpty || !text.all Char.isDigit then none else some (Nat.ofDigitChars 10 text 0)

/-- A number of at most 64 bits, which may have a plus sign. -/
def natural? (text : String) : Option Nat :=
  let value :=
    match text.toList with
    | '+' :: digits => digits? digits
    | digits => digits? digits
  value.filter (· < 18446744073709551616)

/-- A signed number of at most 32 bits. -/
def integer? (text : String) : Option Int :=
  let value :=
    match text.toList with
    | '+' :: digits => (digits? digits).map Int.ofNat
    | '-' :: digits => (digits? digits).map fun n => -Int.ofNat n
    | digits => (digits? digits).map Int.ofNat
  value.filter fun n => -2147483648 ≤ n ∧ n < 2147483648

example : natural? "+7" = some 7 ∧ natural? "-7" = none ∧ natural? "+" = none := by decide
example : integer? "-2147483648" = some (-2147483648) ∧ integer? "2147483648" = none := by decide

end Value

end ChainGenesis.Cli
