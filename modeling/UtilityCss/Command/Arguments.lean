/-! Splitting the arguments of a command into options and operands. -/
namespace UtilityCss.Command

/-- What is wrong with the arguments of a command. -/
inductive UsageFault
  | commandMissing
  | unknownCommand (name : String)
  | unknownOption (name : String)
  | valueMissing (option : String)
  | valueUnexpected (option : String)
  | operandMissing (name : String)
  | operandsUnexpected (operands : List String)
  | noSuchPath (path : String)
  | notAFile (path : String)
  | notADirectory (path : String)
  | badPattern (text : String)
  | badNumber (text : String)
  | watchWithoutOutput
  deriving DecidableEq, Repr

/-- The message for a fault. -/
def UsageFault.message : UsageFault → String
  | .commandMissing => "Missing command."
  | .unknownCommand name => "No such command '" ++ name ++ "'."
  | .unknownOption name => "No such option: " ++ name
  | .valueMissing option => "Option '" ++ option ++ "' requires an argument."
  | .valueUnexpected option => "Option '" ++ option ++ "' does not take a value."
  | .operandMissing name => "Missing argument '" ++ name ++ "'."
  | .operandsUnexpected operands =>
    "Got unexpected extra arguments (" ++ String.intercalate " " operands ++ ")"
  | .noSuchPath path => "'" ++ path ++ "' does not exist."
  | .notAFile path => "'" ++ path ++ "' is a directory."
  | .notADirectory path => "'" ++ path ++ "' is a file."
  | .badPattern text => "invalid regular expression: " ++ text
  | .badNumber text => "'" ++ text ++ "' is not a valid float."
  | .watchWithoutOutput => "--watch requires --outfile"

/-- An option. Its short names are characters behind one dash, its long ones texts behind two. -/
structure OptionForm (κ : Type) where
  key : κ
  short : List Char := []
  long : List String := []
  takesValue : Bool := false

/-- The options that were given, in order, and the operands. An option without value has an empty
one. -/
structure Arguments (κ : Type) where
  options : List (κ × String) := []
  operands : List String := []

namespace Arguments

variable {κ : Type}

/-- What an argument gives: options, and whether the next argument belongs to them as a value. -/
abbrev Given (κ : Type) := List (κ × String) × Bool

/-- Reads a long name, behind which a value may follow an equals sign. -/
def readLong (forms : List (OptionForm κ)) (name : String) (value next? : Option String) :
    Except UsageFault (Given κ) :=
  match forms.find? (·.long.contains name), value, next? with
  | none, _, _ => .error (.unknownOption ("--" ++ name))
  | some form, some v, _ =>
    if form.takesValue then .ok ([(form.key, v)], false)
    else .error (.valueUnexpected ("--" ++ name))
  | some form, none, some v =>
    if form.takesValue then .ok ([(form.key, v)], true) else .ok ([(form.key, "")], false)
  | some form, none, none =>
    if form.takesValue then .error (.valueMissing ("--" ++ name)) else .ok ([(form.key, "")], false)

/-- Reads short names one behind the other. The first that takes a value takes all that is left, or
the next argument. -/
def readShort (forms : List (OptionForm κ)) (next? : Option String) :
    List Char → Except UsageFault (Given κ)
  | [] => .ok ([], false)
  | c :: more => do
    let name := String.ofList ['-', c]
    match forms.find? (·.short.contains c) with
    | none => throw (.unknownOption name)
    | some form =>
      if !form.takesValue then
        let (given, usesNext) ← readShort forms next? more
        return ((form.key, "") :: given, usesNext)
      else if !more.isEmpty then return ([(form.key, String.ofList more)], false)
      else match next? with
        | some v => return ([(form.key, v)], true)
        | none => throw (.valueMissing name)

/-- Splits a text at the first equals sign. -/
def splitEquals (s : List Char) : String × Option String :=
  (String.ofList (s.takeWhile (· != '=')),
    match s.dropWhile (· != '=') with
    | _ :: value => some (String.ofList value)
    | [] => none)

/-- Reads an argument that starts with a dash. -/
def readOption (forms : List (OptionForm κ)) (argument : String) (next? : Option String) :
    Except UsageFault (Given κ) :=
  match argument.toList with
  | '-' :: '-' :: long =>
    let (name, value) := splitEquals long
    readLong forms name value next?
  | s => readShort forms next? (s.drop 1)

/-- Whether an argument has the form of an option. -/
def isOption (argument : String) : Bool :=
  match argument.toList with
  | '-' :: _ :: _ => true
  | _ => false

/-- Splits arguments. Two dashes alone end the options; unless operands may stand between options,
the first operand ends them too. -/
def split (forms : List (OptionForm κ)) (mixed : Bool) :
    List String → Except UsageFault (Arguments κ)
  | [] => .ok {}
  | argument :: rest =>
    if argument = "--" then .ok { operands := rest }
    else if isOption argument then
      match rest with
      | [] => do
        let (given, _) ← readOption forms argument none
        return { options := given }
      | next :: after => do
        let (given, usesNext) ← readOption forms argument (some next)
        let more ← if usesNext then split forms mixed after else split forms mixed (next :: after)
        return { more with options := given ++ more.options }
    else if mixed then do
      let more ← split forms mixed rest
      return { more with operands := argument :: more.operands }
    else .ok { operands := argument :: rest }

variable [DecidableEq κ]

/-- Whether an option was given. -/
def has (a : Arguments κ) (key : κ) : Bool := a.options.any (·.1 = key)

/-- All values of an option. -/
def values (a : Arguments κ) (key : κ) : List String :=
  a.options.filterMap fun o => if o.1 = key then some o.2 else none

/-- The value of an option; the last one counts. -/
def value? (a : Arguments κ) (key : κ) : Option String := (a.values key).getLast?

/-- The options that were given, each once, in the order of their first occurrences. -/
def keys (a : Arguments κ) : List κ := (a.options.map (·.1)).eraseDups

end Arguments

end UtilityCss.Command
