import UtilityCss.Command.Arguments
import UtilityCss.Files.Tree
import UtilityCss.Pattern.Reader
import UtilityCss.Project.Crawl
import UtilityCss.Text.Decimal
import UtilityCss.Text.Word

/-! The commands of the program and how they are read from its arguments. -/
namespace UtilityCss

/-- What a build is asked for. -/
structure Command.BuildSettings where
  cssFile : String
  directories : List String := ["."]
  outfile : Option String := none
  overrides : Option String := none
  selection : Project.Selection := {}
  watch : Bool := false
  interval : Text.Real64

/-- What an inspection is asked for. -/
structure Command.InspectSettings where
  classNames : List String
  overrides : Option String := none

/-- The commands. -/
inductive Command
  | help
  | version
  | build (settings : Command.BuildSettings)
  | inspect (settings : Command.InspectSettings)

namespace Command

/-- The options that stand in front of a command. -/
inductive ProgramOption
  | help
  | version
  | verbose
  deriving DecidableEq

/-- The forms of the options in front of a command. -/
def ProgramOption.forms : List (OptionForm ProgramOption) := [
  { key := .help, long := ["help"] },
  { key := .version, long := ["version"] },
  { key := .verbose, short := ['v'], long := ["verbose"] }]

/-- The options of a build. -/
inductive BuildOption
  | help
  | source
  | outfile
  | overrides
  | wanted
  | ignored
  | watch
  | noWatch
  | interval
  deriving DecidableEq

/-- The forms of the options of a build. -/
def BuildOption.forms : List (OptionForm BuildOption) := [
  { key := .help, long := ["help"] },
  { key := .source, short := ['s'], long := ["source"], takesValue := true },
  { key := .outfile, short := ['o'], long := ["outfile"], takesValue := true },
  { key := .overrides, long := ["config"], takesValue := true },
  { key := .wanted, long := ["match"], takesValue := true },
  { key := .ignored, long := ["ignore"], takesValue := true },
  { key := .watch, long := ["watch"] },
  { key := .noWatch, long := ["no-watch"] },
  { key := .interval, long := ["interval"], takesValue := true }]

/-- The options of an inspection. -/
inductive InspectOption
  | help
  | overrides
  deriving DecidableEq

/-- The forms of the options of an inspection. -/
def InspectOption.forms : List (OptionForm InspectOption) := [
  { key := .help, long := ["help"] },
  { key := .overrides, long := ["config"], takesValue := true }]

/-- Why arguments name no command that can run: they are wrong, or one of their paths cannot even be
looked up. -/
inductive ReadFault
  | usage (fault : UsageFault)
  | path (fault : FileFault)
  deriving DecidableEq, Repr

/-- Looks a path up, if it is one at all. -/
def lookUp (tree : FileTree) (path : String) : Except ReadFault (Option Node) :=
  match tree.node? path with
  | .ok node => .ok (some node)
  | .error .zeroInPath => .error (.path ⟨.zeroInPath, path⟩)
  | .error _ => .ok none

/-- A path that must not be a directory. -/
def checkNoDirectory (tree : FileTree) (path : String) : Except ReadFault Unit := do
  match ← lookUp tree path with
  | some (.dir ..) => throw (.usage (.notAFile path))
  | _ => return

/-- A path that must be there and not be a directory. -/
def checkFile (tree : FileTree) (path : String) : Except ReadFault Unit := do
  match ← lookUp tree path with
  | none => throw (.usage (.noSuchPath path))
  | some (.dir ..) => throw (.usage (.notAFile path))
  | some (.file ..) => return

/-- A path that must be there and be a directory. -/
def checkDirectory (tree : FileTree) (path : String) : Except ReadFault Unit := do
  match ← lookUp tree path with
  | none => throw (.usage (.noSuchPath path))
  | some (.file ..) => throw (.usage (.notADirectory path))
  | some (.dir ..) => return

/-- Reads the pattern of an option. -/
def readPattern (text : String) : Except ReadFault Pattern :=
  (Pattern.read text).mapError fun _ => .usage (.badPattern text)

/-- Reads the number of an option. -/
def readNumber (text : String) : Except ReadFault Text.Real64 :=
  match Text.readReal? text with
  | some x => .ok x
  | none => .error (.usage (.badNumber text))

/-- Splits the arguments of a command. -/
def splitArguments {κ : Type} (forms : List (OptionForm κ)) (mixed : Bool) (args : List String) :
    Except ReadFault (Arguments κ) :=
  (Arguments.split forms mixed args).mapError .usage

/-- Checks what was given for one option of a build. -/
def checkBuildOption (tree : FileTree) (a : Arguments BuildOption) :
    BuildOption → Except ReadFault Unit
  | .help | .watch | .noWatch => .ok ()
  | .source => (a.values .source).forM (checkDirectory tree)
  | .outfile => (a.value? .outfile).forM (checkNoDirectory tree)
  | .overrides => (a.value? .overrides).forM (checkFile tree)
  | .wanted => (a.value? .wanted).forM fun text => discard (readPattern text)
  | .ignored => (a.value? .ignored).forM fun text => discard (readPattern text)
  | .interval => (a.value? .interval).forM fun text => discard (readNumber text)

/-- Reads what a build is asked for. The options are checked in the order in which they are given,
then the operand. -/
def readBuild (tree : FileTree) (args : List String) : Except ReadFault Command := do
  let a ← splitArguments BuildOption.forms true args
  if a.has .help then return .help
  a.keys.forM (checkBuildOption tree a)
  let some cssFile := a.operands.head? | throw (.usage (.operandMissing "CSS_FILE"))
  checkFile tree cssFile
  unless a.operands.length = 1 do throw (.usage (.operandsUnexpected (a.operands.drop 1)))
  let directories := a.values .source
  let wanted ← (a.value? .wanted).mapM readPattern
  let ignored ← (a.value? .ignored).mapM readPattern
  let interval ← (a.value? .interval).mapM readNumber
  let flags := a.options.filter fun o => o.1 = .watch || o.1 = .noWatch
  let watch := (flags.getLast?.map (·.1)) == some BuildOption.watch
  let outfile := (a.value? .outfile).filter (!·.isEmpty)
  if watch && outfile.isNone then throw (.usage .watchWithoutOutput)
  let selection : Project.Selection :=
    match wanted with
    | some wanted => { wanted, ignored }
    | none => { ignored }
  return .build {
    cssFile
    directories := if directories.isEmpty then ["."] else directories
    outfile
    overrides := a.value? .overrides
    selection, watch
    interval := interval.getD (Text.Real64.ofDecimal false 5 (-1)) }

/-- Reads what an inspection is asked for. -/
def readInspect (tree : FileTree) (args : List String) : Except ReadFault Command := do
  let a ← splitArguments InspectOption.forms true args
  if a.has .help then return .help
  let overrides := a.value? .overrides
  overrides.forM (checkFile tree)
  if a.operands.isEmpty then throw (.usage (.operandMissing "CLASS_NAMES..."))
  return .inspect { classNames := a.operands, overrides }

/-- The command for which an option in front of a command stands. Of two such options the first
counts. -/
def ofProgramOptions? (a : Arguments ProgramOption) : Option Command :=
  match a.keys.find? (· ≠ .verbose) with
  | some .help => some .help
  | some .version => some .version
  | _ => none

/-- Whether an operand begins like an option: with a character that is no letter and no number. -/
def looksLikeOption (operand : String) : Bool :=
  match operand.toList with
  | [] => false
  | c :: _ => c = '_' || !Text.isWord c

/-- Reads an operand that is no command, with the operands behind it. What looks like an option
behind the two dashes may be an option of the program all the same. -/
def readUnknown (name : String) (operands : List String) : Except ReadFault Command := do
  if looksLikeOption name then
    if let some command := ofProgramOptions? (← splitArguments ProgramOption.forms false operands)
    then return command
  throw (.usage (.unknownCommand name))

/-- Reads the arguments of the program. Paths are checked against the files that are there. -/
def read (tree : FileTree) (args : List String) : Except ReadFault Command := do
  let a ← splitArguments ProgramOption.forms false args
  if let some command := ofProgramOptions? a then return command
  match a.operands with
  | [] => throw (.usage .commandMissing)
  | "build" :: rest => readBuild tree rest
  | "inspect" :: rest => readInspect tree rest
  | name :: _ => readUnknown name a.operands

end Command

end UtilityCss
