import UtilityCss.Command.Basic
import UtilityCss.Project.Watch
import UtilityCss.Text.ControlSequence
import UtilityCss.Theme.Overrides

/-! What the commands do. -/
namespace UtilityCss.Command

/-- Faults that no command reports in its own words. -/
inductive Trouble
  | project (fault : Project.Fault)
  | overrides (fault : Theme.OverridesFault)
  | path (fault : FileFault)

/-- The end of a run: the exit code, the output, the messages, the trouble that ended the run early,
and the files as they are left. A watch also has the files as they were before every pause. -/
structure Report where
  tree : FileTree
  exitCode : Nat := 0
  output : String := ""
  messages : String := ""
  trouble : Option Trouble := none
  trees : List FileTree := []

/-- The report of a run that ends with trouble. -/
def Report.troubled (tree : FileTree) (trouble : Trouble) : Report :=
  { tree, exitCode := 1, trouble := some trouble }

/-- A report as it is written where there is no terminal. -/
def Report.plain (r : Report) : Report :=
  { r with output := Text.plainOutput r.output, messages := Text.plainOutput r.messages }

/-- Adds the fault that ended a build to a report. A fault that can be mended is reported to the
user. -/
def Report.failed (r : Report) (fault : Project.Fault) : Report :=
  if fault.isMendable then
    { r with exitCode := 1, messages := "Build error: " ++ fault.message ++ "\n" }
  else { r with exitCode := 1, trouble := some (.project fault) }

/-- The version of the program. -/
def versionText : String := "atomic-css, version 0.1.0\n"

/-- How the program is used. -/
def helpText : String :=
  "Usage: atomic-css [-v] build [OPTIONS] CSS_FILE\n" ++
    "       atomic-css [-v] inspect [OPTIONS] CLASS_NAMES...\n" ++
    "\n" ++
    "Options of build:\n" ++
    "  -s, --source DIRECTORY  Directory to scan for class names (repeatable, default: .)\n" ++
    "  -o, --outfile FILE      Output file (default: stdout)\n" ++
    "  --config FILE           JSON design-token overrides\n" ++
    "  --match TEXT            Regex of source paths to scan\n" ++
    "  --ignore TEXT           Regex of paths to skip\n" ++
    "  --watch / --no-watch    Rebuild on changes\n" ++
    "  --interval FLOAT        Polling interval in seconds for --watch\n" ++
    "\n" ++
    "Options of inspect:\n" ++
    "  --config FILE           JSON design-token overrides\n"

/-- The overrides of the file that a command names, if it names one. -/
def overridesOf (tree : FileTree) (path : Option String) : Except Theme.OverridesFault Json.Value :=
  match path with
  | none => .ok .null
  | some path => do return .map (← Theme.readOverrides tree path)

/-- The options for a build with some overrides. -/
def BuildSettings.options (s : BuildSettings) (overrides : Json.Value) : Project.Options :=
  { cssFile := s.cssFile, directories := s.directories, outfile := s.outfile
    selection := s.selection, overrides }

/-- What a watch writes before it starts. -/
def watchText (outfile : String) : String := "Watching for changes, writing " ++ outfile ++ "\n"

/-- Builds once, into the output file or as output. -/
def buildOnce (tree : FileTree) (options : Project.Options) : Report :=
  match options.outfile with
  | some outfile =>
    match Project.Build.write tree options with
    | (tree, .ok _) => { tree, output := "Wrote " ++ outfile ++ "\n" }
    | (tree, .error fault) => Report.failed { tree } fault
  | none =>
    match Project.Build.make tree options with
    | .ok b => { tree, output := b.text ++ "\n" }
    | .error fault => Report.failed { tree } fault

/-- Starts a watch or reports why it cannot start. -/
def startWatch (tree : FileTree) (options : Project.Options) : Except Report Project.Watch :=
  match Project.Watch.start tree options with
  | (tree, .error fault) =>
    .error (Report.failed { tree, output := watchText (options.outfile.getD "") } fault)
  | (_, .ok w) => .ok w

/-- Watches through some pauses. -/
def watchThrough (tree : FileTree) (options : Project.Options)
    (pauses : List (List Project.Event)) : Report :=
  match startWatch tree options with
  | .error report => report
  | .ok w =>
    let course := w.run none pauses
    let report : Report :=
      { tree := course.last.tree, output := watchText (options.outfile.getD "")
        trees := course.trees }
    match course.fault with
    | none => report
    | some fault => report.failed fault

/-- The options of a build with its overrides, or the report that they cannot be read. -/
def optionsOf (tree : FileTree) (s : BuildSettings) : Except Report Project.Options :=
  match overridesOf tree s.overrides with
  | .ok overrides => .ok (s.options overrides)
  | .error fault =>
    if fault.isOfContent then
      .error { tree, exitCode := 1, messages := "Config error: " ++ fault.message ++ "\n" }
    else .error (.troubled tree (.overrides fault))

/-- Builds or watches. -/
def runBuild (tree : FileTree) (s : BuildSettings) (pauses : List (List Project.Event)) : Report :=
  match optionsOf tree s with
  | .error report => report
  | .ok options => if s.watch then watchThrough tree options pauses else buildOnce tree options

/-- What is shown of a class. -/
def inspected (breakpoints : Breakpoints) (className : String) (u : Utility) : String :=
  let breakpoint :=
    if u.breakpoint.isEmpty then ""
    else
      "  breakpoint:  " ++ u.breakpoint ++ " (" ++ (breakpoints.lookup u.breakpoint).getD "" ++
        ")\n"
  let sibling :=
    match u.realSibling? with
    | some s => "  sibling:     " ++ s ++ "\n"
    | none => ""
  className ++ "\n  selector:    " ++ u.selector ++ "\n" ++ breakpoint ++
    "  specificity: " ++ toString u.specificity ++ "\n  css:         " ++ u.css ++ "\n" ++ sibling

/-- Shows how classes resolve. -/
def inspectAll (theme : Theme) (table : RuleTable) (classNames : List String) (r : Report) :
    Report :=
  classNames.foldl (fun r className =>
    match Utility.resolve? table theme.breakpoint className with
    | some u => { r with output := r.output ++ inspected theme.breakpoint className u }
    | none =>
      { r with exitCode := 1, messages := r.messages ++ className ++ ": no matching rule\n" }) r

/-- Compiles the theme and shows how classes resolve in it. -/
def runInspect (tree : FileTree) (s : InspectSettings) : Report :=
  match overridesOf tree s.overrides with
  | .error fault => .troubled tree (.overrides fault)
  | .ok overrides =>
    match Theme.compile overrides with
    | .error fault => .troubled tree (.project (.theme fault))
    | .ok theme =>
      match theme.rules with
      | .error fault => .troubled tree (.project (.theme fault))
      | .ok table => inspectAll theme table s.classNames { tree }

/-- Runs a command. -/
def run (tree : FileTree) (pauses : List (List Project.Event)) (command : Command) : Report :=
  let report : Report := match command with
    | .help => { tree, output := helpText }
    | .version => { tree, output := versionText }
    | .build settings => runBuild tree settings pauses
    | .inspect settings => runInspect tree settings
  report.plain

/-- Runs the command that some arguments name. Arguments that are wrong run nothing. -/
def runArguments (tree : FileTree) (pauses : List (List Project.Event)) (args : List String) :
    Except UsageFault Report :=
  match read tree args with
  | .ok command => .ok (command.run tree pauses)
  | .error (.usage fault) => .error fault
  | .error (.path fault) => .ok (.troubled tree (.path fault))

end UtilityCss.Command
