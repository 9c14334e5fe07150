import UtilityCss.Command.Run

/-! The program. The names of the files of the project come in on standard input, one on a line, and
a name with a slash at its end is that of a directory; the arguments are those of the commands. -/
namespace UtilityCss.Main

open Project (Event Watch)

/-- The bytes of a file, if it can be read. -/
def readFile? (path : String) : IO (Option Content) := do
  try
    let bytes ← IO.FS.readBinFile path
    return some (.bytes bytes.toList)
  catch _ => return none

/-- The lines of the input. -/
partial def readNames (input : IO.FS.Stream) (names : Array String) : IO (Array String) := do
  let line ← input.getLine
  if line.isEmpty then return names
  let name := String.ofList (line.toList.filter (· != '\n'))
  readNames input (if name.isEmpty then names else names.push name)

/-- Brings the tree up to date with the file of a name. -/
def refresh (tree : FileTree) (name : String) : IO FileTree := do
  if name.toList.getLast? = some '/' then return (tree.change (.makeDirectory name)).1
  let found ← readFile? name
  let known := tree.text? name
  match found with
  | some content =>
    if known = some content.raw then return tree
    else return (tree.change (.write name content)).1
  | none => return if known.isSome then (tree.change (.remove name)).1 else tree

/-- Writes a text of the tree to its file. -/
def save (tree : FileTree) (path : String) : IO Unit := do
  if let some text := tree.text? path then
    IO.FS.createDirAll (Path.ofText path).parent.text
    IO.FS.writeFile path text

/-- The message for trouble. -/
def troubleMessage : Command.Trouble → String
  | .project fault => fault.message
  | .overrides fault => fault.message
  | .path fault => fault.message

/-- The milliseconds of a time in seconds; a time that is none is zero. -/
def milliseconds : Text.Real64 → UInt32
  | .finite false m e =>
    let ratio := Text.Real64.scale 2 e (m * 1000, 1)
    UInt32.ofNat (min 3600000 (ratio.1 / ratio.2))
  | _ => 0

/-- Watches until the program is stopped or a fault ends the watch. -/
partial def watchOn (names : Array String) (pause : UInt32) (w : Watch) : IO UInt32 := do
  IO.sleep pause
  let before := w.output?
  let tree ← names.foldlM refresh w.tree
  let (next, fault) := { w with tree }.poll
  unless next.output? = before do save next.tree next.session.outfile
  match fault with
  | none => watchOn names pause next
  | some fault =>
    IO.eprintln (Text.plainOutput fault.message)
    return 1

/-- Writes a report. -/
def tell (report : Command.Report) : IO UInt32 := do
  IO.print report.output
  IO.eprint report.messages
  if let some trouble := report.trouble then IO.eprintln (troubleMessage trouble)
  return UInt32.ofNat report.exitCode

/-- Starts to watch. -/
def watchFrom (names : Array String) (tree : FileTree) (s : Command.BuildSettings) :
    IO UInt32 := do
  match Command.optionsOf tree s with
  | .error report => tell report
  | .ok options =>
    match Command.startWatch tree options with
    | .error report => tell report
    | .ok w =>
      IO.print (Text.plainOutput (Command.watchText w.session.outfile))
      save w.tree w.session.outfile
      watchOn names (milliseconds s.interval) w

/-- Runs a command that ends by itself. -/
def runOnce (tree : FileTree) (command : Command) : IO UInt32 := do
  let report := command.run tree []
  if let .build { outfile := some outfile, .. } := command then
    if report.exitCode = 0 then save report.tree outfile
  tell report

end UtilityCss.Main

open UtilityCss in
/-- Runs the program. -/
def main (args : List String) : IO UInt32 := do
  let names ← Main.readNames (← IO.getStdin) #[]
  let tree ← names.foldlM Main.refresh { root := .dir [("here", .dir [] 0)] 0, home := ["here"] }
  match Command.read tree args with
  | .error (.usage fault) =>
    IO.eprintln ("Error: " ++ fault.message)
    return 2
  | .error (.path fault) =>
    IO.eprintln fault.message
    return 1
  | .ok (.build settings) =>
    if settings.watch then Main.watchFrom names tree settings
    else Main.runOnce tree (.build settings)
  | .ok command => Main.runOnce tree command
