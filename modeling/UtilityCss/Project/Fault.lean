import UtilityCss.Sheet.Fault
import UtilityCss.Theme.Basic

/-! What can go wrong with a project. -/
namespace UtilityCss.Project

/-- The tasks that need an output file. -/
inductive OutputTask
  | once
  | session
  deriving DecidableEq, Repr

/-- Why a project cannot be built or kept up to date. -/
inductive Fault
  | theme (fault : Theme.Fault)
  | sheet (failure : Sheet.Failure)
  | file (fault : FileFault)
  | noOutput (task : OutputTask)
  deriving DecidableEq, Repr

/-- The words for a task without output file. -/
def OutputTask.message : OutputTask → String
  | .once => "write_css requires BuildOptions.outfile"
  | .session => "BuildSession requires BuildOptions.outfile"

/-- Whether the next change of a file may mend a fault: it lies in a style sheet or in what files
and directories there are. Such a fault is reported and leaves the last good build standing. -/
def Fault.isMendable : Fault → Bool
  | .sheet (.faulty _) => true
  | .sheet (.unreadable fault) => fault.problem != .zeroInPath
  | .sheet (.dotted _) => false
  | .file fault => fault.problem != .zeroInPath
  | .theme _ => false
  | .noOutput _ => false

/-- The message for a fault. A fault of a theme has none. -/
def Fault.message : Fault → String
  | .sheet (.faulty fault) => fault.message
  | .sheet (.unreadable fault) => fault.message
  | .sheet (.dotted fault) => fault.message
  | .file fault => fault.message
  | .theme _ => ""
  | .noOutput task => task.message

end UtilityCss.Project
