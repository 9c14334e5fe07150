import UtilityCss.Text.Quoted

/-! What can go wrong with a file. -/
namespace UtilityCss

/-- Why a path cannot be used. A path that holds a zero character is not even looked up. -/
inductive FileProblem
  | notFound
  | alreadyExists
  | notDirectory
  | isDirectory
  | nameTooLong
  | zeroInPath
  deriving DecidableEq, Repr

/-- A problem and the path that has it. -/
structure FileFault where
  problem : FileProblem
  path : String
  deriving DecidableEq, Repr

/-- The number and the words of the system for a problem. -/
def FileProblem.words : FileProblem → String
  | .notFound => "[Errno 2] No such file or directory"
  | .alreadyExists => "[Errno 17] File exists"
  | .notDirectory => "[Errno 20] Not a directory"
  | .isDirectory => "[Errno 21] Is a directory"
  | .nameTooLong => "[Errno 36] File name too long"
  | .zeroInPath => "embedded null byte"

/-- The message for a fault. -/
def FileFault.message (f : FileFault) : String :=
  match f.problem with
  | .zeroInPath => f.problem.words
  | _ => f.problem.words ++ ": " ++ Text.quoted f.path

end UtilityCss
