import UtilityCss.Files.Fault
import UtilityCss.Rule.Basic

/-! What can be wrong with an authored style sheet. -/
namespace UtilityCss.Sheet

/-- The causes of a fault. A cause may also be described by the one who found it. -/
inductive Cause
  | braceExpected (found : String)
  | openBlock
  | openLayer
  | circularImport (child statement : String)
  | notUtf8
  | notAClass (selector : String)
  | described (words : String) (token : Option String)
  deriving DecidableEq, Repr

/-- The words for a cause. -/
def Cause.words : Cause → String
  | .braceExpected found => "Failed to read block: expected \"\x7b\", got \"" ++ found ++ "\""
  | .openBlock => "Unterminated block: expected \"\x7d\" before end of file"
  | .openLayer => "Unterminated @layer utilities block"
  | .circularImport child _ => "Circular @import of " ++ child
  | .notUtf8 => "File is not valid UTF-8"
  | .notAClass selector =>
    "Invalid @layer utilities class: \"" ++ selector ++
      "\". Class names should start with a \".\""
  | .described words _ => words

/-- The token at which a fault was found. -/
def Cause.token? : Cause → Option String
  | .braceExpected found => some found
  | .circularImport _ statement => some statement
  | .described _ token => token
  | _ => none

/-- A cause and the file that has it. -/
structure Fault where
  cause : Cause
  file : Option String := none
  deriving DecidableEq, Repr

/-- The message for a fault begins with the name of the file, if there is one. -/
def Fault.message (f : Fault) : String :=
  match f.file with
  | none => f.cause.words
  | some file => if file.isEmpty then f.cause.words else file ++ ": " ++ f.cause.words

/-- Why a style sheet cannot be processed. -/
inductive Failure
  | faulty (fault : Fault)
  | unreadable (fault : FileFault)
  | dotted (fault : DottedName)
  deriving DecidableEq, Repr

end UtilityCss.Sheet
