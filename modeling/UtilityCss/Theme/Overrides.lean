import UtilityCss.Files.Tree
import UtilityCss.Json.Reader

/-! Overrides in a file. -/
namespace UtilityCss.Theme

/-- Why a file holds no overrides. -/
inductive OverridesFault
  | file (fault : FileFault)
  | notUtf8 (fault : Text.Utf8.Fault)
  | notJson (fault : Json.Fault)
  | notMap (path : String)

/-- The message for a fault. -/
def OverridesFault.message : OverridesFault → String
  | .file fault => fault.message
  | .notUtf8 fault => fault.message
  | .notJson fault => fault.message
  | .notMap path => "Configuration file " ++ path ++ " must contain a JSON object"

/-- Whether a fault lies in what the file holds. -/
def OverridesFault.isOfContent : OverridesFault → Bool
  | .file fault => fault.problem == .zeroInPath
  | _ => true

/-- Reads overrides. The path is taken as it is written. -/
def readOverrides (tree : FileTree) (path : String) :
    Except OverridesFault (List (String × Json.Value)) :=
  match tree.node? path with
  | .error problem => .error (.file ⟨problem, path⟩)
  | .ok (.dir ..) => .error (.file ⟨.isDirectory, path⟩)
  | .ok (.file content _) =>
    match content.decode with
    | .error fault => .error (.notUtf8 fault)
    | .ok s =>
      match Json.read (Text.unifyNewlines s) with
      | .error fault => .error (.notJson fault)
      | .ok (.map entries) => .ok entries
      | .ok _ => .error (.notMap path)

end UtilityCss.Theme
