/-!
# Folders

The file system as far as saving a program can see it: one folder of files, without folders
inside.  `Folder.write` says which paths cannot be written and why.
-/

namespace QuantumCircuit

/-- The files of a folder, by name. -/
structure Folder where
  files : List (String × String)
  deriving DecidableEq, Repr

/-- Why a file cannot be written. -/
inductive WriteFault
  | notFound
  | isFolder
  deriving DecidableEq, Repr

/-- The text with which a system reports the fault. -/
def WriteFault.message : WriteFault → String
  | notFound => "No such file or directory (os error 2)"
  | isFolder => "Is a directory (os error 21)"

namespace Folder

/-- The folder without files. -/
def empty : Folder := ⟨[]⟩

/-- A step of a path that leads to a folder that is there. -/
def isFolderStep (step : String) : Bool := step == "" || step == "." || step == ".."

/-- The name of the file that a path leads to.  A path without a name is that of a folder, and
so is one with a stroke at its end; there is no folder inside the folder to go through. -/
def fileName (path : String) : Except WriteFault String :=
  if path.isEmpty then .error .notFound
  else
    match ((path.toList.splitOn '/').map String.ofList).dropWhile isFolderStep with
    | [] => .error .isFolder
    | [name] => .ok name
    | _ :: rest => .error (if rest.all (· == "") then .isFolder else .notFound)

/-- Writes a file, in place of one of the same name. -/
def write (f : Folder) (path text : String) : Except WriteFault Folder :=
  (fileName path).map fun name => ⟨(name, text) :: f.files.filter (·.1 != name)⟩

/-- What a file contains. -/
def read? (f : Folder) (path : String) : Option String :=
  match fileName path with
  | .ok name => f.files.lookup name
  | .error _ => none

end Folder

end QuantumCircuit
