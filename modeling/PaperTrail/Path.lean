import PaperTrail.Text.Split

/-!
# Paths

Names of files and directories, joined by slashes. Empty names and single points have no meaning.

* `Path.components` : the names of a path;
* `Path.parent` : the path of the directory that holds a file;
* `Path.isRelative`, `Path.isFileName` : the paths and names that can be used.
-/

namespace PaperTrail.Path

def components (path : String) : List String := Text.split '/' path

/-- Whether a part of a path is the name of something, or two points. -/
def isMeaningful (name : String) : Bool := !name.isEmpty && name != "."

/-- The part at the start that says from where a path goes. -/
def start (path : String) : List String :=
  match components path with
  | "." :: _ => ["."]
  | "" :: _ => [""]
  | _ => []

/-- The path of the directory that holds a file: its names but the last one. -/
def parent (path : String) : String :=
  "/".intercalate (start path ++ ((components path).filter isMeaningful).dropLast)

/-- Whether a path can lead anywhere: it is not empty, relative, and has no zero character. -/
def isRelative (path : String) : Bool :=
  match path.toList with
  | [] => false
  | '/' :: _ => false
  | cs => cs.all fun c => c.toNat ≠ 0

def maxNameBytes : Nat := 255

def isFileName (name : String) : Bool := decide (name.utf8ByteSize ≤ maxNameBytes)

end PaperTrail.Path
