import Conduit.Text.Blank
import Conduit.Text.Utf8

/-!
# Files

A tree of folders and files, and the usual operations on it. A path is a text of names between
slashes; a name that is empty or a dot stays where it is, two dots go back.
-/

namespace Conduit

inductive FileError
  | notFound
  | exists
  | notDirectory
  | isDirectory
  /-- The content is not text. -/
  | notText
deriving DecidableEq, Repr

def FileError.message : FileError → String
  | .notFound => "No such file or directory (os error 2)"
  | .exists => "File exists (os error 17)"
  | .notDirectory => "Not a directory (os error 20)"
  | .isDirectory => "Is a directory (os error 21)"
  | .notText => "stream did not contain valid UTF-8"

inductive Files
  | file (content : Bytes)
  | folder (entries : List (String × Files))
deriving Inhabited

namespace Files

def empty : Files := .folder []

/-! ## Paths -/

/-- The names on a path, a step back undoing the name before it. This goes by the text of the path
alone, where an operating system goes by the folders: it also goes back from what is not there, or
is no folder. -/
def names (path : String) : List String :=
  ((Text.split '/' path).foldl (fun back name =>
    if name = ".." then (back.dropWhile fun name => name = "" ∨ name = ".").tail
    else name :: back) []).reverse

def isAbsolute (path : String) : Bool := path.startsWith "/"

/-- Two paths one after the other; an absolute one stands alone. -/
def join (base path : String) : String :=
  if isAbsolute path then path
  else if base = "" ∨ base.endsWith "/" then base ++ path
  else base ++ "/" ++ path

/-- The path of the folder that a path is in. -/
def parent (path : String) : Option String :=
  match ((Text.split '/' path).reverse.dropWhile fun name => name = "" ∨ name = ".") with
  | [] => none
  | _ :: before =>
    match before.dropWhile (· = "") with
    | [] => some (if isAbsolute path then "/" else "")
    | rest => some ("/".intercalate rest.reverse)

/-! ## Looking -/

/-- What the names lead to. -/
def walk : Files → List String → Except FileError Files
  | f, [] => .ok f
  | .file _, _ :: _ => .error .notDirectory
  | .folder entries, name :: rest =>
    if name = "" ∨ name = "." then walk (.folder entries) rest
    else
      match entries.lookup name with
      | some f => walk f rest
      | none => .error .notFound
termination_by _ names => names.length

def find (root : Files) (path : String) : Except FileError Files :=
  if path = "" then .error .notFound else walk root (names path)

def «exists» (root : Files) (path : String) : Bool := (root.find path).toOption.isSome

def isFolder (root : Files) (path : String) : Bool :=
  match root.find path with
  | .ok (.folder _) => true
  | _ => false

def read (root : Files) (path : String) : Except FileError Bytes := do
  match ← root.find path with
  | .file content => return content
  | .folder _ => throw .isDirectory

def readText (root : Files) (path : String) : Except FileError String := do
  (Utf8.decode (← root.read path)).mapError fun _ => .notText

/-! ## Changing -/

def setEntry (name : String) (f : Files) : List (String × Files) → List (String × Files)
  | [] => [(name, f)]
  | (n, g) :: rest => if n = name then (name, f) :: rest else (n, g) :: setEntry name f rest

/-- Changes what the names lead to; the change is told what is there, if anything is. -/
def update (change : Option Files → Except FileError Files) :
    Files → List String → Except FileError Files
  | f, [] => change (some f)
  | .file _, _ :: _ => .error .notDirectory
  | .folder entries, name :: rest =>
    if name = "" ∨ name = "." then update change (.folder entries) rest
    else
      match entries.lookup name with
      | some f => (update change f rest).map fun f => .folder (setEntry name f entries)
      | none =>
        if rest = [] then (change none).map fun f => .folder (setEntry name f entries)
        else .error .notFound
termination_by _ names => names.length

/-- Changes the content of a file, or of a new empty one. -/
def edit (root : Files) (path : String) (f : Bytes → Bytes) : Except FileError Files :=
  if path = "" then .error .notFound
  else root.update (fun
    | none => .ok (.file (f []))
    | some (.file content) => .ok (.file (f content))
    | some (.folder _) => .error .isDirectory) (names path)

def write (root : Files) (path : String) (content : Bytes) : Except FileError Files :=
  root.edit path fun _ => content

def append (root : Files) (path : String) (content : Bytes) : Except FileError Files :=
  root.edit path (· ++ content)

/-- Makes a folder in one that is there. -/
def makeFolder (root : Files) (path : String) : Except FileError Files :=
  if path = "" then .error .notFound
  else root.update (fun
    | none => .ok empty
    | some _ => .error .exists) (names path)

/-- Makes a folder with all folders on the way to it, unless they are there. -/
def makeFolders (root : Files) (path : String) : Except FileError Files :=
  go (names path).length root path
where
  go : Nat → Files → String → Except FileError Files
    | 0, root, _ => .ok root
    | n + 1, root, path =>
      if path = "" then .ok root
      else
        match root.makeFolder path with
        | .ok root => .ok root
        | .error .notFound =>
          match parent path with
          | none => .error .notFound
          | some up => do
            let root ← go n root up
            root.makeFolder path
        | .error e => if root.isFolder path then .ok root else .error e

/-- Makes a file and the folders on the way to it, as far as that can be done. -/
def place (root : Files) (path : String) (content : Bytes) : Files :=
  let root := ((parent path).bind fun up => (root.makeFolders up).toOption).getD root
  (root.write path content).toOption.getD root

end Files

end Conduit
