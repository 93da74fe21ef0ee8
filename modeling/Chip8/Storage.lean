/-
Files by their paths.  A path is followed component by component, from the starting
folder or from the root of the system.  What a path leads to is known for what was made
and for a few folders of the system; every folder on the way to a file exists as well.
-/
import Chip8.Text.Quoted

namespace Chip8

/-- Why a file cannot be read. -/
inductive ReadError
  /-- A path cannot hold the character of code zero. -/
  | embeddedNul
  /-- The number and the words of the system for what went wrong. -/
  | system (number : Nat) (reason : String)
deriving Repr, DecidableEq

namespace ReadError

def missing : ReadError := .system 2 "No such file or directory"

def throughFile : ReadError := .system 20 "Not a directory"

def isFolder : ReadError := .system 21 "Is a directory"

def nameTooLong : ReadError := .system 36 "File name too long"

/-- The text for a path that cannot be read. -/
def message (path : String) : ReadError → String
  | .embeddedNul => "embedded null byte"
  | .system number reason =>
      "[Errno " ++ number.repr ++ "] " ++ reason ++ ": " ++ Quoted.text path

end ReadError

/-- The components of a path, which slashes separate. -/
def pathComponents (path : String) : List String :=
  (path.splitOn "/").filter (· ≠ "")

/-- A folder or file: the components to it, innermost first, from a folder on the way
that leads from the root of the system down to the starting folder. -/
structure Location where
  /-- How many folders that folder lies below the root. -/
  depth : Nat
  inner : List String := []
deriving Repr, DecidableEq

namespace Location

/-- The depth of the starting folder. -/
def startDepth : Nat := 2

/-- Where a path starts: at the root when there is a slash in front. -/
def ofPath (path : String) : Location where
  depth := if path.toList.head? = some '/' then 0 else startDepth

/-- Follow one component, whether it exists or not.  The root lies above itself. -/
def step (here : Location) : String → Location
  | "." => here
  | ".." =>
      match here.inner with
      | [] => { here with depth := here.depth - 1 }
      | _ :: outer => { here with inner := outer }
  | name => { here with inner := name :: here.inner }

/-- Follow components one after the other. -/
def follow (here : Location) (components : List String) : Location :=
  components.foldl step here

/-- The locations on the way along components, both ends included. -/
def passed (here : Location) (components : List String) : List Location :=
  (List.range (components.length + 1)).map fun count =>
    here.follow (components.take count)

end Location

/-- The folders that lie in the root of every system. -/
def systemFolders : List String :=
  ["bin", "boot", "dev", "etc", "home", "lib", "media", "mnt", "opt", "proc", "root",
    "run", "sbin", "srv", "sys", "tmp", "usr", "var"]

/-- Files with their contents, and folders.  Every system has the empty file of all that
is thrown away. -/
structure Storage where
  files : List (Location × List UInt8) := [({ depth := 0, inner := ["null", "dev"] }, [])]
  folders : List Location :=
    systemFolders.map fun name => { depth := 0, inner := [name] }
deriving Repr, DecidableEq

/-- Where the components of a path have led to. -/
inductive Place
  | folder (location : Location)
  | file (content : List UInt8)
  | nothing
deriving Repr, DecidableEq

namespace Storage

/-- Make a folder, and those on the way to it. -/
def addFolder (storage : Storage) (path : String) : Storage :=
  { storage with
    folders := (Location.ofPath path).passed (pathComponents path) ++ storage.folders }

/-- Write a file, in place of one that lies there already. -/
def addFile (storage : Storage) (path : String) (content : List UInt8) : Storage :=
  let components := pathComponents path
  let start := Location.ofPath path
  let location := start.follow components
  { files := (location, content) :: storage.files.filter (·.1 ≠ location)
    folders := start.passed components.dropLast ++ storage.folders }

/-- What lies at a location.  The folders down to the starting folder always exist. -/
def find (storage : Storage) (location : Location) : Place :=
  match storage.files.find? (·.1 = location) with
  | some file => .file file.2
  | none =>
      if location.inner = [] ∨ location ∈ storage.folders then .folder location
      else .nothing

/-- Follow one more component. -/
def enter (storage : Storage) : Place → String → Except ReadError Place
  | .nothing, _ => .error .missing
  | .file _, _ => .error .throughFile
  | .folder location, name =>
      if 255 < name.utf8ByteSize then .error .nameTooLong
      else .ok (storage.find (location.step name))

/-- The content of a place, if it is a file and the path does not go on. -/
def contentAt (path : String) : Place → Except ReadError (List UInt8)
  | .file content =>
      if path.toList.getLast? = some '/' then .error .throughFile else .ok content
  | .nothing => .error .missing
  | .folder _ => .error .isFolder

/-- Read the file of a path. -/
def read (storage : Storage) (path : String) : Except ReadError (List UInt8) :=
  if path.toList.contains (Char.ofNat 0) then .error .embeddedNul
  else if path = "" then .error .missing
  else if 4095 < path.utf8ByteSize then .error .nameTooLong
  else do
    let start : Place := .folder (Location.ofPath path)
    contentAt path (← (pathComponents path).foldlM storage.enter start)

end Storage

end Chip8
