import Provenance.Os
import Provenance.Text.Bytes
import Provenance.Text.Lines

/-!
# Folders

A folder holds files, possibly below subfolders, and stands for the directory that a program
works in. A path is followed component by component, from a directory of the folder or from
the root of the system, of which the usual directories and devices are known.

## Implementation notes

The components of an absolute path begin with a slash, which is no name, so that one list
holds the files of the folder and those that are put elsewhere.
-/

namespace Provenance

/-- Files by the components of their paths, and subfolders without files. A subfolder also
exists where a file lies below it. -/
structure Folder where
  files : List (List String × List UInt8)
  subfolders : List (List String)
  deriving DecidableEq, Repr

/-- Where following a path has led. -/
inductive Directory
  /-- Above the folder, in directories about which nothing is known. -/
  | outside
  | at (path : List String)
  deriving DecidableEq, Repr

/-- Files that hold nothing that was written to them. -/
inductive Device
  | null
  /-- Zeros without end. -/
  | zero
  /-- A device on which there is no space. -/
  | full
  /-- One of the streams that a program begins with. -/
  | stream (number : Nat)
  deriving DecidableEq, Repr

/-- What a path leads to. -/
inductive Folder.Target
  | file (path : List String) (contents : List UInt8)
  | device (d : Device)
  | directory (d : Directory)
  /-- Nothing, though its directory exists. -/
  | vacant (path : List String)
  deriving DecidableEq, Repr

namespace Folder

/-- A folder without files. -/
def empty : Folder := ⟨[], []⟩

/-- Longest name of a file in bytes. -/
def nameLimit : Nat := 255

/-- Length in bytes from which on a path is too long. -/
def pathLimit : Nat := 4096

def root : List String := ["/"]

/-- Where the folder itself lies. -/
def home : List String := ["/", "work"]

/-- The usual directories of a system. -/
def systemDirectories : List (List String) :=
  [[], ["bin"], ["boot"], ["dev"], ["etc"], ["home"], ["lib"], ["media"], ["mnt"], ["opt"],
    ["proc"], ["root"], ["run"], ["sbin"], ["srv"], ["sys"], ["tmp"], ["usr"], ["usr", "bin"],
    ["usr", "lib"], ["usr", "local"], ["usr", "local", "bin"], ["usr", "sbin"],
    ["usr", "share"], ["var"], ["var", "log"], ["var", "tmp"], ["dev", "fd"], ["dev", "shm"],
    ["proc", "self"], ["proc", "self", "fd"]].map
    fun path => "/" :: path

/-- The devices by name. -/
def device? (path : List String) : Option Device :=
  match path with
  | ["/", "dev", "null"] => some .null
  | ["/", "dev", "zero"] => some .zero
  | ["/", "dev", "full"] => some .full
  | ["/", "dev", "stdin"] | ["/", "dev", "fd", "0"] | ["/", "proc", "self", "fd", "0"] =>
    some (.stream 0)
  | ["/", "dev", "stdout"] | ["/", "dev", "fd", "1"] | ["/", "proc", "self", "fd", "1"] =>
    some (.stream 1)
  | ["/", "dev", "stderr"] | ["/", "dev", "fd", "2"] | ["/", "proc", "self", "fd", "2"] =>
    some (.stream 2)
  | _ => none

/-- The components of a path; those that are empty or name the directory itself are kept. -/
def components (path : String) : List String :=
  (Text.splitAt '/' path.toList).map String.ofList

def lookup? (f : Folder) (path : List String) : Option (List UInt8) := f.files.lookup path

/-- There is a directory at the path. -/
def hasDirectory (f : Folder) (path : List String) : Bool :=
  path = [] || systemDirectories.contains path || f.subfolders.contains path ||
    f.files.any fun (p, _) => path.isPrefixOf p && path.length < p.length

/-- What a name leads to in a directory. -/
def arrive (f : Folder) (place : Directory) (name : String) : Except OsError Target :=
  if name = "" ∨ name = "." then .ok (.directory place)
  else if nameLimit < Text.byteLength name.toList then .error .nameTooLong
  else
    match place with
    | .outside => if name = ".." then .ok (.directory .outside) else .error .noEntry
    | .at path =>
      if name = ".." then
        .ok (.directory (if path = [] then .outside
          else if path = root then .at root
          else .at path.dropLast))
      else
        let path := if path ++ [name] = home then [] else path ++ [name]
        match f.lookup? path, device? path with
        | some contents, _ => .ok (.file path contents)
        | none, some d => .ok (.device d)
        | none, none =>
          .ok (if f.hasDirectory path then .directory (.at path) else .vacant path)

/-- Follow the components of a path. -/
def follow (f : Folder) : Directory → List String → Except OsError Target
  | place, [] => .ok (.directory place)
  | place, [name] => f.arrive place name
  | place, name :: rest =>
    match f.arrive place name with
    | .ok (.directory place) => f.follow place rest
    | .ok (.vacant _) => .error .noEntry
    | .ok _ => .error .notDirectory
    | .error e => .error e

/-- What a path leads to, seen from a directory. The empty path leads nowhere. -/
def resolveFrom (f : Folder) (place : Directory) (path : String) : Except OsError Target :=
  if path = "" then .error .noEntry
  else if pathLimit ≤ Text.byteLength path.toList then .error .nameTooLong
  else f.follow (if path.toList.head? = some '/' then .at root else place) (components path)

/-- What a path leads to. -/
def resolve (f : Folder) (path : String) : Except OsError Target := f.resolveFrom (.at []) path

/-- The stream of a program itself that a path names, if it names one. -/
def stream? (path : String) : Option Nat :=
  match empty.resolve path with
  | .ok (.device (.stream n)) => some n
  | _ => none

/-- Read a file. Nobody writes to the streams that a program begins with. -/
def read (f : Folder) (path : String) : Except OsError (List UInt8) :=
  match f.resolve path with
  | .ok (.file _ contents) => .ok contents
  | .ok (.device _) => .ok []
  | .ok (.directory _) => .error .isDirectory
  | .ok (.vacant _) => .error .noEntry
  | .error e => .error e

/-- Replace or add a file whose components are known. -/
def put (f : Folder) (path : List String) (contents : List UInt8) : Folder :=
  if (f.lookup? path).isSome then
    { f with files := f.files.map fun (p, c) => if p = path then (p, contents) else (p, c) }
  else { f with files := f.files ++ [(path, contents)] }

/-- A path without slashes at its end. -/
def trimSlashes (path : String) : String :=
  String.ofList (path.toList.reverse.dropWhile (· = '/')).reverse

/-- The file or device that a path names for writing. A path that ends in a slash names
none. -/
def forWriting (f : Folder) (place : Directory) (path : String) :
    Except OsError (Device ⊕ List String) :=
  if path ≠ "" ∧ trimSlashes path = "" then .error .isDirectory
  else
    match f.resolveFrom place (trimSlashes path), decide (path = trimSlashes path) with
    | .ok (.file p _), true | .ok (.vacant p), true => .ok (.inr p)
    | .ok (.device d), true => .ok (.inl d)
    | .ok _, _ => .error .isDirectory
    | .error e, _ => .error e

/-- Write a file, replacing what it held. -/
def write (f : Folder) (path : String) (contents : List UInt8) : Except OsError Folder :=
  match f.forWriting (.at []) path with
  | .ok (.inr p) => .ok (f.put p contents)
  | .ok (.inl .full) => if contents = [] then .ok f else .error .noSpace
  | .ok (.inl _) => .ok f
  | .error e => .error e

/-- Remove a file whose components are known. The directory that it was in is still there. -/
def remove (f : Folder) (path : List String) : Folder :=
  let parent := path.dropLast
  ⟨f.files.filter fun (p, _) => p ≠ path,
    if f.subfolders.contains parent ∨ parent = [] then f.subfolders
    else f.subfolders ++ [parent]⟩

/-- The components of an existing file, by whatever path it is named. -/
def locate (f : Folder) (path : String) : Except OsError (List String) :=
  match f.resolve path with
  | .ok (.file p _) => .ok p
  | .ok (.device _) => .ok (components path)
  | .ok (.directory _) => .ok []
  | .ok (.vacant _) => .error .noEntry
  | .error e => .error e

/-- The files of the folder itself. -/
def ownFiles (f : Folder) : List (List String × List UInt8) :=
  f.files.filter fun (p, _) => p.head? ≠ some "/"

/-- The names in a directory, in order. -/
def names (f : Folder) (d : Directory) : List String :=
  match d with
  | .outside => []
  | .at path =>
    let below := (f.files.map Prod.fst ++ f.subfolders ++
      systemDirectories).filterMap fun p =>
        if path.isPrefixOf p && (path ≠ [] || p.head? ≠ some "/") then
          (p.drop path.length).head? else none
    (below.eraseDups).mergeSort fun a b => !decide (b < a)

end Folder

end Provenance
