import Oncall.Instant
import Oncall.Text.Parts
import Oncall.Text.Utf8

/-!
A small file system: files with content, directories, and the time of each one's last change. Names
have at most 255 bytes, paths less than 4096, and neither has a NUL. Relative paths start at the
root. A path that ends in a slash or a dot can only mean a directory. Making a directory together
with those above it may fail on the way, and then keeps what it has made.
-/

namespace Oncall

inductive FileError where
  | notFound
  | notADirectory
  | isADirectory
  | alreadyExists
  | invalidName
  | invalidInput
  | invalidData
  deriving DecidableEq, Repr

def FileError.message : FileError → String
  | .notFound => "there is no such file"
  | .notADirectory => "not a directory"
  | .isADirectory => "is a directory"
  | .alreadyExists => "the file exists already"
  | .invalidName => "the file name is too long"
  | .invalidInput => "the file name cannot be used"
  | .invalidData => "the file is not text"

inductive FileEntry where
  | file (content : Bytes) (changed : Instant)
  | directory (changed : Instant)

def FileEntry.changed : FileEntry → Instant
  | .file _ changed | .directory changed => changed

def FileEntry.touch (t : Instant) : FileEntry → FileEntry
  | .file content _ => .file content t
  | .directory _ => .directory t

/-- The names from the root to an entry. -/
abbrev Location := List String

/-- What the last name of a path stands for: an entry of a directory, which a slash after it
requires to be a directory, or, if it is a dot or two, a directory that is there already. -/
inductive Target where
  | entry (l : Location) (asDirectory : Bool)
  | directory (l : Location)
  deriving DecidableEq

def Target.location : Target → Location
  | .entry l _ | .directory l => l

/-- A name under a directory. -/
def joinPath (dir name : String) : String :=
  if dir.isEmpty then name
  else if dir.toList.getLast? = some '/' then dir ++ name
  else dir ++ "/" ++ name

/-- The directory of a path, as it is written there. -/
def parentPath (path : String) : String :=
  let cs := Parts.trimEnd (· = '/') path.toList
  match Parts.trimEnd (· = '/') (Parts.trimEnd (· ≠ '/') cs) with
  | [] => if path.toList.head? = some '/' then "/" else ""
  | cs => String.ofList cs

/-- A path that may be relative to a directory. -/
def pathFrom (dir path : String) : String :=
  if path.toList.head? = some '/' then path else joinPath dir path

structure FileSystem where
  entries : List (Location × FileEntry)
  clock : Instant

namespace FileSystem

def empty (clock : Instant) : FileSystem := ⟨[], clock⟩

/-- What is at a location; the root is a directory. -/
def lookup? (fs : FileSystem) (l : Location) : Option FileEntry :=
  if l = [] then some (.directory Instant.epoch) else fs.entries.lookup l

def set (fs : FileSystem) (l : Location) (e : FileEntry) : FileSystem :=
  { fs with entries := (l, e) :: fs.entries.filter fun x => x.1 ≠ l }

def delete (fs : FileSystem) (l : Location) : FileSystem :=
  { fs with entries := fs.entries.filter fun x => x.1 ≠ l }

/-- The names of a path; slashes in a row count as one. -/
def names (path : String) : List String :=
  ((Parts.split (· = '/') path.toList).map String.ofList).filter (· ≠ "")

def isTooLong (name : String) : Bool := 255 < name.utf8ByteSize

/-- Enters directories one after the other. -/
def enter (fs : FileSystem) (here : Location) : List String → Except FileError Location
  | [] => .ok here
  | "." :: rest => fs.enter here rest
  | ".." :: rest => fs.enter here.dropLast rest
  | name :: rest =>
    if isTooLong name then .error .invalidName
    else
      match fs.lookup? (here ++ [name]) with
      | none => .error .notFound
      | some (.file _ _) => .error .notADirectory
      | some (.directory _) => fs.enter (here ++ [name]) rest

/-- Enters every directory of a path but the last, and looks at the last name only. -/
def locate (fs : FileSystem) (path : String) : Except FileError Target :=
  if path.toList.contains (Char.ofNat 0) then .error .invalidInput
  else if path.isEmpty then .error .notFound
  else if 4096 ≤ path.utf8ByteSize then .error .invalidName
  else
    match (names path).getLast? with
    | none => .ok (.directory [])
    | some "." | some ".." => (fs.enter [] (names path)).map .directory
    | some name => do
      let here ← fs.enter [] (names path).dropLast
      if isTooLong name then .error .invalidName
      else .ok (.entry (here ++ [name]) (path.toList.getLast? = some '/'))

/-- What is at the end of a path. -/
def resolve (fs : FileSystem) : Target → Except FileError FileEntry
  | .directory l => (fs.lookup? l).elim (.error .notFound) .ok
  | .entry l asDirectory =>
    match fs.lookup? l with
    | none => .error .notFound
    | some (.file content changed) =>
      if asDirectory then .error .notADirectory else .ok (.file content changed)
    | some e => .ok e

/-- An existing entry and where it is. -/
def find (fs : FileSystem) (path : String) : Except FileError (Target × FileEntry) := do
  let target ← fs.locate path
  .ok (target, ← fs.resolve target)

/-- When the entry at a path was last changed. -/
def changed (fs : FileSystem) (path : String) : Except FileError Instant := do
  let (_, e) ← fs.find path
  .ok e.changed

def isDirectory (fs : FileSystem) (path : String) : Bool :=
  match fs.find path with
  | .ok (_, .directory _) => true
  | _ => false

def read (fs : FileSystem) (path : String) : Except FileError Bytes := do
  match ← fs.find path with
  | (_, .file content _) => .ok content
  | (_, .directory _) => .error .isADirectory

/-- The content of a file as text. -/
def readText (fs : FileSystem) (path : String) : Except FileError String := do
  match Utf8.decode? (← fs.read path) with
  | some cs => .ok (String.ofList cs)
  | none => .error .invalidData

/-- Creates or overwrites a file. -/
def write (fs : FileSystem) (path : String) (content : Bytes) : Except FileError FileSystem := do
  match ← fs.locate path with
  | .directory _ | .entry _ true => .error .isADirectory
  | .entry l false =>
    match fs.lookup? l with
    | some (.directory _) => .error .isADirectory
    | _ => .ok (fs.set l (.file content fs.clock))

/-- Removes a file. -/
def remove (fs : FileSystem) (path : String) : Except FileError FileSystem := do
  match ← fs.find path with
  | (target, .file _ _) => .ok (fs.delete target.location)
  | (_, .directory _) => .error .isADirectory

/-- Removes a directory with all below it, or a file; a directory that is named by a dot stays, and
is left empty. -/
def removeAll (fs : FileSystem) (path : String) : Except FileError FileSystem := do
  let (target, _) ← fs.find path
  let l := target.location
  let stays (m : Location) : Bool := !l.isPrefixOf m || (target = .directory l && m = l)
  .ok { fs with entries := fs.entries.filter fun x => stays x.1 }

/-- Sets the time of an entry's last change. -/
def touch (fs : FileSystem) (path : String) (t : Instant) : Except FileError FileSystem := do
  let (target, e) ← fs.find path
  .ok (fs.set target.location (e.touch t))

def makeDirectory (fs : FileSystem) (path : String) : Except FileError FileSystem := do
  match ← fs.locate path with
  | .directory _ => .error .alreadyExists
  | .entry l _ =>
    match fs.lookup? l with
    | some _ => .error .alreadyExists
    | none => .ok (fs.set l (.directory fs.clock))

/-- Makes a directory unless it is there. -/
def ensureDirectory (fs : FileSystem) (path : String) : Except FileError FileSystem :=
  match fs.makeDirectory path with
  | .error .alreadyExists => if fs.isDirectory path then .ok fs else .error .alreadyExists
  | r => r

/-- The paths of the directories above a path from the inside out; the names of the path are given
from its end. -/
def pathsAbove : List String → List String
  | [] => []
  | _ :: above => ("/" ++ "/".intercalate above.reverse) :: pathsAbove above

/-- Ensures the first of the paths for which this does not fail for want of a directory above it.
The paths before that one are given back in reverse, after those that are missing already. -/
def ensureFirst (fs : FileSystem) (missing : List String) :
    List String → Except FileError (FileSystem × List String)
  | [] => .ok (fs, missing)
  | path :: above =>
    match fs.ensureDirectory path with
    | .ok fs => .ok (fs, missing)
    | .error .notFound => fs.ensureFirst (path :: missing) above
    | .error e => .error e

/-- Ensures directories one after the other, up to the first that fails. -/
def ensureEach (fs : FileSystem) : List String → Except FileError Unit × FileSystem
  | [] => (.ok (), fs)
  | path :: rest =>
    match fs.ensureDirectory path with
    | .ok fs => fs.ensureEach rest
    | .error e => (.error e, fs)

/-- Makes a directory and all that are missing above it. -/
def makeDirectories (fs : FileSystem) (path : String) : Except FileError Unit × FileSystem :=
  if path.isEmpty then (.ok (), fs)
  else
    match fs.ensureFirst [] (path :: pathsAbove ((names path).filter (· ≠ ".")).reverse) with
    | .ok (fs, missing) => fs.ensureEach missing
    | .error e => (.error e, fs)

end FileSystem

end Oncall
