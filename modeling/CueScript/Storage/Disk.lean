import CueScript.Storage
import CueScript.Table
import CueScript.Text.Cut

set_option autoImplicit false

/-! # Storage in memory

A disk is a table of files and directories under their places, which are lists of names from the
top directory down, and a working directory from which relative paths lead. The top directory is
always there.

Every name on the way to a place has to be that of a directory; `.` stays where it is, and `..`
goes one up, but not above the top. There are no links, neither symbolic nor hard ones. Names and
paths have a greatest length, counted in bytes. -/

namespace CueScript

/-- What is at a place. A file may hold bytes that are no text. -/
inductive DiskNode where
  | directory
  | file (text : Option String)
deriving DecidableEq, Repr

/-- A disk with a working directory. -/
structure Disk where
  nodes : Table (List String) DiskNode
  home : List String

namespace Disk

/-- The disk with nothing but the top directory. -/
def empty : Disk := ⟨.empty, []⟩

/-- What is at a place. -/
def at? (d : Disk) (place : List String) : Option DiskNode :=
  if place.isEmpty then some .directory else d.nodes.find? place

/-- The disk with something at a place. -/
def set (d : Disk) (place : List String) (node : DiskNode) : Disk :=
  { d with nodes := d.nodes.insert place node }

/-- The names of a path: what stands between its slashes. -/
def names : List Char → List (List Char)
  | [] => [[]]
  | c :: cs =>
    match names cs with
    | [] => [[c]]
    | name :: rest => if c = '/' then [] :: name :: rest else (c :: name) :: rest

/-- Does the name stay in the directory that it is looked up in? -/
def staysPut (name : String) : Bool := name.isEmpty || name = "."

/-- Where a path begins, and the names that lead on from there. -/
def route (d : Disk) (path : String) : List String × List String :=
  (if path.toList.head? = some '/' then [] else d.home, (names path.toList).map String.ofList)

/-- The greatest length of a name. -/
def longestName : Nat := 255

/-- The greatest length of a path. -/
def longestPath : Nat := 4095

/-- Follow names from a place. -/
def follow (d : Disk) (place : List String) : List String → Except StorageFault (List String)
  | [] => .ok place
  | name :: rest =>
    match d.at? place with
    | none => .error .notFound
    | some (.file _) => .error .notDirectory
    | some .directory =>
      if staysPut name then d.follow place rest
      else if name = ".." then d.follow place.dropLast rest
      else if longestName < name.utf8ByteSize then .error .nameTooLong
      else d.follow (place ++ [name]) rest

/-- The place that a path leads to. Something need not be there, but in a directory. The empty path
    leads nowhere. -/
def locate (d : Disk) (path : String) : Except StorageFault (List String) :=
  if holdsNul path then .error .nulInName
  else if path.isEmpty then .error .notFound
  else if longestPath < path.utf8ByteSize then .error .nameTooLong
  else d.follow (d.route path).1 (d.route path).2

/-- The text of a file. -/
def read (d : Disk) (path : String) : Except StorageFault String := do
  match d.at? (← d.locate path) with
  | none => throw .notFound
  | some .directory => throw .isDirectory
  | some (.file none) => throw .notText
  | some (.file (some text)) => return text

/-- The disk with a file at a place, which must not be a directory. -/
def put (d : Disk) (place : List String) (text : Option String) : Except StorageFault Disk :=
  if d.at? place = some .directory then .error .isDirectory
  else .ok (d.set place (.file text))

/-- Write a file, in place of the one that may be there. -/
def write (d : Disk) (path text : String) : Except StorageFault Disk := do
  d.put (← d.locate path) (some text)

/-- Move a file, in place of the one that may be at the other path. -/
def rename (d : Disk) (source path : String) : Except StorageFault Disk := do
  let old ← d.locate source
  let new ← d.locate path
  match d.at? old with
  | none => throw .notFound
  | some .directory => throw .isDirectory
  | some (.file text) =>
    let d' ← d.put new text
    return if new = old then d' else { d' with nodes := d'.nodes.erase old }

/-- Do names lead to a directory? -/
def isDirectory (d : Disk) (place names : List String) : Bool :=
  match d.follow place names with
  | .ok inner => d.at? inner = some .directory
  | .error _ => false

/-- Make one directory at the end of names that lead through directories. Slashes at the end do not
    count, and `.` and `..` are always there. -/
def makeDirectory (d : Disk) (place names : List String) : Except StorageFault Disk :=
  match names.reverse.dropWhile String.isEmpty with
  | [] => .error .alreadyThere
  | name :: before => do
    let inner ← d.follow place (before.reverse ++ [name])
    if name = "." || name = ".." || (d.at? inner).isSome then throw .alreadyThere
    return d.set inner .directory

/-- Make one directory, unless it is there. -/
def ensureDirectory (d : Disk) (place names : List String) : Except StorageFault Unit × Disk :=
  match d.makeDirectory place names with
  | .ok d' => (.ok (), d')
  | .error e => (if d.isDirectory place names then .ok () else .error e, d)

/-- The beginnings of names that end with one that leads on, the longest first. -/
def beginnings : List String → List (List String)
  | [] => []
  | name :: rest =>
    (beginnings rest).map (name :: ·) ++ if staysPut name then [] else [[name]]

/-- Make the directory of the first path. Where something above it is missing, the directory of the
    next path is made before, which is the one that it lies in. -/
def makeAll (d : Disk) (place : List String) :
    List (List String) → Except StorageFault Unit × Disk
  | [] => (.ok (), d)
  | names :: above =>
    match d.ensureDirectory place names with
    | (.error .notFound, _) =>
      match d.makeAll place above with
      | (.ok (), d') => d'.ensureDirectory place names
      | failed => failed
    | answer => answer

/-- Make a directory and those that it lies in, as far as that goes. Those made before a failure
    stay. Only the paths above it are shortened to names that lead on; so `.` at the end of the path
    itself asks for a directory that is there. -/
def makeWay (d : Disk) (path : String) : Except StorageFault Unit × Disk :=
  if holdsNul path then (.error .nulInName, d)
  else if path.isEmpty then (.ok (), d)
  else if longestPath < path.utf8ByteSize then (.error .nameTooLong, d)
  else
    let (place, names) := d.route path
    d.makeAll place (names :: (beginnings names).tail)

/-- The disk with a directory and those that it lies in. -/
def makeDirectories (d : Disk) (path : String) : Except StorageFault Disk :=
  match d.makeWay path with
  | (.ok (), d') => .ok d'
  | (.error e, _) => .error e

/-- The disk with a file, whose directories are made first. -/
def addFile (d : Disk) (path : String) (text : Option String) : Except StorageFault Disk := do
  let d' ← match Text.cutAtLast '/' path.toList with
    | some (directory, _) => d.makeDirectories (String.ofList directory)
    | none => pure d
  d'.put (← d'.locate path) text

/-- The names of what lies in a directory, in the order in which it was made. -/
def list (d : Disk) (directory : List String) : List String :=
  d.nodes.keys.filterMap fun place =>
    if place.dropLast = directory then place.getLast? else none

/-- An operation that may change the disk. -/
def change (f : Disk → Except StorageFault Disk) : StateM Disk (Except StorageFault Unit) := fun d =>
  match f d with
  | .ok d' => (.ok (), d')
  | .error e => (.error e, d)

/-- A disk as storage. -/
def storage : Storage (StateM Disk) where
  read path := fun d => (d.read path, d)
  makeDirectories path := fun d => d.makeWay path
  write path text := change fun d => d.write path text
  rename source path := change fun d => d.rename source path

end Disk

end CueScript
