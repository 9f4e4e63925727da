import PluginAgent.Path

/-!
The files the agent can see. A place is the list of the names that lead to it from the root, and a
disk lists its files and directories by their places, in the order in which a directory is
enumerated. Every answer about a path follows its names one by one, so that a missing name and a
file used as a directory are told apart.
-/

namespace PluginAgent

open Text

inductive DiskError where
  | missing
  | occupied
  | notDirectory
  | isDirectory
  deriving DecidableEq, Repr

namespace DiskError

def code : DiskError → Nat
  | missing => 2
  | occupied => 17
  | notDirectory => 20
  | isDirectory => 21

def text : DiskError → String
  | missing => "No such file or directory"
  | occupied => "File exists"
  | notDirectory => "Not a directory"
  | isDirectory => "Is a directory"

def kind : DiskError → String
  | missing => "NotFound"
  | occupied => "AlreadyExists"
  | notDirectory => "NotADirectory"
  | isDirectory => "IsADirectory"

def message (e : DiskError) : String :=
  s!"{e.text} (os error {e.code})"

def describe (e : DiskError) : String :=
  "Os \x7b code: " ++ toString e.code ++ ", kind: " ++ e.kind ++ ", message: \"" ++ e.text ++
    "\" \x7d"

end DiskError

inductive Entry where
  | file (bytes : ByteArray)
  | directory

structure Disk where
  entries : List (List String × Entry) := []
  /-- The working directory, where the paths begin that are not absolute. -/
  working : List String := []

namespace Disk

def find? (d : Disk) (place : List String) : Option Entry :=
  if place = [] then some .directory else d.entries.lookup place

def step (d : Disk) (place : List String) (part : String) : Except DiskError (List String) :=
  match d.find? place with
  | none => .error .missing
  | some (.file _) => .error .notDirectory
  | some .directory =>
    if part = "" ∨ part = "." then .ok place
    -- the root is its own parent
    else if part = ".." then .ok place.dropLast
    else if (d.find? (place ++ [part])).isSome then .ok (place ++ [part])
    else .error .missing

def parts (path : String) : List String :=
  (splitOn '/' path.toList).map String.ofList

def origin (d : Disk) (path : String) : List String :=
  if Path.isAbsolute path then [] else d.working

def locate (d : Disk) (path : String) : Except DiskError (List String) :=
  if path.isEmpty then .error .missing
  else (parts path).foldlM d.step (d.origin path)

def entryAt (d : Disk) (place : List String) : Except DiskError Entry :=
  match d.find? place with
  | some e => .ok e
  | none => .error .missing

def entry (d : Disk) (path : String) : Except DiskError Entry := do
  d.entryAt (← d.locate path)

def isFile (d : Disk) (path : String) : Bool :=
  match d.entry path with
  | .ok (.file _) => true
  | _ => false

def isDirectory (d : Disk) (path : String) : Bool :=
  match d.entry path with
  | .ok .directory => true
  | _ => false

def read (d : Disk) (path : String) : Except DiskError ByteArray :=
  match d.entry path with
  | .ok (.file bytes) => .ok bytes
  | .ok .directory => .error .isDirectory
  | .error e => .error e

def childName? (place : List String) (key : List String) : Option String :=
  match key.getLast? with
  | some name => if key.dropLast = place then some name else none
  | none => none

def children (d : Disk) (place : List String) : List String :=
  d.entries.filterMap fun e => childName? place e.1

def folder (d : Disk) (path : String) : Except DiskError (List String) :=
  match d.locate path with
  | .error e => .error e
  | .ok place => match d.find? place with
    | some .directory => .ok place
    | some (.file _) => .error .notDirectory
    | none => .error .missing

def list (d : Disk) (path : String) : Except DiskError (List String) :=
  (d.folder path).map d.children

def replace (place : List String) (e : Entry) :
    List (List String × Entry) → List (List String × Entry)
  | [] => [(place, e)]
  | (key, old) :: rest =>
      if key = place then (place, e) :: rest else (key, old) :: replace place e rest

def put (d : Disk) (place : List String) (e : Entry) : Disk :=
  { d with entries := replace place e d.entries }

def enter (state : Disk × List String) (part : String) : Except DiskError (Disk × List String) :=
  match state with
  | (d, place) => match d.step place part with
    | .ok next => .ok (d, next)
    | .error .missing =>
      if (d.find? place).isSome then
        .ok (d.put (place ++ [part]) .directory, place ++ [part])
      else .error .missing
    | .error e => .error e

def makeDirectories (d : Disk) (path : String) : Except DiskError Disk :=
  if path.isEmpty then .ok d
  else match (parts path).foldlM enter (d, d.origin path) with
    | .error e => .error e
    | .ok (made, place) => match made.entryAt place with
      | .ok .directory => .ok made
      | .ok (.file _) => .error .occupied
      | .error e => .error e

def enterDirectory (d : Disk) (path : String) : Except DiskError Disk :=
  (d.folder path).map fun place => { d with working := place }

def write (d : Disk) (path : String) (bytes : ByteArray) : Except DiskError Disk :=
  match (parts path).getLast? with
  | none => .error .missing
  | some name =>
    match (parts path).dropLast.foldlM d.step (d.origin path) with
    | .error e => .error e
    | .ok folder => match d.step folder name with
      | .ok place => match d.find? place with
        | some .directory => .error .isDirectory
        | _ => .ok (d.put place (.file bytes))
      | .error .missing =>
        if name.isEmpty || (d.find? folder).isNone then .error .missing
        else .ok (d.put (folder ++ [name]) (.file bytes))
      | .error e => .error e

def writeDeep (d : Disk) (path : String) (bytes : ByteArray) : Except DiskError Disk := do
  (← d.makeDirectories (Path.parent path)).write path bytes

def drop (d : Disk) (gone : List String → Bool) : Disk :=
  { d with entries := d.entries.filter fun e => !gone e.1 }

def removeFile (d : Disk) (path : String) : Except DiskError Disk :=
  match d.locate path with
  | .error e => .error e
  | .ok place => match d.find? place with
    | some (.file _) => .ok (d.drop (· == place))
    | some .directory => .error .isDirectory
    | none => .error .missing

def remove (d : Disk) (path : String) : Disk :=
  match d.locate path with
  | .ok place => d.drop (place.isPrefixOf ·)
  | .error _ => d

end Disk

end PluginAgent
