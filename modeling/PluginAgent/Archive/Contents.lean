import PluginAgent.Archive.EntryName
import PluginAgent.Codec.TarReader
import PluginAgent.Disk
import PluginAgent.Report

/-!
Reading archive files. `Contents.ofListing` walks the members of an archive: it lists the regular
entries with their names, up to the flaw that ends the walk, if any. `Index.ofFile` walks a whole
archive and keeps the small `META-INF/` entries; `readEntry` walks to one entry and reads it.
-/

namespace PluginAgent.Archive

open Codec

def maxEntries : Nat := 10000

def maxMetadata : Nat := 1024 * 1024

def maxContent : Nat := 64 * 1024 * 1024

def metadataFolder : String := "META-INF/"

def manifestEntry : String := "META-INF/MANIFEST.MF"

def servicesFolder : String := "META-INF/services/"

inductive Flaw where
  | notOpened (e : DiskError)
  | isDirectory
  | brokenEntry (f : Tar.Fault)
  | tooManyEntries
  | badPath (f : EntryNameFlaw)
  | tooLarge (size limit : Nat)
  | brokenContent
  | notFound (e : DiskError)
  | notRegular
  | stated (message : String)
  deriving DecidableEq, Repr

def Flaw.report : Flaw → Report
  | notOpened e => ⟨s!"failed to open: {e.message}", none⟩
  | isDirectory => ⟨s!"failed to read archive entry: {DiskError.isDirectory.message}", none⟩
  | brokenEntry f => ⟨"failed to read archive entry: ", some f.message⟩
  | tooManyEntries => ⟨s!"archive exceeds maximum entry count ({maxEntries})", none⟩
  | badPath f => ⟨f.message, none⟩
  | tooLarge size limit => ⟨s!"entry of {size} bytes exceeds limit of {limit} bytes", none⟩
  | brokenContent => ⟨"failed to read entry: ", some Tar.Fault.damaged.message⟩
  | notFound e => ⟨e.message, none⟩
  | notRegular => ⟨"not a regular file", none⟩
  | stated message => ⟨message, none⟩

structure Item where
  name : String
  declared : Nat
  content : ByteArray
  damaged : Bool

/-- The content, if the stated size is within the limit and reading meets no damage. Where the
archive ends within an entry, its content ends there too. -/
def Item.read (item : Item) (limit : Nat) : Except Flaw ByteArray :=
  if item.declared > limit then .error (.tooLarge item.declared limit)
  else if item.damaged && decide (item.content.size < limit) then .error .brokenContent
  else .ok (item.content.extract 0 limit)

def Item.isMetadata (item : Item) : Bool :=
  metadataFolder.toList.isPrefixOf item.name.toList

structure Contents where
  items : List Item
  flaw : Option Flaw := none

def Contents.walk (fault : Option Tar.Fault) : Nat → List Item → List Tar.Member → Contents
  | _, done, [] => ⟨done.reverse, fault.map .brokenEntry⟩
  | count, done, m :: rest =>
    -- members of every kind count
    if count ≥ maxEntries then ⟨done.reverse, some .tooManyEntries⟩
    else if !m.regular then walk fault (count + 1) done rest
    else match EntryName.ofPath m.path with
      | .error f => ⟨done.reverse, some (.badPath f)⟩
      | .ok name =>
          walk fault (count + 1) (⟨name, m.declared, m.content, m.damaged⟩ :: done) rest

def Contents.ofListing (l : Tar.Listing) : Contents :=
  walk l.fault 0 [] l.members

def Contents.at (disk : Disk) (path : String) : Contents :=
  match disk.entry path with
  | .error e => ⟨[], some (.notOpened e)⟩
  | .ok .directory => ⟨[], some .isDirectory⟩
  | .ok (.file bytes) => .ofListing (Tar.listing bytes)

/-- What is kept of an archive: the names of its regular entries in order, and the contents of its
metadata entries, later ones first. -/
structure Index where
  path : String
  names : List String
  metadata : List (String × ByteArray)

namespace Index

def readMetadata : List (String × ByteArray) → List Item → Except Flaw (List (String × ByteArray))
  | known, [] => .ok known
  | known, item :: rest =>
    if item.isMetadata then
      match item.read maxMetadata with
      | .error flaw => .error flaw
      | .ok bytes => readMetadata ((item.name, bytes) :: known) rest
    else readMetadata known rest

def ofContents (path : String) (c : Contents) : Except Flaw Index :=
  match readMetadata [] c.items with
  | .error flaw => .error flaw
  | .ok metadata => match c.flaw with
    | some flaw => .error flaw
    | none => .ok ⟨path, c.items.map (·.name), metadata⟩

def ofFile (disk : Disk) (path : String) : Except Flaw Index :=
  ofContents path (.at disk path)

def contains (index : Index) (name : String) : Bool :=
  index.names.contains name

def metadata? (index : Index) (name : String) : Option ByteArray :=
  index.metadata.lookup name

end Index

def Contents.readEntry (c : Contents) (name : String) : Except Flaw (Option ByteArray) :=
  match c.items.find? (·.name == name) with
  | some item => (item.read maxContent).map some
  | none => match c.flaw with
    | some flaw => .error flaw
    | none => .ok none

def readEntry (disk : Disk) (path name : String) : Except Flaw (Option ByteArray) :=
  (Contents.at disk path).readEntry name

def accessFlaw? (disk : Disk) (path : String) : Option Flaw :=
  match disk.entry path with
  | .ok (.file _) => none
  | .ok .directory => some .notRegular
  | .error e => some (.notFound e)

def extensions : List String :=
  [".tgz", ".tar.gz"]

def endsWith (text ending : String) : Bool :=
  ending.toList.reverse.isPrefixOf text.toList.reverse

def isArchiveName (path : String) : Bool :=
  match Path.fileName? path with
  | some name => extensions.any (endsWith (String.ofList (name.toList.map Char.toLower)))
  | none => false

def displayName (path : String) : String :=
  (Path.fileName? path).getD path

end PluginAgent.Archive
