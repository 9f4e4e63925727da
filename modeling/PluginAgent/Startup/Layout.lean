import PluginAgent.Archive.Contents
import PluginAgent.Startup.Error

namespace PluginAgent

structure Layout where
  home : String
  deriving DecidableEq, Repr

namespace Layout

def bootFolder : String := "boot"

def libFolder : String := "lib"

def pluginFolder : String := "plugin"

def logFolder : String := "log"

def configFile : String := "probe.toml"

def bootstrapStem : String := "probe-bootstrap"

def requiredStems : List String :=
  ["probe-commons", "probe-bootstrap-core"]

def libEndings : List String :=
  [".tgz", ".tar.gz", ".toml", ".xml", ".properties"]

def isLibName (path : String) : Bool :=
  match Path.fileName? path with
  | some name => libEndings.any (Archive.endsWith name)
  | none => false

def hasStem (stem path : String) : Bool :=
  match Path.fileName? path with
  | some name => stem.toList.isPrefixOf name.toList
  | none => false

/-- The order of file names as byte strings is that of their characters. -/
def byName (names : List String) : List String :=
  names.mergeSort fun a b => decide (a ≤ b)

def files (disk : Disk) (folder : String) (keep : String → Bool) :
    Except BootError (List String) :=
  match disk.list folder with
  | .error e => .error (.disk e)
  | .ok names =>
    .ok (((byName names).map (Path.join folder)).filter fun path => disk.isFile path && keep path)

def under (l : Layout) (name : String) : String :=
  Path.join l.home name

def bootArchives (l : Layout) (disk : Disk) : Except BootError (List String) :=
  files disk (l.under bootFolder) Archive.isArchiveName

def noPlugins (folder : String) : Event :=
  ⟨.warn, "Plugin directory not found, no plugins loaded", [("dir", .text folder)]⟩

def plugins (l : Layout) (disk : Disk) : Except BootError (List String) × List Event :=
  if disk.isDirectory (l.under pluginFolder) then
    (files disk (l.under pluginFolder) Archive.isArchiveName, [])
  else (.ok [], [noPlugins (l.under pluginFolder)])

def libs (l : Layout) (disk : Disk) : Except BootError (List String) :=
  (files disk (l.under libFolder) isLibName).map (l.under libFolder :: ·)

def configPath? (l : Layout) (disk : Disk) : Option String :=
  if disk.isFile (l.under configFile) then some (l.under configFile) else none

def logPath (l : Layout) : String :=
  l.under logFolder

def jarPath? (l : Layout) (disk : Disk) : Option String :=
  match files disk l.home Archive.isArchiveName with
  | .ok found => found.find? (hasStem bootstrapStem)
  | .error _ => none

def verify (l : Layout) (disk : Disk) : Except BootError Unit :=
  let invalid (flaw : LayoutFlaw) : Except BootError Unit := .error (.layoutInvalid l.home flaw)
  if !disk.isDirectory l.home then invalid .noHome
  else if (l.jarPath? disk).isNone then invalid .noBootstrapArchive
  else if !disk.isDirectory (l.under bootFolder) then invalid .noBootFolder
  else match l.bootArchives disk with
    | .error e => .error e
    | .ok archives =>
      match requiredStems.find? fun stem => !archives.any (hasStem stem) with
      | some stem => invalid (.noBootArchive stem)
      | none => if disk.isDirectory (l.under libFolder) then .ok () else invalid .noLibFolder

def testLibraryMarker : List Char :=
  "probe-profiler-test".toList

def contains (part : List Char) : List Char → Bool
  | [] => part.isEmpty
  | c :: r => part.isPrefixOf (c :: r) || contains part r

def withTests : Event :=
  ⟨.info, "Loading plugin test libraries", []⟩

def filterLibs (includeTests : Bool) (libs : List String) : List String × List Event :=
  if includeTests then (libs, [withTests])
  else (libs.filter fun lib => !contains testLibraryMarker lib.toList, [])

end Layout

end PluginAgent
