import PluginAgent.Startup.Layout
import PluginAgent.Testing.ArchiveDraft

namespace PluginAgent.Testing

inductive HomeChange where
  | config (text : String)
  | noConfig
  | plugin (file type : String)
  | lib (file text : String)
  | without (path : String)
  deriving DecidableEq, Repr

namespace SampleHome

def configText : String :=
  "[profiler]\ncollector_host = \"127.0.0.1\"\n"

def emptyArchive : ByteArray :=
  (ArchiveDraft.withAttribute {} "Manifest-Version" "1.0").build

def files (home : String) : List (String × Entry) :=
  [("probe-bootstrap-0.1.1.tgz", .file emptyArchive), ("boot", .directory),
    ("boot/probe-commons-0.1.1.tgz", .file emptyArchive),
    ("boot/probe-bootstrap-core-0.1.1.tgz", .file emptyArchive), ("lib", .directory),
    ("plugin", .directory), ("log", .directory), ("probe.toml", .file configText.toUTF8)].map
      fun (name, e) => (Path.join home name, e)

def add (disk : Disk) (e : String × Entry) : Except DiskError Disk :=
  match e.2 with
  | .file bytes => disk.writeDeep e.1 bytes
  | .directory => disk.makeDirectories e.1

def make (home : String) (disk : Disk) : Except DiskError Disk :=
  (files home).foldlM add disk

def expecting (what : String) : Except DiskError Disk → Outcome Empty Disk
  | .ok d => .ok d
  | .error e => .panic (some s!"{what}: {e.describe}")

def writeArchive (path : String) (bytes : ByteArray) (disk : Disk) : Outcome Empty Disk :=
  match disk.makeDirectories (Path.parent path) with
  | .error e => .panic (some s!"create archive directory: {e.describe}")
  | .ok disk => expecting "write archive" (disk.write path bytes)

def change (home : String) (disk : Disk) : HomeChange → Outcome Empty Disk
  | .config text =>
      expecting "write probe.toml" (disk.write (Path.join home "probe.toml") text.toUTF8)
  | .noConfig => expecting "remove probe.toml" (disk.removeFile (Path.join home "probe.toml"))
  | .plugin file type =>
      writeArchive (Path.join (Path.join home "plugin") file)
        (ArchiveDraft.withPlugin {} type).build disk
  | .lib file text =>
      expecting "write library" (disk.write (Path.join (Path.join home "lib") file) text.toUTF8)
  | .without path => expecting "remove file" (disk.removeFile (Path.join home path))

def changeAll (home : String) : List HomeChange → Disk → Outcome Empty Disk
  | [], disk => .ok disk
  | c :: rest, disk => match change home disk c with
    | .ok disk => changeAll home rest disk
    | .panic m => .panic m

def below (home path : String) : String :=
  String.ofList (path.toList.drop (home.length + 1))

def contents (home : String) (disk : Disk) : List (String × Entry) :=
  let place := disk.working ++ [home]
  let below := disk.entries.filterMap fun (names, e) =>
    if place.isPrefixOf names && names.length > place.length then
      some ("/".intercalate (names.drop place.length), e)
    else none
  below.mergeSort fun a b => decide (a.1 ≤ b.1)

end SampleHome

end PluginAgent.Testing
