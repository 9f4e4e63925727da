import PluginAgent.Codec.TarWriter
import PluginAgent.Archive.Contents
import PluginAgent.Product

namespace PluginAgent.Testing

open Text

structure ListedPlugin where
  type : String
  shipped : Bool
  deriving DecidableEq, Repr

structure ArchiveDraft where
  attributes : List (String × String) := []
  plugins : List ListedPlugin := []
  entries : List (String × ByteArray) := []

namespace ArchiveDraft

def withAttribute (d : ArchiveDraft) (name value : String) : ArchiveDraft :=
  { d with attributes := d.attributes ++ [(name, value)] }

def withPackages (d : ArchiveDraft) (value : String) : ArchiveDraft :=
  d.withAttribute Reserved.packageAttribute value

def withPlugin (d : ArchiveDraft) (type : String) : ArchiveDraft :=
  { d with plugins := d.plugins ++ [⟨type, true⟩] }

def withListed (d : ArchiveDraft) (type : String) : ArchiveDraft :=
  { d with plugins := d.plugins ++ [⟨type, false⟩] }

def withEntry (d : ArchiveDraft) (name : String) (bytes : ByteArray) : ArchiveDraft :=
  { d with entries := d.entries ++ [(name, bytes)] }

def classEntry (name : String) : String :=
  String.ofList (replaceChar '.' '/' name.toList ++ ".class".toList)

def withClass (d : ArchiveDraft) (name : String) (bytes : ByteArray) : ArchiveDraft :=
  d.withEntry (classEntry name) bytes

def manifestText (attributes : List (String × String)) : String :=
  String.join (attributes.map fun (name, value) => s!"{name}: {value}\r\n")

def descriptorText (plugins : List ListedPlugin) : String :=
  "# Plugins provided by this archive\n" ++ String.join (plugins.map (·.type ++ "\n"))

def derived (d : ArchiveDraft) : List (String × ByteArray) :=
  (if d.attributes.isEmpty then []
    else [(Archive.manifestEntry, (manifestText d.attributes).toUTF8)]) ++
  (if d.plugins.isEmpty then []
    else [(Archive.servicesFolder ++ Reserved.pluginInterface,
      (descriptorText d.plugins).toUTF8)]) ++
  (d.plugins.filter (·.shipped)).map fun p => (classEntry p.type, p.type.toUTF8)

def replace (entries : List (String × ByteArray)) (e : String × ByteArray) :
    List (String × ByteArray) :=
  entries.filter (·.1 != e.1) ++ [e]

def allEntries (d : ArchiveDraft) : List (String × ByteArray) :=
  d.entries.foldl replace d.derived

def build (d : ArchiveDraft) : ByteArray :=
  Codec.Tar.file (d.allEntries.map fun e => { name := e.1.toUTF8, content := e.2 })

end ArchiveDraft

end PluginAgent.Testing
