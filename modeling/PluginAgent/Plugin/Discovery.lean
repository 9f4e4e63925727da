import PluginAgent.Plugin.Catalog
import PluginAgent.Plugin.Disabled

namespace PluginAgent

structure Candidate where
  type : ClassName
  archive : String
  plugin : Plugin

namespace Candidate

def ofType (index : Archive.Index) (catalog : Catalog) (type : ClassName) :
    Outcome PluginError Candidate :=
  if !index.contains type.entryPath then .error (.providerNotInArchive type index.path)
  else match catalog.factory? type with
    | none => .error (.providerNotFound type index.path)
    | some (.ok plugin) => .ok ⟨type, index.path, plugin⟩
    | some (.panic m) => .panic m

def ofTypes (index : Archive.Index) (catalog : Catalog) :
    List ClassName → Outcome PluginError (List Candidate)
  | [] => .ok []
  | type :: rest =>
    match ofType index catalog type with
    | .error e => .error e
    | .panic m => .panic m
    | .ok c => (ofTypes index catalog rest).map (c :: ·)

def discover (index : Archive.Index) (catalog : Catalog) : Outcome PluginError (List Candidate) :=
  match index.descriptor Reserved.pluginInterface with
  | .error e => .error e
  | .ok none => .ok []
  | .ok (some d) => ofTypes index catalog d.types

def skipped (c : Candidate) : Event :=
  ⟨.info, "Skip disabled plugin", [("plugin", .text c.type.text), ("archive", .text c.archive)]⟩

def enabled (d : Disabled) (c : Candidate) : Bool :=
  !d.contains c.type.text

end Candidate

namespace Disabled

def keep (d : Disabled) (candidates : List Candidate) : List Candidate :=
  candidates.filter (·.enabled d)

def skips (d : Disabled) (candidates : List Candidate) : List Event :=
  (candidates.filter (!·.enabled d)).map (·.skipped)

end Disabled

end PluginAgent
