import PluginAgent.Plugin.Error
import PluginAgent.Product
import PluginAgent.Text.Blank

namespace PluginAgent

open Text

structure Packages where
  prefixes : List String
  deriving DecidableEq, Repr

namespace Packages

def default : Packages :=
  ⟨[Reserved.defaultPackage]⟩

def isDefault (p : Packages) : Bool :=
  p == default

def tokens (value : List Char) : List (List Char) :=
  ((splitOn ',' value).map trim).filter (!·.isEmpty)

def parse? (value : String) : Option Packages :=
  if (tokens value.toList).isEmpty then none
  else some ⟨(tokens value.toList).map String.ofList⟩

def display (p : Packages) : String :=
  String.ofList (joinWith [','] (p.prefixes.map String.toList))

def admits (p : Packages) (name : String) : Bool :=
  p.prefixes.any (Reserved.startsWith name)

end Packages

namespace Archive.Index

def manifest (index : Index) : Except PluginError (Option Manifest) :=
  match index.metadata? manifestEntry with
  | none => .ok none
  | some bytes => match Manifest.ofBytes bytes with
    | .ok m => .ok (some m)
    | .error flaw => .error (.manifestParse index.path flaw)

def descriptor (index : Index) (interface : String) : Except PluginError (Option Descriptor) :=
  match index.metadata? (servicesFolder ++ interface) with
  | none => .ok none
  | some bytes => match Descriptor.ofBytes bytes with
    | .ok d => .ok (some d)
    | .error flaw => .error (.descriptorParse index.path flaw)

def declared? (manifest : Option Manifest) : Option Packages :=
  manifest.bind fun m => (m.get? Reserved.packageAttribute).bind Packages.parse?

def unreadableManifest (index : Index) (e : PluginError) : Event :=
  ⟨.warn, "Unreadable plugin manifest, treating as absent",
    [("archive", .text index.path), ("error", .report e.report)]⟩

def undeclared (index : Index) : Event :=
  ⟨.warn, "Plugin archive declares no packages, using default",
    [("archive", .text index.path), ("attribute", .text Reserved.packageAttribute),
      ("packages", .text Packages.default.display)]⟩

def packages (index : Index) : Packages × List Event :=
  match index.manifest with
  -- a manifest that cannot be read declares nothing
  | .error e => (.default, [index.unreadableManifest e, index.undeclared])
  | .ok manifest => match declared? manifest with
    | some p => (p, [])
    | none => (.default, [index.undeclared])

end Archive.Index

end PluginAgent
