import PluginAgent.Archive.Contents
import PluginAgent.Archive.Descriptor
import PluginAgent.Archive.Manifest

namespace PluginAgent

structure NamespaceId where
  index : Nat
  deriving DecidableEq, Repr

def NamespaceId.label (id : NamespaceId) : String :=
  s!"ns-{id.index}"

inductive PluginError where
  | archiveOpen (archive : String) (flaw : Archive.Flaw)
  | archiveUnavailable (archive : String) (flaw : Archive.Flaw)
  | manifestParse (archive : String) (flaw : Manifest.Flaw)
  | descriptorParse (archive : String) (flaw : Descriptor.Flaw)
  | providerNotInArchive (type : ClassName) (archive : String)
  | providerNotFound (type : ClassName) (archive : String)
  | alreadyRegistered (type : ClassName)
  | invalidTypeName (name : String) (flaw : NameFlaw)
  | outOfScope (name : String) (space : NamespaceId)
  | namespaceMismatch (bound requested : NamespaceId)
  | unknownNamespace (space : NamespaceId)
  | entryNotFound (archive entry : String)
  | setupFailed (plugin message : String)
  deriving DecidableEq, Repr

namespace PluginError

def report : PluginError → Report
  | archiveOpen archive flaw => flaw.report.under s!"failed to open plugin archive {archive}: "
  | archiveUnavailable archive flaw => flaw.report.under s!"plugin archive unavailable {archive}: "
  | manifestParse archive flaw => ⟨s!"malformed manifest in {archive}: {flaw.message}", none⟩
  | descriptorParse archive flaw =>
      ⟨s!"malformed service descriptor in {archive}: {flaw.message}", none⟩
  | providerNotInArchive type archive =>
      ⟨s!"plugin type {type.text} listed in {archive} is not packaged in that archive", none⟩
  | providerNotFound type archive =>
      ⟨s!"plugin type {type.text} listed in {archive} has no registered factory", none⟩
  | alreadyRegistered type => ⟨s!"plugin type already registered: {type.text}", none⟩
  | invalidTypeName name flaw => ⟨s!"invalid type name: {flaw.message name}", none⟩
  | outOfScope name space => ⟨s!"class {name} is out of scope for namespace {space.label}", none⟩
  | namespaceMismatch bound requested =>
      ⟨s!"request for namespace {requested.label} sent to injector bound to {bound.label}", none⟩
  | unknownNamespace space => ⟨s!"unknown namespace: {space.label}", none⟩
  | entryNotFound archive entry => ⟨s!"entry {entry} not found in {archive}", none⟩
  | setupFailed plugin message => ⟨s!"plugin setup failed: {plugin} - {message}", none⟩

def isUnavailable : PluginError → Bool
  | archiveUnavailable .. => true
  | _ => false

end PluginError

def ClassName.read (name : String) : Except PluginError ClassName :=
  match ofString name with
  | .ok c => .ok c
  | .error flaw => .error (.invalidTypeName name flaw)

end PluginAgent
