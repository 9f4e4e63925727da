import PluginAgent.Plugin.Scope

namespace PluginAgent

structure Namespace where
  archive : String
  packages : Packages
  scope : Scope
  defined : List (ClassName × ByteArray) := []

structure LoadedClass where
  space : NamespaceId
  name : ClassName
  bytes : ByteArray

structure Namespaces where
  spaces : List Namespace := []

namespace Namespaces

def size (t : Namespaces) : Nat :=
  t.spaces.length

def register (t : Namespaces) (archive : String) (packages : Packages) (scope : Scope) :
    NamespaceId × Namespaces :=
  (⟨t.size⟩, ⟨t.spaces ++ [⟨archive, packages, scope, []⟩]⟩)

def get (t : Namespaces) (id : NamespaceId) : Except PluginError Namespace :=
  match t.spaces[id.index]? with
  | some s => .ok s
  | none => .error (.unknownNamespace id)

def archive (t : Namespaces) (id : NamespaceId) : Except PluginError String :=
  (t.get id).map (·.archive)

def packages (t : Namespaces) (id : NamespaceId) : Except PluginError Packages :=
  (t.get id).map (·.packages)

def inScope (t : Namespaces) (id : NamespaceId) (name : String) : Except PluginError Bool :=
  (t.get id).map (·.scope.accepts name)

def definedClasses (t : Namespaces) (id : NamespaceId) : Except PluginError (List ClassName) :=
  (t.get id).map (·.defined.map (·.1))

def define (t : Namespaces) (id : NamespaceId) (name : ClassName) (bytes : ByteArray) :
    Namespaces :=
  ⟨t.spaces.modify id.index fun s => { s with defined := s.defined ++ [(name, bytes)] }⟩

def readEntry (disk : Disk) (archive entry : String) : Except PluginError ByteArray :=
  match Archive.readEntry disk archive entry with
  | .error flaw => .error (.archiveUnavailable archive flaw)
  | .ok none => .error (.entryNotFound archive entry)
  | .ok (some bytes) => .ok bytes

def resolve (t : Namespaces) (disk : Disk) (id : NamespaceId) (name : ClassName) :
    Except PluginError (LoadedClass × Namespaces) :=
  match t.get id with
  | .error e => .error e
  | .ok s =>
    if !s.scope.accepts name.text then .error (.outOfScope name.text id)
    else match s.defined.lookup name with
      -- what was read once is the definition from then on
      | some bytes => .ok (⟨id, name, bytes⟩, t)
      | none => match readEntry disk s.archive name.entryPath with
        | .error e => .error e
        | .ok bytes => .ok (⟨id, name, bytes⟩, t.define id name bytes)

def classSuffix : List Char :=
  ".class".toList

def classOfEntry? (entry : List Char) : Option String :=
  if classSuffix.reverse.isPrefixOf entry.reverse then
    some (String.ofList
      (Text.replaceChar '/' '.' (entry.take (entry.length - classSuffix.length))))
  else none

def withoutSlashes (path : String) : List Char :=
  path.toList.dropWhile (· == '/')

def resource (t : Namespaces) (disk : Disk) (id : NamespaceId) (path : String) :
    Except PluginError ByteArray :=
  match t.get id with
  | .error e => .error e
  | .ok s =>
    match classOfEntry? (withoutSlashes path) with
    | some name =>
      if s.scope.accepts name then
        readEntry disk s.archive (String.ofList (withoutSlashes path))
      else .error (.outOfScope name id)
    | none => readEntry disk s.archive (String.ofList (withoutSlashes path))

@[simp] theorem size_register (t : Namespaces) (a : String) (p : Packages) (s : Scope) :
    (t.register a p s).2.size = t.size + 1 := by
  simp [register, size]

@[simp] theorem size_define (t : Namespaces) (id : NamespaceId) (n : ClassName) (b : ByteArray) :
    (t.define id n b).size = t.size := by
  simp [define, size]

end Namespaces

structure Injector where
  space : NamespaceId
  plugin : ClassName
  archive : String
  deriving DecidableEq, Repr

namespace Injector

def bind (t : Namespaces) (space : NamespaceId) (plugin : ClassName) :
    Except PluginError Injector :=
  (t.archive space).map fun archive => ⟨space, plugin, archive⟩

def inScope (i : Injector) (t : Namespaces) (name : String) : Bool :=
  match t.inScope i.space name with
  | .ok answer => answer
  | .error _ => false

def resolve (i : Injector) (t : Namespaces) (disk : Disk) (space : NamespaceId) (name : ClassName) :
    Except PluginError (LoadedClass × Namespaces) :=
  if space = i.space then t.resolve disk space name
  else .error (.namespaceMismatch i.space space)

def inject (i : Injector) (t : Namespaces) (disk : Disk) (name : String) :
    Except PluginError (LoadedClass × Namespaces) :=
  match ClassName.read name with
  | .error e => .error e
  | .ok c => i.resolve t disk i.space c

def resource (i : Injector) (t : Namespaces) (disk : Disk) (path : String) :
    Except PluginError ByteArray :=
  t.resource disk i.space path

end Injector

end PluginAgent
