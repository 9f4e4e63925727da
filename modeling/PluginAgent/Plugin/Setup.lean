import PluginAgent.Plugin.Script

namespace PluginAgent

structure Transformer where
  target : ClassName
  interceptor : ClassName
  deriving DecidableEq, Repr

structure SetupResult where
  plugin : ClassName
  archive : String
  space : NamespaceId
  transformers : List Transformer
  injected : List ClassName
  deriving DecidableEq, Repr

structure Context where
  injector : Injector
  transformers : List Transformer := []
  injected : List ClassName := []
  deriving DecidableEq, Repr

namespace Context

def noteInjected (c : Context) (name : ClassName) : Context :=
  if name ∈ c.injected then c else { c with injected := c.injected ++ [name] }

def noteTransformer (c : Context) (t : Transformer) : Context :=
  { c with transformers := c.transformers ++ [t] }

def inject {σ : Type} (c : Context) (name : String) : Script σ Context :=
  match ClassName.read name with
  | .error e => .done (.error e)
  | .ok name => .resolve c.injector.space name fun
    | .error e => .done (.error e)
    | .ok loaded => .done (.ok (c.noteInjected loaded.name))

def transform {σ : Type} (c : Context) (target interceptor : String) : Script σ Context :=
  match ClassName.read target with
  | .error e => .done (.error e)
  | .ok target =>
    if Reserved.isReserved target.text then
      .done (.error (.outOfScope target.text c.injector.space))
    else match ClassName.read interceptor with
      | .error e => .done (.error e)
      | .ok interceptor => .resolve c.injector.space interceptor fun
        | .error e => .done (.error e)
        | .ok loaded =>
            .done (.ok ((c.noteInjected loaded.name).noteTransformer ⟨target, loaded.name⟩))

def result (c : Context) : SetupResult :=
  ⟨c.injector.plugin, c.injector.archive, c.injector.space, c.transformers, c.injected⟩

end Context

inductive PluginScript where
  | done (result : Except PluginError Unit)
  | panic (message : Option String)
  | transform (target interceptor : String) (next : Except PluginError Unit → PluginScript)
  | inject (name : String) (next : Except PluginError Unit → PluginScript)
  | resolve (space : NamespaceId) (name : ClassName)
      (next : Except PluginError LoadedClass → PluginScript)
  | resource (path : String) (next : Except PluginError ByteArray → PluginScript)
  | inScope (name : String) (next : Bool → PluginScript)
  | look (next : Disk → PluginScript)
  | change (f : Disk → Disk) (next : PluginScript)

namespace PluginScript

def within {σ : Type} : PluginScript → Context → Script σ Context
  | done result, c => .done (result.map fun _ => c)
  | panic m, _ => .panic m
  | transform target interceptor next, c => (c.transform target interceptor).andThen fun
    | .ok c => (next (.ok ())).within c
    | .error e => (next (.error e)).within c
  | inject name next, c => (c.inject name).andThen fun
    | .ok c => (next (.ok ())).within c
    | .error e => (next (.error e)).within c
  | resolve space name next, c => .resolve space name fun r => (next r).within c
  | resource path next, c => .resource path fun r => (next r).within c
  | inScope name next, c => .inScope name fun r => (next r).within c
  | look next, c => .look fun d => (next d).within c
  | change f next, c => .change f (next.within c)

end PluginScript

def Plugin : Type :=
  Injector → PluginScript

def Setup (σ : Type) : Type :=
  Plugin → Injector → Script σ SetupResult

namespace Setup

variable {σ : Type}

def configured (r : SetupResult) : Event :=
  ⟨.info, "Configured plugin",
    [("plugin", .text r.plugin.text), ("namespace", .text r.space.label),
      ("transformers", .number r.transformers.length), ("injected", .number r.injected.length)]⟩

def standard : Setup σ := fun plugin injector =>
  ((plugin injector).within { injector }).andThen fun
    | .error e => .done (.error e)
    | .ok c => .log (configured c.result) (.done (.ok c.result))

end Setup

end PluginAgent
