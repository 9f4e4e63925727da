import PluginAgent.Product
import PluginAgent.Startup.Boot
import PluginAgent.Startup.Gate
import PluginAgent.Startup.Layout
import PluginAgent.Text.Quoted

namespace PluginAgent

open Boot

inductive Stop where
  | failed (e : BootError)
  | panicked (message : Option String)
  deriving DecidableEq, Repr

inductive BootOutcome where
  | started
  | alreadyStarted
  | failed
  deriving DecidableEq, Repr

abbrev Starting (A : Type) : Type → Type :=
  ExceptT Stop (Boot A)

namespace Starting

variable {A α : Type}

def act (step : Boot A α) : Starting A α :=
  ExceptT.lift step

def require : Except BootError α → Starting A α
  | .ok a => pure a
  | .error e => throw (.failed e)

def complete : Outcome BootError α → Starting A α
  | .ok a => pure a
  | .error e => throw (.failed e)
  | .panic m => throw (.panicked m)

end Starting

namespace Premain

open Starting

variable {A : Type}

def propertyIfAbsent (keys : Identity.Keys) (argument : Option String) : Boot A (Option String) :=
  match argument with
  | some _ => pure none
  | none => getProperty keys.property

def identityValue (args : Args) (keys : Identity.Keys) : Boot A (Except BootError String) := do
  let property ← propertyIfAbsent keys (args.get? keys.argument)
  let (value, event) := Identity.value keys (args.get? keys.argument) property
  emit event
  return value

def identity (args : Args) : Boot A (Except BootError Identity) := do
  match ← identityValue args Identity.idKeys with
  | .error e => return .error e
  | .ok id =>
    match ← identityValue args Identity.nameKeys with
    | .error e => return .error e
    | .ok name => return .ok ⟨id, name⟩

def configOverride (path : String) : Event :=
  ⟨.info, "Using configuration override",
    [("property", .text Properties.configPath), ("path", .text path)]⟩

def homeConfig (path : String) : Event :=
  ⟨.info, "Using agent home configuration", [("path", .text path)]⟩

def noConfig (home : String) : Event :=
  ⟨.warn, "Configuration file not found",
    [("property", .text Properties.configPath), ("home", .text home)]⟩

def configPath (layout : Layout) : Boot A (Option String) := do
  match ← getProperty Properties.configPath with
  | some path =>
    emit (configOverride path)
    return some path
  | none =>
    match layout.configPath? (← disk) with
    | some path =>
      emit (homeConfig path)
      return some path
    | none =>
      emit (noConfig layout.home)
      return none

def saveLogPath (layout : Layout) : Boot A Unit := do
  emit ⟨.info, "Agent log path", [("path", .text layout.logPath)]⟩
  putProperty Properties.logPath layout.logPath

def saveVersion : Boot A Unit := do
  emit ⟨.info, s!"{Product.name} version", [("version", .text Product.version)]⟩
  putProperty Properties.version Product.version

def appending (archive : String) : Event :=
  ⟨.info, "Appending to bootstrap search path", [("archive", .text archive)]⟩

def appendAll : List String → Starting A Unit
  | [] => pure ()
  | archive :: rest => do
    act <| emit (appending archive)
    require (← act <| appendToSearch archive)
    appendAll rest

def resolvedLibs (layout : Layout) (disk : Disk) : Event :=
  ⟨.info, "Resolved agent libraries",
    [("jar", .text (Text.quotedOption (layout.jarPath? disk))),
      ("lib_dir", .text (layout.under Layout.libFolder)),
      ("config", .text (Text.quotedOption (layout.configPath? disk)))]⟩

def library (lib : String) : Event :=
  ⟨.info, "Agent library", [("lib", .text lib)]⟩

def resolveLibs (layout : Layout) (type : AgentType) : Starting A (List String) := do
  let found ← require (layout.libs (← act disk))
  let (libs, events) := Layout.filterLibs type.loadsTestLibraries found
  act <| emitAll events
  act <| emit (resolvedLibs layout (← act disk))
  act <| emitAll (libs.map library)
  return libs

def booting (bootClass : String) (libs : Nat) : Event :=
  ⟨.info, "Booting agent", [("boot_class", .text bootClass), ("libs", .number libs)]⟩

def bootAgent (known : String → Bool) (bootClass : Option String) (option : AgentOption) :
    Starting A A := do
  match bootClass with
  | none => throw (.failed (.bootClassNotFound "<unset>"))
  | some c =>
    if known c then
      act <| emit (booting c option.libs.length)
      complete (← act <| createAgent c option)
    else throw (.failed (.bootClassNotFound c))

structure Plan where
  layout : Layout
  known : String → Bool
  services : Services := {}

def starting (bootClass : String) : Event :=
  ⟨.info, s!"{Product.name} agent starting", [("boot_class", .text bootClass)]⟩

def boot (p : Plan) (args : Args) (identity : Identity) : Starting A Unit := do
  let (plugins, events) := p.layout.plugins (← act disk)
  act <| emitAll events
  let plugins ← require plugins
  match ← act <| configPath p.layout with
  | none => throw (.failed .configNotFound)
  | some path =>
    act <| saveLogPath p.layout
    act saveVersion
    let (config, events) := Config.load (← act disk) path
    act <| emitAll events
    let config ← require (config.mapError BootError.config)
    let bootArchives ← require (p.layout.bootArchives (← act disk))
    appendAll bootArchives
    let libs ← resolveLibs p.layout args.type
    act <| emit (starting args.type.bootClass)
    let agent ← bootAgent p.known (some args.type.bootClass)
      { identity, args, config, plugins, bootArchives, libs, services := p.services }
    complete (← act <| startAgent agent)
    act <| addHook agent

def unresolved (e : BootError) : Event :=
  ⟨.warn, "Agent identity unresolved", [("error", .report e.report)]⟩

def ending : Except Stop Unit → Event
  | .ok () => ⟨.info, s!"{Product.name} agent started normally", []⟩
  | .error (.failed e) => ⟨.warn, s!"{Product.name} start failed", [("error", .report e.report)]⟩
  | .error (.panicked m) =>
      ⟨.error, s!"{Product.name} start panicked", [("panic", .text (panicText m))]⟩

def start (p : Plan) (args : Args) : Boot A Bool := do
  match ← identity args with
  | .error e =>
    emit (unresolved e)
    return false
  | .ok identity =>
    let result ← (boot p args identity).run
    emit (ending result)
    return result.isOk

def given (args : String) : Event :=
  ⟨.info, s!"{Product.name} agent args", [("agent_args", .text args)]⟩

def alreadyStarted : Event :=
  ⟨.warn, s!"{Product.name}-bootstrap already started, skipping agent loading", []⟩

def parameters (args : Args) : List Event :=
  if args.isEmpty then [] else [⟨.info, "Agent parameters", [("args", .text args.display)]⟩]

def unverified (e : BootError) : Event :=
  ⟨.warn, "Agent directory verification failed, skipping agent loading",
    [("error", .report e.report)]⟩

def premain (p : Plan) (raw : Option String) : Boot A BootOutcome := do
  let raw := raw.getD ""
  emit (given raw)
  if ← passGate then
    let args := Args.parse raw
    emitAll (parameters args)
    match p.layout.verify (← disk) with
    | .error e =>
      emit (unverified e)
      return .failed
    | .ok () => return if ← start p args then .started else .failed
  else
    emit alreadyStarted
    return .alreadyStarted

def stopping : Event :=
  ⟨.info, s!"Stopping {Product.name} agent", []⟩

end Premain

end PluginAgent
