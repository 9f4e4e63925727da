import PluginAgent.Plugin.Loader
import PluginAgent.Startup.Option

namespace PluginAgent

structure LoadingAgent where
  type : AgentType
  option : AgentOption

structure AgentState where
  running : Bool := false
  loaded : List SetupResult := []
  deriving DecidableEq, Repr

structure AgentWorld where
  state : AgentState := {}
  disk : Disk
  log : List Event := []

namespace AgentWorld

def emit (w : AgentWorld) (events : List Event) : AgentWorld :=
  { w with log := w.log ++ events }

def raise (w : AgentWorld) : Bool × AgentWorld :=
  (w.state.running, { w with state := { w.state with running := true } })

def lower (w : AgentWorld) : Bool × AgentWorld :=
  (w.state.running, { w with state := { w.state with running := false } })

def keep (results : List SetupResult) (w : AgentWorld) : AgentWorld :=
  { w with state := { w.state with loaded := results } }

def release (w : AgentWorld) : List SetupResult × AgentWorld :=
  (w.state.loaded, { w with state := { w.state with loaded := [] } })

end AgentWorld

namespace LoadingAgent

def catalog (a : LoadingAgent) : Catalog :=
  a.option.services.catalog?.getD {}

def onlyVerifying (archives : Nat) : Event :=
  ⟨.warn, "No plugin types registered, plugin archives are only verified",
    [("archives", .number archives)]⟩

def catalogEvents (a : LoadingAgent) : List Event :=
  if a.catalog.isEmpty && !a.option.plugins.isEmpty then
    [onlyVerifying a.option.plugins.length]
  else []

def loader (a : LoadingAgent) : Loader Unit :=
  { disabled := .ofList a.option.config.plugins.disabled
    catalog := a.catalog
    setup := Setup.standard }

def load (a : LoadingAgent) (w : AgentWorld) :
    Outcome PluginError (List SetupResult) × AgentWorld :=
  let (results, world) :=
    a.loader.load a.option.plugins { disk := w.disk, own := (), log := w.log ++ a.catalogEvents }
  (results, { w with disk := world.disk, log := world.log })

def transformerEvent (plugin : ClassName) (t : Transformer) : Event :=
  ⟨.info, "Plugin transformer",
    [("plugin", .text plugin.text), ("target", .text t.target.text),
      ("interceptor", .text t.interceptor.text)]⟩

def reportEvents (type : AgentType) (results : List SetupResult) : List Event :=
  match type with
  | .standard => []
  | .pluginTest => results.flatMap fun r => r.transformers.map (transformerEvent r.plugin)

def runningEvent (a : LoadingAgent) (plugins : Nat) : Event :=
  ⟨.info, "Agent running",
    [("agent_id", .text a.option.identity.agentId),
      ("application", .text a.option.identity.applicationName),
      ("boot_class", .text a.type.bootClass),
      ("archives", .number a.option.plugins.length), ("plugins", .number plugins)]⟩

def alreadyRunning : Event :=
  ⟨.warn, "Agent already running", []⟩

def stopped (plugins : Nat) : Event :=
  ⟨.info, "Agent stopped", [("plugins", .number plugins)]⟩

def start (a : LoadingAgent) (w : AgentWorld) : Outcome BootError Unit × AgentWorld :=
  match w.raise with
  | (true, w) => (.ok (), w.emit [alreadyRunning])
  | (false, w) =>
    match a.load w with
    -- only an error takes the flag back
    | (.panic m, w) => (.panic m, w)
    | (.error e, w) => (.error (.plugin e), w.lower.2)
    | (.ok results, w) =>
      let events := reportEvents a.type results ++ [a.runningEvent results.length]
      (.ok (), (w.emit events).keep results)

def stop (w : AgentWorld) : AgentWorld :=
  match w.lower with
  | (false, w) => w
  | (true, w) =>
    let (released, w) := w.release
    w.emit [stopped released.length]

end LoadingAgent

end PluginAgent
