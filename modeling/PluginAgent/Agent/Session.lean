import PluginAgent.Agent.Loading
import PluginAgent.CommandLine
import PluginAgent.Product
import PluginAgent.Startup.Host
import PluginAgent.Startup.Premain

namespace PluginAgent

structure Session where
  disk : Disk := {}
  properties : Properties := {}
  gate : Gate := {}
  host : Host LoadingAgent := {}
  agent : AgentState := {}
  log : List Event := []

namespace Session

def emit (e : Event) (s : Session) : Session :=
  { s with log := s.log ++ [e] }

def enter (s : Session) : Bool × Session :=
  (s.gate.enter.1, { s with gate := s.gate.enter.2 })

def append (archive : String) (s : Session) : Except BootError Unit × Session :=
  match s.host.append s.disk archive with
  | .error e => (.error e, s)
  | .ok host => (.ok (), { s with host })

def agentType? (bootClass : String) : Option AgentType :=
  [.standard, .pluginTest].find? (·.bootClass == bootClass)

def create (bootClass : String) (option : AgentOption) (s : Session) :
    Outcome BootError LoadingAgent × Session :=
  match agentType? bootClass with
  | some type => (.ok ⟨type, option⟩, s)
  | none => (.error (.bootClassNotFound bootClass), s)

def world (s : Session) : AgentWorld :=
  { state := s.agent, disk := s.disk, log := s.log }

def withWorld (s : Session) (w : AgentWorld) : Session :=
  { s with agent := w.state, disk := w.disk, log := w.log }

def startAgent (agent : LoadingAgent) (s : Session) : Outcome BootError Unit × Session :=
  let (done, w) := agent.start s.world
  (done, s.withWorld w)

def surroundings : Surroundings LoadingAgent Session where
  log := emit
  enter := enter
  look := (·.disk)
  property key s := s.properties.get? key
  setProperty key value s := { s with properties := s.properties.set key value }
  append := append
  create := create
  start := startAgent
  hook agent s := { s with host := s.host.addHook agent }

def ofCommandLine (c : CommandLine) (disk : Disk) (initial : List (String × String)) : Session :=
  let properties : Properties := { initial }
  { disk
    properties := match c.config with
      | some path => properties.set Properties.configPath path
      | none => properties }

def starting (home : String) : Event :=
  ⟨.info, s!"{Product.name} starting", [("version", .text Product.version), ("home", .text home)]⟩

def start (c : CommandLine) (s : Session) : BootOutcome × Session :=
  (Premain.premain
    { layout := ⟨c.home⟩
      known := fun bootClass => (agentType? bootClass).isSome
      services := Services.insert {} (.catalog {}) } c.args).run
    surroundings (s.emit (starting c.home))

def interrupted : Event :=
  ⟨.info, "Interrupted, shutting down", []⟩

def exited (hooks : Nat) : Event :=
  ⟨.info, s!"{Product.name} exited", [("hooks", .number hooks)]⟩

def stopAgent (s : Session) : Session :=
  s.withWorld (LoadingAgent.stop (s.emit Premain.stopping).world)

def shutDown (s : Session) : Session :=
  let s := s.emit interrupted
  let (hooks, host, s) := s.host.runHooks (fun _ s => (true, stopAgent s)) emit s
  { s with host }.emit (exited hooks)

end Session

end PluginAgent
