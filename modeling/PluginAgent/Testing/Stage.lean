import PluginAgent.Agent.Loading
import PluginAgent.Startup.Host
import PluginAgent.Startup.Premain

namespace PluginAgent.Testing

inductive StartBehavior where
  | succeed
  | fail
  | panic
  deriving DecidableEq, Repr

inductive Actor where
  | recording (behavior : StartBehavior)
  | loading (number : Nat)
  | panicking (message : Option String)
  | idle
  deriving DecidableEq, Repr

inductive EntryPoint where
  | recording (behavior : StartBehavior)
  | loading (type : AgentType)
  | refusing (message : String)
  | panicking (message : Option String)
  | idle
  deriving DecidableEq, Repr

structure EntryPoints where
  points : List (String × EntryPoint) := []
  deriving DecidableEq, Repr

namespace EntryPoints

def insert (e : EntryPoints) (bootClass : String) (p : EntryPoint) : EntryPoints :=
  ⟨(bootClass, p) :: e.points⟩

def get? (e : EntryPoints) (bootClass : String) : Option EntryPoint :=
  e.points.lookup bootClass

def contains (e : EntryPoints) (bootClass : String) : Bool :=
  (e.get? bootClass).isSome

def forTypes (types : List AgentType) (p : AgentType → EntryPoint) : EntryPoints :=
  types.foldl (fun e t => e.insert t.bootClass (p t)) {}

def recording (behavior : StartBehavior) : EntryPoints :=
  forTypes [.standard, .pluginTest] fun _ => .recording behavior

def loading : EntryPoints :=
  forTypes [.standard, .pluginTest] .loading

def standardOnly (p : EntryPoint) : EntryPoints :=
  forTypes [.standard] fun _ => p

end EntryPoints

structure MockHost where
  appended : List String := []
  hooks : List Actor := []
  registered : Nat := 0
  deriving DecidableEq, Repr

inductive HostKind where
  | mock
  | process
  | refusing (part : String)
  deriving DecidableEq, Repr

structure Calls where
  starts : Nat := 0
  stops : Nat := 0
  boots : List (String × AgentOption) := []

structure Stage where
  disk : Disk := {}
  properties : Properties := {}
  gate : Gate := {}
  log : List Event := []
  kind : HostKind := .mock
  mock : MockHost := {}
  process : Host Actor := {}
  calls : Calls := {}
  agents : List (LoadingAgent × AgentState) := []

namespace Stage

def emit (e : Event) (s : Stage) : Stage :=
  { s with log := s.log ++ [e] }

def enter (s : Stage) : Bool × Stage :=
  (s.gate.enter.1, { s with gate := s.gate.enter.2 })

def append (archive : String) (s : Stage) : Except BootError Unit × Stage :=
  match s.kind with
  | .mock => (.ok (), { s with mock := { s.mock with appended := s.mock.appended ++ [archive] } })
  | .process => match s.process.append s.disk archive with
    | .error e => (.error e, s)
    | .ok process => (.ok (), { s with process })
  | .refusing part =>
    if Layout.contains part.toList archive.toList then
      (.error (.bootstrapSearch archive "refused"), s)
    else (.ok (), s)

def hook (agent : Actor) (s : Stage) : Stage :=
  match s.kind with
  | .mock => { s with mock := { s.mock with
      hooks := s.mock.hooks ++ [agent], registered := s.mock.registered + 1 } }
  | .process => { s with process := s.process.addHook agent }
  | .refusing _ => s

def create (e : EntryPoints) (bootClass : String) (option : AgentOption) (s : Stage) :
    Outcome BootError Actor × Stage :=
  match e.get? bootClass with
  | none => (.error (.bootClassNotFound bootClass), s)
  | some (.recording b) =>
      (.ok (.recording b), { s with calls := { s.calls with
        boots := s.calls.boots ++ [(bootClass, option)] } })
  | some (.loading type) =>
      (.ok (.loading s.agents.length), { s with agents := s.agents ++ [(⟨type, option⟩, {})] })
  | some (.refusing message) => (.error (.agentStart message), s)
  | some (.panicking message) => (.ok (.panicking message), s)
  | some .idle => (.ok .idle, s)

def withAgent {α : Type} (number : Nat) (otherwise : α)
    (f : LoadingAgent → AgentWorld → α × AgentWorld) (s : Stage) : α × Stage :=
  match s.agents[number]? with
  | none => (otherwise, s)
  | some (agent, state) =>
    let (a, w) := f agent { state, disk := s.disk, log := s.log }
    (a, { s with disk := w.disk, log := w.log, agents := s.agents.set number (agent, w.state) })

def start (agent : Actor) (s : Stage) : Outcome BootError Unit × Stage :=
  match agent with
  | .recording b =>
    let s := { s with calls := { s.calls with starts := s.calls.starts + 1 } }
    match b with
    | .succeed => (.ok (), s)
    | .fail => (.error (.agentStart "configured to fail"), s)
    | .panic => (.panic (some "recording agent configured to panic"), s)
  | .loading number => s.withAgent number (.ok ()) LoadingAgent.start
  | .panicking message => (.panic message, s)
  | .idle => (.ok (), s)

def stop (agent : Actor) (s : Stage) : Stage :=
  let s := s.emit Premain.stopping
  match agent with
  | .recording _ => { s with calls := { s.calls with stops := s.calls.stops + 1 } }
  | .loading number => (s.withAgent number () fun _ w => ((), LoadingAgent.stop w)).2
  | _ => s

def surroundings (e : EntryPoints) : Surroundings Actor Stage where
  log := emit
  enter := enter
  look := (·.disk)
  property key s := s.properties.get? key
  setProperty key value s := { s with properties := s.properties.set key value }
  append := append
  create := create e
  start := start
  hook := hook

def premain (e : EntryPoints) (layout : Layout) (services : Services) (args : Option String)
    (s : Stage) : BootOutcome × Stage :=
  (Premain.premain { layout, known := e.contains, services } args).run (surroundings e) s

def runHooks (s : Stage) : Nat × Stage :=
  match s.kind with
  | .mock =>
      (s.mock.hooks.length,
        s.mock.hooks.foldl (fun s a => s.stop a) { s with mock := { s.mock with hooks := [] } })
  | .process =>
    let (count, process, s) := s.process.runHooks (fun a s => (true, Stage.stop a s)) emit s
    (count, { s with process })
  | .refusing _ => (0, s)

end Stage

end PluginAgent.Testing
