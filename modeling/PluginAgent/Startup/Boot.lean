import PluginAgent.Startup.Error
import PluginAgent.Startup.Option

namespace PluginAgent

inductive Boot (A α : Type) where
  | done (a : α)
  | log (e : Event) (next : Boot A α)
  | enter (next : Bool → Boot A α)
  | look (next : Disk → Boot A α)
  | property (key : String) (next : Option String → Boot A α)
  | setProperty (key value : String) (next : Boot A α)
  | append (archive : String) (next : Except BootError Unit → Boot A α)
  | create (bootClass : String) (option : AgentOption) (next : Outcome BootError A → Boot A α)
  | start (agent : A) (next : Outcome BootError Unit → Boot A α)
  | hook (agent : A) (next : Boot A α)

structure Surroundings (A S : Type) where
  log : Event → S → S
  enter : S → Bool × S
  look : S → Disk
  property : String → S → Option String
  setProperty : String → String → S → S
  append : String → S → Except BootError Unit × S
  create : String → AgentOption → S → Outcome BootError A × S
  start : A → S → Outcome BootError Unit × S
  hook : A → S → S

namespace Boot

variable {A S α β : Type}

def andThen : Boot A α → (α → Boot A β) → Boot A β
  | done a, f => f a
  | log e next, f => log e (next.andThen f)
  | enter next, f => enter fun passed => (next passed).andThen f
  | look next, f => look fun d => (next d).andThen f
  | property key next, f => property key fun v => (next v).andThen f
  | setProperty key value next, f => setProperty key value (next.andThen f)
  | append archive next, f => append archive fun r => (next r).andThen f
  | create c o next, f => create c o fun r => (next r).andThen f
  | start agent next, f => start agent fun r => (next r).andThen f
  | hook agent next, f => hook agent (next.andThen f)

instance : Monad (Boot A) where
  pure := done
  bind := andThen

def run (i : Surroundings A S) : Boot A α → S → α × S
  | done a, s => (a, s)
  | log e next, s => run i next (i.log e s)
  | enter next, s => match i.enter s with
    | (passed, s) => run i (next passed) s
  | look next, s => run i (next (i.look s)) s
  | property key next, s => run i (next (i.property key s)) s
  | setProperty key value next, s => run i next (i.setProperty key value s)
  | append archive next, s => match i.append archive s with
    | (r, s) => run i (next r) s
  | create c o next, s => match i.create c o s with
    | (r, s) => run i (next r) s
  | start agent next, s => match i.start agent s with
    | (r, s) => run i (next r) s
  | hook agent next, s => run i next (i.hook agent s)

@[simp] theorem run_bind (i : Surroundings A S) (b : Boot A α) (f : α → Boot A β) :
    ∀ s, run i (b >>= f) s = run i (f (run i b s).1) (run i b s).2 := by
  change ∀ s, run i (b.andThen f) s = run i (f (run i b s).1) (run i b s).2
  induction b with
  | done a => intro s; rfl
  | log e next ih => intro s; simp only [andThen, run]; exact ih _
  | enter next ih => intro s; simp only [andThen, run]; exact ih _ _
  | look next ih => intro s; simp only [andThen, run]; exact ih _ _
  | property key next ih => intro s; simp only [andThen, run]; exact ih _ _
  | setProperty key value next ih => intro s; simp only [andThen, run]; exact ih _
  | append archive next ih => intro s; simp only [andThen, run]; exact ih _ _
  | create c o next ih => intro s; simp only [andThen, run]; exact ih _ _
  | start agent next ih => intro s; simp only [andThen, run]; exact ih _ _
  | hook agent next ih => intro s; simp only [andThen, run]; exact ih _

def emit (e : Event) : Boot A Unit := log e (done ())

def emitAll : List Event → Boot A Unit
  | [] => done ()
  | e :: rest => log e (emitAll rest)

def passGate : Boot A Bool := enter done

def disk : Boot A Disk := look done

def getProperty (key : String) : Boot A (Option String) := property key done

def putProperty (key value : String) : Boot A Unit := setProperty key value (done ())

def appendToSearch (archive : String) : Boot A (Except BootError Unit) := append archive done

def createAgent (bootClass : String) (option : AgentOption) : Boot A (Outcome BootError A) :=
  create bootClass option done

def startAgent (agent : A) : Boot A (Outcome BootError Unit) := start agent done

def addHook (agent : A) : Boot A Unit := hook agent (done ())

end Boot

end PluginAgent
