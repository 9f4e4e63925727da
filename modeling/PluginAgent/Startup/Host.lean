import PluginAgent.Startup.Error

namespace PluginAgent

structure Host (H : Type) where
  search : List String := []
  hooks : List H := []
  deriving DecidableEq, Repr

namespace Host

variable {H S : Type}

def hookThread : String := "probe-shutdown-hook"

def append (h : Host H) (disk : Disk) (archive : String) : Except BootError (Host H) :=
  if !disk.isFile archive then .error (.bootstrapSearch archive "not a regular file")
  else if h.search.any (Path.same archive) then .ok h
  else .ok { h with search := h.search ++ [archive] }

def addHook (h : Host H) (hook : H) : Host H :=
  { h with hooks := h.hooks ++ [hook] }

/-- Runs hooks on one thread, which a panic ends; `call` tells whether the hook came back from it.
-/
def runAll (call : H → S → Bool × S) : List H → S → Bool × S
  | [], s => (true, s)
  | hook :: rest, s =>
    match call hook s with
    | (true, s) => runAll call rest s
    | (false, s) => (false, s)

def running (count : Nat) : Event :=
  ⟨.info, "Running shutdown hooks", [("hooks", .number count)]⟩

def hookPanicked : Event :=
  ⟨.error, "Shutdown hook panicked", []⟩

def runHooks (call : H → S → Bool × S) (log : Event → S → S) (h : Host H) (s : S) :
    Nat × Host H × S :=
  if h.hooks.isEmpty then (0, h, s)
  else match runAll call h.hooks (log (running h.hooks.length) s) with
    | (true, s) => (h.hooks.length, { h with hooks := [] }, s)
    | (false, s) => (h.hooks.length, { h with hooks := [] }, log hookPanicked s)

end Host

end PluginAgent
