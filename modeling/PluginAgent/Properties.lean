namespace PluginAgent

structure Properties where
  written : List (String × String) := []
  initial : List (String × String) := []
  deriving DecidableEq, Repr

namespace Properties

def agentId : String := "PROBE_AGENT_ID"

def applicationName : String := "PROBE_APPLICATION_NAME"

def configPath : String := "PROBE_CONFIG"

def logPath : String := "PROBE_LOG"

def version : String := "PROBE_VERSION"

def keys : List String :=
  [agentId, applicationName, configPath, logPath, version]

def get? (p : Properties) (key : String) : Option String :=
  (p.written.lookup key).or (p.initial.lookup key)

def set (p : Properties) (key value : String) : Properties :=
  { p with written := (key, value) :: p.written.filter (·.1 != key) }

def ofList (values : List (String × String)) : Properties :=
  values.foldl (fun p kv => p.set kv.1 kv.2) {}

@[simp] theorem get?_set_self (p : Properties) (key value : String) :
    (p.set key value).get? key = some value := by
  simp [get?, set]

theorem lookup_filter_ne {l : List (String × String)} {k key : String} (h : k ≠ key) :
    (l.filter (·.1 != key)).lookup k = l.lookup k := by
  induction l with
  | nil => rfl
  | cons x r ih =>
    obtain ⟨a, b⟩ := x
    by_cases ha : a = key
    · subst ha
      have : (k == a) = false := by simpa using h
      simp [List.lookup_cons, this, ih]
    · have hb : (a != key) = true := by simpa using ha
      simp only [List.filter_cons, hb, if_true, List.lookup_cons, ih]

theorem get?_set_of_ne (p : Properties) {k key : String} (h : k ≠ key) (value : String) :
    (p.set key value).get? k = p.get? k := by
  have hk : (k == key) = false := by simpa using h
  simp [get?, set, List.lookup_cons, hk, lookup_filter_ne h]

end Properties

end PluginAgent
