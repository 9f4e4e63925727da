import PluginAgent.Config.Settings
import PluginAgent.Disk
import PluginAgent.Report

namespace PluginAgent

inductive Rotation where
  | daily
  | hourly
  | never
  deriving DecidableEq, Repr

inductive LogFormat where
  | pretty
  | compact
  | json
  | full
  deriving DecidableEq, Repr

inductive LogTarget where
  | stdout
  | stderr
  | file (folder : String)
  deriving DecidableEq, Repr

structure LogFile where
  stem : String := "probe"
  rotation : Rotation := .daily
  deriving DecidableEq, Repr

structure LogConfig where
  level : String := "info"
  format : LogFormat := .compact
  target : LogTarget := .stderr
  file : LogFile := {}
  timestamps : Bool := true
  threadNames : Bool := false
  ansi : Bool := true
  directives : List String := []
  deriving DecidableEq, Repr

inductive LogError where
  | unknownFormat (name : String)
  | badFilter
  | noFolder (e : DiskError)
  | alreadyInstalled
  deriving DecidableEq, Repr

def LogError.report : LogError → Report
  | unknownFormat name => ⟨s!"Configuration error: unknown log format '{name}'", none⟩
  | badFilter => ⟨"Configuration error: ", some "invalid filter directive"⟩
  | noFolder e => ⟨s!"Configuration error: failed to create log directory: {e.message}", none⟩
  | alreadyInstalled => ⟨"Initialization error: ", some "a global log is already installed"⟩

def Rotation.name : Rotation → String
  | daily => "daily"
  | hourly => "hourly"
  | never => "never"

def Rotation.all : List Rotation :=
  [.daily, .hourly, .never]

namespace LogFormat

def name : LogFormat → String
  | pretty => "pretty"
  | compact => "compact"
  | json => "json"
  | full => "full"

def all : List LogFormat :=
  [.pretty, .compact, .json, .full]

def ofName? (name : String) : Option LogFormat :=
  all.find? (·.name == name)

def ofName (name : String) : Except LogError LogFormat :=
  match ofName? name with
  | some f => .ok f
  | none => .error (.unknownFormat name)

theorem ofName?_name (f : LogFormat) : ofName? f.name = some f := by
  cases f <;> decide

end LogFormat

namespace LogConfig

def ofSettings (s : LoggingSettings) : Except LogError LogConfig :=
  (LogFormat.ofName s.format).map fun format =>
    { level := s.level, format, directives := s.directives }

def toFiles (c : LogConfig) (folder stem : String) : LogConfig :=
  { c with target := .file folder, file := { c.file with stem }, ansi := false }

def withDirective (c : LogConfig) (directive : String) : LogConfig :=
  { c with directives := c.directives ++ [directive] }

end LogConfig

end PluginAgent
