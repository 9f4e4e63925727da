import PluginAgent.ClassName
import PluginAgent.Config.Decode
import PluginAgent.Disk
import PluginAgent.Report
import PluginAgent.Text.Blank
import PluginAgent.Text.Utf8

namespace PluginAgent

open Text

namespace Config

inductive Flaw where
  | noHost
  | noSampling
  | badType (name : String)
  | badLevel (level : String)
  | badFormat (format : String)
  deriving DecidableEq, Repr

def levels : List String :=
  ["trace", "debug", "info", "warn", "error"]

def formats : List String :=
  ["pretty", "compact", "json", "full"]

def oneOf (names : List String) : String :=
  String.ofList (joinWith [',', ' '] (names.map String.toList))

def Flaw.field : Flaw → String
  | noHost => "profiler.collector_host"
  | noSampling => "profiler.sampling_rate"
  | badType _ => "plugins.disabled"
  | badLevel _ => "logging.level"
  | badFormat _ => "logging.format"

def Flaw.message : Flaw → String
  | noHost => "collector host must not be empty"
  | noSampling => "sampling rate must be at least 1"
  | badType name => s!"'{name}' is not a fully-qualified plugin type name"
  | badLevel level => s!"unsupported log level '{level}'; expected one of: {oneOf levels}"
  | badFormat format => s!"unsupported log format '{format}'; expected one of: {oneOf formats}"

def flaw? (c : Config) : Option Flaw :=
  if (trim c.profiler.collectorHost.toList).isEmpty then some .noHost
  else if c.profiler.samplingRate = 0 then some .noSampling
  else match c.plugins.disabled.find? (!ClassName.isValid ·) with
    | some name => some (.badType name)
    | none =>
      if !levels.contains c.logging.level then some (.badLevel c.logging.level)
      else if !formats.contains c.logging.format then some (.badFormat c.logging.format)
      else none

end Config

inductive ConfigError where
  | unreadable (path : String) (e : DiskError)
  | notText (path : String)
  | tooLarge (path : String) (size : Nat)
  | malformed (path : String)
  | invalid (flaw : Config.Flaw)
  deriving DecidableEq, Repr

namespace Config

def maxSize : Nat := 1048576

end Config

def ConfigError.report : ConfigError → Report
  | unreadable path e => ⟨s!"Failed to read config file at {path}: {e.message}", none⟩
  | notText path =>
      ⟨s!"Failed to read config file at {path}: stream did not contain valid UTF-8", none⟩
  | tooLarge path size =>
      ⟨s!"Validation error in field '{path}': config file is {size} bytes, exceeding the " ++
        s!"{Config.maxSize} byte limit", none⟩
  | malformed path =>
      ⟨s!"Failed to parse config file at {path}: ", some "no document of the expected form"⟩
  | invalid flaw => ⟨s!"Validation error in field '{flaw.field}': {flaw.message}", none⟩

namespace Config

def parse (source : String) (text : List Char) : Except ConfigError Config :=
  match (Toml.parse? text).bind ofEntries with
  | none => .error (.malformed source)
  | some c => match c.flaw? with
    | some flaw => .error (.invalid flaw)
    | none => .ok c

def parseInline (text : String) : Except ConfigError Config :=
  parse "<inline>" text.toList

def read (disk : Disk) (path : String) : Except ConfigError Config :=
  match disk.read path with
  | .error e => .error (.unreadable path e)
  | .ok bytes =>
    if bytes.size > maxSize then .error (.tooLarge path bytes.size)
    else match Utf8.decode bytes with
      | .error _ => .error (.notText path)
      | .ok text => parse path text

def loaded (path : String) (c : Config) : Event :=
  ⟨.info, "loaded agent config",
    [("path", .text path), ("disabled_plugins", .number c.plugins.disabled.length)]⟩

def load (disk : Disk) (path : String) : Except ConfigError Config × List Event :=
  match read disk path with
  | .ok c => (.ok c, [loaded path c])
  | .error e => (.error e, [])

end Config

end PluginAgent
