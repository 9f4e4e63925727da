import PluginAgent.Logging.Directive
import PluginAgent.Logging.Settings

namespace PluginAgent

namespace LogConfig

def filterIsValid (c : LogConfig) : Bool :=
  Directive.areValid c.level.toList && c.directives.all fun d => Directive.isValid d.toList

end LogConfig

namespace LogFile

def name (f : LogFile) (date : String) : String :=
  if f.stem.isEmpty then date
  else if f.rotation = .never then f.stem
  else s!"{f.stem}.{date}"

structure Refusal where
  what : String
  e : DiskError
  deriving DecidableEq, Repr

def Refusal.message (r : Refusal) : String :=
  "initializing rolling file appender failed: InitError \x7b context: \"" ++ r.what ++
    "\", source: " ++ r.e.describe ++ " \x7d"

def touch (disk : Disk) (path : String) : Except DiskError Disk :=
  match disk.read path with
  | .ok _ => .ok disk
  | .error .missing => disk.write path ByteArray.empty
  | .error e => .error e

def openIn (folder : String) (date : String) (f : LogFile) (disk : Disk) : Except Refusal Disk :=
  let path := Path.join folder (f.name date)
  match touch disk path with
  | .ok disk => .ok disk
  | .error _ => match disk.makeDirectories (Path.parent path) with
    | .error e => .error ⟨"failed to create log directory", e⟩
    | .ok disk => match touch disk path with
      | .ok disk => .ok disk
      | .error e => .error ⟨"failed to create initial log file", e⟩

end LogFile

namespace LogConfig

def openTarget (c : LogConfig) (date : String) (disk : Disk) : Outcome LogError Disk :=
  match c.target with
  | .file folder => match disk.makeDirectories folder with
    | .error e => .error (.noFolder e)
    | .ok disk => match c.file.openIn folder date disk with
      | .ok disk => .ok disk
      | .error r => .panic (some r.message)
  | _ => .ok disk

def setUp (c : LogConfig) (installed : Bool) (date : String) (disk : Disk) :
    Outcome LogError Disk :=
  if !c.filterIsValid then .error .badFilter
  else match c.openTarget date disk with
    | .ok disk => if installed then .error .alreadyInstalled else .ok disk
    | .error e => .error e
    | .panic m => .panic m

end LogConfig

end PluginAgent
