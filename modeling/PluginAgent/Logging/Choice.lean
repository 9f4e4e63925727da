import PluginAgent.Config.Load
import PluginAgent.Logging.Settings
import PluginAgent.Properties
import PluginAgent.Startup.Layout

namespace PluginAgent.LogConfig

def fileStem : String := "probe-agent"

def configPath? (layout : Layout) (properties : Properties) (disk : Disk) : Option String :=
  (properties.get? Properties.configPath).or (layout.configPath? disk)

def ofFile (disk : Disk) (path : String) : Option LogConfig × List Event :=
  match Config.load disk path with
  | (.ok c, events) => ((ofSettings c.logging).toOption, events)
  | (.error _, events) => (none, events)

def ofConfig (layout : Layout) (properties : Properties) (disk : Disk) : LogConfig × List Event :=
  match configPath? layout properties disk with
  | none => ({}, [])
  | some path => ((ofFile disk path).1.getD {}, (ofFile disk path).2)

def forRun (layout : Layout) (properties : Properties) (toStderr : Bool) (disk : Disk) :
    LogConfig × List Event :=
  let (base, events) := ofConfig layout properties disk
  let c := { base with threadNames := true }
  (if toStderr then c else c.toFiles layout.logPath fileStem, events)

end PluginAgent.LogConfig
