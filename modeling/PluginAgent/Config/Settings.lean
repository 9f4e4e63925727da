namespace PluginAgent

structure ProfilerSettings where
  collectorHost : String := "127.0.0.1"
  collectorPort : Nat := 9994
  samplingRate : Nat := 1
  applicationServerType : Option String := none
  deriving DecidableEq, Repr

structure PluginSettings where
  disabled : List String := []
  deriving DecidableEq, Repr

structure LoggingSettings where
  level : String := "info"
  format : String := "compact"
  directives : List String := []
  deriving DecidableEq, Repr

structure Config where
  profiler : ProfilerSettings := {}
  plugins : PluginSettings := {}
  logging : LoggingSettings := {}
  deriving DecidableEq, Repr

end PluginAgent
