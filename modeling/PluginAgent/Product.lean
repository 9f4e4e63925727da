namespace PluginAgent

namespace Product

def name : String := "probe"

def version : String := "0.1.1"

def banner : String :=
  let rule := String.ofList (List.replicate 77 '*')
  s!"{rule}\n* Probe Agent load failure\n{rule}"

end Product

namespace Reserved

def root : String := "io.probe"

def prefixes : List String :=
  ["io.probe.bootstrap", "io.probe.profiler", "io.probe.common", "io.probe.rpc",
    "io.probe.exception", "io.probe.loader"]

def defaultPackage : String := "io.probe.plugin"

def pluginInterface : String := "io.probe.bootstrap.plugin.ProfilerPlugin"

def packageAttribute : String := "Probe-Plugin-Package"

def startsWith (name start : String) : Bool :=
  start.toList.isPrefixOf name.toList

def isReserved (name : String) : Bool :=
  prefixes.any (startsWith name)

theorem root_covers : ∀ p ∈ prefixes, startsWith p root = true := by decide

theorem defaultPackage_free : isReserved defaultPackage = false := by decide

end Reserved

end PluginAgent
