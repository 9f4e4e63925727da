import PluginAgent.Config.Load
import PluginAgent.Plugin.Error

namespace PluginAgent

inductive LayoutFlaw where
  | noHome
  | noBootstrapArchive
  | noBootFolder
  | noBootArchive (stem : String)
  | noLibFolder
  deriving DecidableEq, Repr

def LayoutFlaw.message : LayoutFlaw → String
  | noHome => "agent home is not a directory"
  | noBootstrapArchive => "no probe-bootstrap archive found"
  | noBootFolder => "missing boot directory"
  | noBootArchive stem => s!"no {stem} archive in boot"
  | noLibFolder => "missing lib directory"

inductive IdFlaw where
  | tooLong (size : Nat)
  | badCharacter (c : Char)
  deriving DecidableEq, Repr

def maxIdSize : Nat := 24

def IdFlaw.message : IdFlaw → String
  | tooLong size => s!"too long ({size} > {maxIdSize} characters)"
  | badCharacter c => "invalid character '" ++ String.singleton c ++ "'"

inductive BootError where
  | layoutInvalid (home : String) (flaw : LayoutFlaw)
  | identityMissing (key : String)
  | identityInvalid (key value : String) (flaw : IdFlaw)
  | configNotFound
  | config (e : ConfigError)
  | plugin (e : PluginError)
  | bootClassNotFound (name : String)
  | agentStart (message : String)
  | bootstrapSearch (path message : String)
  | disk (e : DiskError)
  deriving DecidableEq, Repr

def BootError.report : BootError → Report
  | layoutInvalid home flaw => ⟨s!"invalid agent home {home}: {flaw.message}", none⟩
  | identityMissing key => ⟨s!"{key} is not set", none⟩
  | identityInvalid key value flaw => ⟨s!"invalid {key} '{value}': {flaw.message}", none⟩
  | configNotFound => ⟨"configuration file not found", none⟩
  | config e => e.report
  | plugin e => e.report
  | bootClassNotFound name => ⟨s!"boot class not found: {name}", none⟩
  | agentStart message => ⟨s!"agent start failed: {message}", none⟩
  | bootstrapSearch path message =>
      ⟨s!"cannot append {path} to bootstrap search: {message}", none⟩
  | disk e => ⟨s!"I/O error: {e.message}", none⟩

end PluginAgent
