import PluginAgent.Logging.Choice
import PluginAgent.Logging.Setup

namespace PluginAgent

namespace Config

variable {c : Config} {disk : Disk} {path : String}

theorem logging_of_flaw? (h : c.flaw? = none) :
    c.logging.level ∈ levels ∧ c.logging.format ∈ formats := by
  simp only [flaw?] at h
  split at h
  · cases h
  split at h
  · cases h
  split at h
  · cases h
  split at h
  · cases h
  rename_i hlevel
  split at h
  · cases h
  rename_i hformat
  exact ⟨by simpa using hlevel, by simpa using hformat⟩

theorem flaw?_eq_none_of_parse {source : String} {text : List Char}
    (h : parse source text = .ok c) : c.flaw? = none := by
  simp only [parse] at h
  split at h
  · cases h
  · split at h
    · cases h
    · rename_i hnone
      obtain rfl := Except.ok.inj h
      exact hnone

theorem flaw?_eq_none_of_read (h : read disk path = .ok c) : c.flaw? = none := by
  simp only [read] at h
  split at h
  · cases h
  · split at h
    · cases h
    · split at h
      · cases h
      · exact flaw?_eq_none_of_parse h

theorem load_fst (disk : Disk) (path : String) : (load disk path).1 = read disk path := by
  rw [load]
  split <;> rename_i h <;> rw [h]

theorem load_of_read (h : read disk path = .ok c) : load disk path = (.ok c, [loaded path c]) := by
  rw [load, h]

def forRun? (l : Layout) (properties : Properties) (disk : Disk) : Option Config :=
  (LogConfig.configPath? l properties disk).bind fun path => (load disk path).1.toOption

theorem forRun?_eq_some {l : Layout} {properties : Properties}
    (h : forRun? l properties disk = some c) :
    ∃ path, LogConfig.configPath? l properties disk = some path ∧ read disk path = .ok c := by
  obtain ⟨path, hpath, hload⟩ := Option.bind_eq_some_iff.mp h
  refine ⟨path, hpath, ?_⟩
  rw [load_fst] at hload
  cases hread : read disk path with
  | ok c' => simpa [hread, Except.toOption] using hload
  | error e => simp [hread, Except.toOption] at hload

end Config

theorem LogFormat.ofName?_of_mem {name : String} (h : name ∈ Config.formats) :
    ∃ format, ofName? name = some format ∧ format.name = name := by
  simp only [Config.formats, List.mem_cons, List.not_mem_nil, or_false] at h
  rcases h with rfl | rfl | rfl | rfl
  · exact ⟨pretty, ofName?_name pretty, rfl⟩
  · exact ⟨compact, ofName?_name compact, rfl⟩
  · exact ⟨json, ofName?_name json, rfl⟩
  · exact ⟨full, ofName?_name full, rfl⟩

theorem Directive.areValid_level {level : String} (h : level ∈ Config.levels) :
    areValid level.toList = true := by
  simp only [Config.levels, List.mem_cons, List.not_mem_nil, or_false] at h
  rcases h with rfl | rfl | rfl | rfl | rfl <;> decide +kernel

namespace LogConfig

structure Follows (c : LogConfig) (s : LoggingSettings) : Prop where
  level : c.level = s.level
  format : c.format.name = s.format
  directives : c.directives = s.directives

variable {c : LogConfig} {s : LoggingSettings}

theorem ofSettings_follows (h : s.format ∈ Config.formats) :
    ∃ c, ofSettings s = .ok c ∧ c.Follows s := by
  obtain ⟨format, hfound, hname⟩ := LogFormat.ofName?_of_mem h
  refine ⟨{ level := s.level, format, directives := s.directives }, ?_, rfl, hname, rfl⟩
  simp only [ofSettings, LogFormat.ofName, hfound, Except.map]

theorem Follows.filterIsValid_iff (h : c.Follows s) (hlevel : s.level ∈ Config.levels) :
    c.filterIsValid = true ↔ ∀ d ∈ s.directives, Directive.isValid d.toList = true := by
  simp [filterIsValid, h.level, h.directives, Directive.areValid_level hlevel]

theorem openTarget_ne_badFilter (c : LogConfig) (date : String) (disk : Disk) :
    c.openTarget date disk ≠ .error .badFilter := by
  simp only [openTarget]
  split
  · split
    · simp
    · split <;> simp
  · simp

theorem setUp_eq_badFilter_iff (installed : Bool) (date : String) (disk : Disk) :
    c.setUp installed date disk = .error .badFilter ↔ c.filterIsValid = false := by
  cases hvalid : c.filterIsValid with
  | false => simp [setUp, hvalid]
  | true =>
    have hopen := c.openTarget_ne_badFilter date disk
    simp only [setUp, hvalid, Bool.not_true, Bool.false_eq_true, if_false]
    cases htarget : c.openTarget date disk with
    | ok disk => cases installed <;> simp
    | error e => simpa [htarget] using hopen
    | panic m => simp

variable {l : Layout} {properties : Properties} {disk : Disk}

theorem ofFile_of_read {path : String} {config : Config} (h : Config.read disk path = .ok config) :
    ∃ c, ofFile disk path = (some c, [Config.loaded path config]) ∧ c.Follows config.logging := by
  obtain ⟨c, hc, hfollows⟩ :=
    ofSettings_follows (Config.logging_of_flaw? (Config.flaw?_eq_none_of_read h)).2
  refine ⟨c, ?_, hfollows⟩
  simp only [ofFile, Config.load_of_read h, hc, Except.toOption]

theorem ofFile_of_error {path : String} {e : ConfigError} (h : Config.read disk path = .error e) :
    ofFile disk path = (none, []) := by
  simp only [ofFile, Config.load, h]

theorem ofConfig_follows (l : Layout) (properties : Properties) (disk : Disk) :
    (ofConfig l properties disk).1.Follows
      ((Config.forRun? l properties disk).getD {}).logging := by
  cases hpath : configPath? l properties disk with
  | none =>
    simp only [ofConfig, Config.forRun?, hpath, Option.bind_none, Option.getD_none]
    exact ⟨rfl, rfl, rfl⟩
  | some path =>
    simp only [ofConfig, Config.forRun?, hpath, Option.bind_some, Config.load_fst]
    cases hread : Config.read disk path with
    | ok config =>
      obtain ⟨c, hfile, hfollows⟩ := ofFile_of_read hread
      simpa [hfile, Except.toOption] using hfollows
    | error e =>
      rw [ofFile_of_error hread]
      exact ⟨rfl, rfl, rfl⟩

theorem forRun_follows (l : Layout) (properties : Properties) (toStderr : Bool) (disk : Disk) :
    (forRun l properties toStderr disk).1.Follows
      ((Config.forRun? l properties disk).getD {}).logging := by
  obtain ⟨hlevel, hformat, hdirectives⟩ := ofConfig_follows l properties disk
  cases toStderr <;> exact ⟨hlevel, hformat, hdirectives⟩

structure TakenFrom (l : Layout) (properties : Properties) (disk : Disk) (path : String)
    (config : Config) : Prop where
  found : configPath? l properties disk = some path
  follows : ∀ toStderr, (forRun l properties toStderr disk).1.Follows config.logging
  events : ∀ toStderr, (forRun l properties toStderr disk).2 = [Config.loaded path config]

theorem takenFrom_of_read {path : String} {config : Config}
    (hpath : configPath? l properties disk = some path)
    (hread : Config.read disk path = .ok config) : TakenFrom l properties disk path config := by
  have hconfig : Config.forRun? l properties disk = some config := by
    rw [Config.forRun?, hpath, Option.bind_some, Config.load_of_read hread]
    rfl
  obtain ⟨c, hfile, -⟩ := ofFile_of_read hread
  refine ⟨hpath, fun toStderr => ?_, fun toStderr => ?_⟩
  · simpa [hconfig] using forRun_follows l properties toStderr disk
  · simp only [forRun, ofConfig, hpath, hfile]

theorem level_of_forRun? (l : Layout) (properties : Properties) (disk : Disk) :
    ((Config.forRun? l properties disk).getD {}).logging.level ∈ Config.levels := by
  cases hconfig : Config.forRun? l properties disk with
  | none => decide
  | some config =>
    obtain ⟨path, -, hread⟩ := Config.forRun?_eq_some hconfig
    exact (Config.logging_of_flaw? (Config.flaw?_eq_none_of_read hread)).1

theorem filter_refused_iff_bad_directive (l : Layout) (properties : Properties) (toStderr : Bool)
    (disk : Disk) :
    let c := (forRun l properties toStderr disk).1
    let s := ((Config.forRun? l properties disk).getD {}).logging
    c.Follows s ∧ Directive.areValid c.level.toList = true ∧
      (c.filterIsValid = true ↔ ∀ d ∈ s.directives, Directive.isValid d.toList = true) ∧
      ∀ installed date later, c.setUp installed date later = .error .badFilter ↔
        ∃ d ∈ s.directives, Directive.isValid d.toList = false := by
  intro c s
  have hfollows : c.Follows s := forRun_follows l properties toStderr disk
  have hlevel : s.level ∈ Config.levels := level_of_forRun? l properties disk
  have hfilter := hfollows.filterIsValid_iff hlevel
  refine ⟨hfollows, ?_, hfilter, ?_⟩
  · rw [hfollows.level]
    exact Directive.areValid_level hlevel
  · intro installed date later
    rw [setUp_eq_badFilter_iff, ← Bool.not_eq_true, hfilter]
    simp

def looseHome : Disk where
  entries := [(["home"], .directory), (["home", "probe.toml"],
    .file "[logging]\ndirectives = [\"[invalid=syntax\"]\n".toUTF8)]

theorem loose_directive_kept :
    (forRun ⟨"home"⟩ {} true looseHome).1.directives = ["[invalid=syntax"] ∧
      (forRun ⟨"home"⟩ {} true looseHome).1.filterIsValid = false ∧
      (forRun ⟨"home"⟩ {} true looseHome).1.setUp false "" looseHome = .error .badFilter := by
  have hvalid : (forRun ⟨"home"⟩ {} true looseHome).1.filterIsValid = false := by decide +kernel
  refine ⟨by decide +kernel, hvalid, ?_⟩
  rw [setUp_eq_badFilter_iff, hvalid]

end LogConfig

end PluginAgent
