import PluginAgent.Plugin.Discovery

namespace PluginAgent

structure Listed where
  index : Archive.Index
  packages : Packages

namespace Listed

def ofArchives (disk : Disk) : List String → Except PluginError (List Listed) × List Event
  | [] => (.ok [], [])
  | archive :: rest =>
    match Archive.Index.ofFile disk archive with
    | .error flaw => (.error (.archiveOpen archive flaw), [])
    | .ok index =>
      let (packages, events) := index.packages
      let (listed, later) := ofArchives disk rest
      (listed.map (⟨index, packages⟩ :: ·), events ++ later)

end Listed

structure Loader (σ : Type) where
  disabled : Disabled := {}
  catalog : Catalog := {}
  setup : Setup σ

namespace Loader

variable {σ : Type}

def loading (l : Listed) (c : Candidate) : Event :=
  ⟨.info, "Loading plugin",
    [("plugin", .text c.type.text), ("archive", .text l.index.path),
      ("packages", .text l.packages.display)]⟩

def skippedPlugin (l : Listed) (c : Candidate) (e : PluginError) : Event :=
  ⟨.warn, "Plugin setup failed, skipping plugin",
    [("plugin", .text c.type.text), ("archive", .text l.index.path), ("error", .report e.report)]⟩

def skippedRest (l : Listed) (e : PluginError) : Event :=
  ⟨.warn, "Skipping remaining plugins of archive",
    [("archive", .text l.index.path), ("error", .report e.report)]⟩

def loaded (archives plugins : Nat) : Event :=
  ⟨.info, "Loaded plugins", [("archives", .number archives), ("plugins", .number plugins)]⟩

def verify (disk : Disk) (archive : String) : Except PluginError Unit :=
  match Archive.accessFlaw? disk archive with
  | none => .ok ()
  | some flaw => .error (.archiveUnavailable archive flaw)

def setUp (l : Loader σ) (a : Listed) (space : NamespaceId) (c : Candidate) (w : World σ) :
    Outcome PluginError SetupResult × World σ :=
  let w := (w.emit [loading a c]).meanwhile space c.type
  match verify w.disk a.index.path with
  | .error e => (.error e, w)
  | .ok () => (l.setup c.plugin ⟨space, c.type, a.index.path⟩).run ⟨space, c.type, a.index.path⟩ w

structure Progress where
  results : List SetupResult := []
  stopped : Option PluginError := none
  deriving DecidableEq, Repr

def setUpAll (l : Loader σ) (a : Listed) (space : NamespaceId) :
    List Candidate → World σ → Outcome Empty Progress × World σ
  | [], w => (.ok {}, w)
  | c :: rest, w =>
    match setUp l a space c w with
    | (.panic m, w) => (.panic m, w)
    | (.error e, w) =>
      -- only an archive that is gone costs the plugins that are left
      if e.isUnavailable then (.ok { stopped := some e }, w)
      else setUpAll l a space rest (w.emit [skippedPlugin a c e])
    | (.ok r, w) =>
      match setUpAll l a space rest w with
      | (.panic m, w) => (.panic m, w)
      | (.ok p, w) => (.ok { p with results := r :: p.results }, w)

def setUpArchive (l : Loader σ) (a : Listed) (space : NamespaceId) (w : World σ) :
    Outcome Empty Progress × World σ :=
  match Candidate.discover a.index l.catalog with
  | .panic m => (.panic m, w)
  | .error e => (.ok { stopped := some e }, w)
  | .ok cs => setUpAll l a space (l.disabled.keep cs) (w.emit (l.disabled.skips cs))

def Progress.events (a : Listed) (p : Progress) : List Event :=
  (p.stopped.map (skippedRest a)).toList

def setUpListed (l : Loader σ) : List Listed → World σ → Outcome Empty (List SetupResult) × World σ
  | [], w => (.ok [], w)
  | a :: rest, w =>
    let (space, spaces) := w.spaces.register a.index.path a.packages (.ofPackages a.packages)
    match setUpArchive l a space { w with spaces } with
    | (.panic m, w) => (.panic m, w)
    | (.ok p, w) =>
      match setUpListed l rest (w.emit (p.events a)) with
      | (.panic m, w) => (.panic m, w)
      | (.ok results, w) => (.ok (p.results ++ results), w)

def load (l : Loader σ) (archives : List String) (w : World σ) :
    Outcome PluginError (List SetupResult) × World σ :=
  -- every archive is open before a plugin of any is set up
  match Listed.ofArchives w.disk archives with
  | (.error e, events) => (.error e, w.emit events)
  | (.ok listed, events) =>
    match setUpListed l listed (w.emit events) with
    | (.panic m, w) => (.panic m, w)
    | (.ok results, w) => (.ok results, w.emit [loaded archives.length results.length])

end Loader

end PluginAgent
