import PluginAgent.Proofs.ClassEntries
import PluginAgent.Proofs.Reading
import PluginAgent.Proofs.TableHistory

namespace PluginAgent

open Text

namespace ClassName

theorem slash_not_mem (c : ClassName) : '/' ∉ c.text.toList := by
  intro hslash
  rcases mem_chars c.flawless hslash with hchar | hdot
  · exact absurd hchar (by decide)
  · exact absurd hdot (by decide)

theorem classOfEntry?_entryPath (c : ClassName) :
    Namespaces.classOfEntry? c.entryPath.toList = some c.text := by
  refine Namespaces.classOfEntry?_eq_some_iff.mpr
    ⟨replaceChar '.' '/' c.text.toList, String.toList_ofList, ?_⟩
  have hback : replaceChar '/' '.' (replaceChar '.' '/' c.text.toList) = c.text.toList := by
    rw [replaceChar, replaceChar, List.map_map]
    refine (List.map_congr_left fun x hx => ?_).trans (List.map_id _)
    have hslash : x ≠ '/' := ne_of_mem_of_not_mem hx c.slash_not_mem
    by_cases hdot : x = '.' <;> simp [hdot, hslash]
  rw [hback, String.ofList_toList]

theorem head?_entryPath (c : ClassName) : c.entryPath.toList.head? ≠ some '/' := by
  obtain ⟨text, htext, hrelative, -⟩ := Archive.EntryName.names_of_normal c.normal_entryPath
  rwa [Utf8.encode_inj.mp htext]

def pathBehind (c : ClassName) (slashes : Nat) : String :=
  String.ofList (List.replicate slashes '/' ++ c.entryPath.toList)

theorem withoutSlashes_pathBehind (c : ClassName) (slashes : Nat) :
    Namespaces.withoutSlashes (c.pathBehind slashes) = c.entryPath.toList := by
  rw [Namespaces.withoutSlashes, pathBehind, String.toList_ofList]
  induction slashes with
  | zero =>
    -- An entry is a relative path, so that nothing of it is dropped.
    have hhead := c.head?_entryPath
    cases hentry : c.entryPath.toList with
    | nil => rfl
    | cons first rest =>
      rw [hentry, List.head?_cons, ne_eq, Option.some.injEq] at hhead
      exact List.dropWhile_cons_of_neg (by simpa using hhead)
  | succ n ih => exact ih

end ClassName

namespace Namespaces

variable {t : Namespaces} {disk : Disk} {id : NamespaceId} {c : ClassName}

def bytesOf (t : Namespaces) (disk : Disk) (id : NamespaceId) (c : ClassName) :
    Except PluginError ByteArray :=
  match t.get id with
  | .error e => .error e
  | .ok s =>
    if s.scope.accepts c.text then readEntry disk s.archive c.entryPath
    else .error (.outOfScope c.text id)

theorem resource_pathBehind (t : Namespaces) (disk : Disk) (id : NamespaceId) (c : ClassName)
    (slashes : Nat) : t.resource disk id (c.pathBehind slashes) = t.bytesOf disk id c := by
  rw [resource, bytesOf]
  cases t.get id with
  | error e => rfl
  | ok s => simp only [c.withoutSlashes_pathBehind, c.classOfEntry?_entryPath, String.ofList_toList]

theorem map_resolve_of_new (hnew : ∀ names, t.definedClasses id = .ok names → c ∉ names) :
    (t.resolve disk id c).map (·.1.bytes) = t.bytesOf disk id c := by
  rw [resolve, bytesOf]
  cases hget : t.get id with
  | error e => rfl
  | ok s =>
    have hdefined : c ∉ s.defined.map (·.1) := hnew _ (by rw [definedClasses, hget]; rfl)
    have hlookup : s.defined.lookup c = none := by
      rw [List.lookup_eq_none_iff]
      intro x hx
      have hother : x.1 ≠ c := fun heq => hdefined (heq ▸ List.mem_map_of_mem hx)
      simpa using Ne.symm hother
    cases haccepts : s.scope.accepts c.text with
    | false => simp [haccepts, Except.map]
    | true =>
      simp only [haccepts, hlookup, Bool.not_true, Bool.false_eq_true, if_false, if_true]
      cases readEntry disk s.archive c.entryPath <;> rfl

theorem readEntry_eq_error {archive entry : String} {e : PluginError}
    (h : readEntry disk archive entry = .error e) :
    (∃ flaw, e = .archiveUnavailable archive flaw) ∨ e = .entryNotFound archive entry := by
  rw [readEntry] at h
  split at h
  · rename_i flaw _
    exact .inl ⟨flaw, (Except.error.inj h).symm⟩
  · exact .inr (Except.error.inj h).symm
  · cases h

theorem get_eq_error {e : PluginError} (h : t.get id = .error e) : e = .unknownNamespace id := by
  rw [get] at h
  split at h
  · cases h
  · exact (Except.error.inj h).symm

inductive Denied (t : Namespaces) (id : NamespaceId) (c : ClassName) : PluginError → Prop
  | unknown (h : t.get id = .error (.unknownNamespace id)) : Denied t id c (.unknownNamespace id)
  | outOfScope (h : t.inScope id c.text = .ok false) : Denied t id c (.outOfScope c.text id)
  | unavailable {archive flaw} (harchive : t.archive id = .ok archive)
      (h : t.inScope id c.text = .ok true) : Denied t id c (.archiveUnavailable archive flaw)
  | notFound {archive} (harchive : t.archive id = .ok archive)
      (h : t.inScope id c.text = .ok true) : Denied t id c (.entryNotFound archive c.entryPath)

theorem denied_of_bytesOf {e : PluginError} (h : t.bytesOf disk id c = .error e) :
    t.Denied id c e := by
  rw [bytesOf] at h
  split at h
  · rename_i e' hget
    obtain rfl := get_eq_error hget
    obtain rfl := Except.error.inj h
    exact .unknown hget
  · rename_i s hget
    have harchive : t.archive id = .ok s.archive := by rw [archive, hget]; rfl
    have hscope : t.inScope id c.text = .ok (s.scope.accepts c.text) := by rw [inScope, hget]; rfl
    split at h
    · rename_i haccepts
      rw [haccepts] at hscope
      rcases readEntry_eq_error h with ⟨flaw, rfl⟩ | rfl
      · exact .unavailable harchive hscope
      · exact .notFound harchive hscope
    · rename_i hrejects
      rw [Bool.eq_false_of_not_eq_true hrejects] at hscope
      obtain rfl := Except.error.inj h
      exact .outOfScope hscope

theorem bytesOf_of_outside (h : t.inScope id c.text = .ok false) (disk : Disk) :
    t.bytesOf disk id c = .error (.outOfScope c.text id) := by
  rw [inScope] at h
  rw [bytesOf]
  cases hget : t.get id with
  | error e => rw [hget] at h; cases h
  | ok s =>
    rw [hget] at h
    have hrejects : s.scope.accepts c.text = false := Except.ok.inj h
    simp [hrejects]

theorem resolved_as_read (t : Namespaces) (disk : Disk) (id : NamespaceId) (c : ClassName)
    (hnew : ∀ names, t.definedClasses id = .ok names → c ∉ names) (slashes : Nat) :
    t.resource disk id (c.pathBehind slashes) = (t.resolve disk id c).map (·.1.bytes) ∧
      (∀ e, t.resolve disk id c = .error e → t.Denied id c e) ∧
      (t.inScope id c.text = .ok false ↔
        t.resolve disk id c = .error (.outOfScope c.text id) ∧
          t.resource disk id (c.pathBehind slashes) = .error (.outOfScope c.text id)) := by
  have hresolve : (t.resolve disk id c).map (·.1.bytes) = t.bytesOf disk id c :=
    map_resolve_of_new hnew
  have hresource := resource_pathBehind t disk id c slashes
  have herror {e : PluginError} (h : t.bytesOf disk id c = .error e) :
      t.resolve disk id c = .error e := by
    cases hfound : t.resolve disk id c with
    | error e' => rw [← hresolve, hfound] at h; exact congrArg _ (Except.error.inj h)
    | ok found => rw [← hresolve, hfound] at h; cases h
  refine ⟨hresource.trans hresolve.symm, ?_, ?_, ?_⟩
  · intro e he
    have hbytes : t.bytesOf disk id c = .error e := by
      rw [← hresolve, he]
      rfl
    exact denied_of_bytesOf hbytes
  · intro houtside
    have hbytes := bytesOf_of_outside houtside disk
    exact ⟨herror hbytes, hresource.trans hbytes⟩
  · rintro ⟨-, hread⟩
    cases denied_of_bytesOf (hresource.symm.trans hread) with
    | outOfScope h => exact h

def packageType : ClassName :=
  ⟨"com.shop.class", by decide⟩

theorem main_resolved_as_read :
    (∀ names, mainTable.definedClasses ⟨0⟩ = .ok names →
        Archive.mainType ∉ names ∧ packageType ∉ names) ∧
      mainTable.resource (mainDisk ⟨#[1]⟩) ⟨0⟩ "//io/probe/plugin/Main.class" = .ok ⟨#[1]⟩ ∧
      (mainTable.resolve (mainDisk ⟨#[1]⟩) ⟨0⟩ Archive.mainType).map (·.1.bytes) = .ok ⟨#[1]⟩ ∧
      mainTable.resource {} ⟨0⟩ "/com/shop/class.class" =
        .error (.outOfScope "com.shop.class" ⟨0⟩) := by
  have hnone : mainTable.definedClasses ⟨0⟩ = .ok [] := rfl
  have hnew (c : ClassName) : ∀ names, mainTable.definedClasses ⟨0⟩ = .ok names → c ∉ names := by
    intro names hnames
    obtain rfl := Except.ok.inj (hnone.symm.trans hnames)
    exact List.not_mem_nil
  have hread : readEntry (mainDisk ⟨#[1]⟩) "main.tgz" Archive.mainType.entryPath = .ok ⟨#[1]⟩ :=
    readEntry_mainDisk (by decide)
  have hresolve {disk : Disk} (h : readEntry disk "main.tgz" Archive.mainType.entryPath =
      .ok ⟨#[1]⟩) :
      (mainTable.resolve disk ⟨0⟩ Archive.mainType).map (·.1.bytes) = .ok ⟨#[1]⟩ := by
    simp [resolve, get_mainTable, accepts_mainType, h, Except.map]
  have hmainPath : Archive.mainType.pathBehind 2 = "//io/probe/plugin/Main.class" := by decide
  have hpackagePath : packageType.pathBehind 1 = "/com/shop/class.class" := by decide
  obtain ⟨hmain, -⟩ := resolved_as_read mainTable (mainDisk ⟨#[1]⟩) ⟨0⟩ _ (hnew Archive.mainType) 2
  obtain ⟨-, -, hpackage⟩ := resolved_as_read mainTable {} ⟨0⟩ _ (hnew packageType) 1
  rw [hmainPath] at hmain
  rw [hpackagePath] at hpackage
  refine ⟨fun names hnames => ⟨hnew _ names hnames, hnew _ names hnames⟩, ?_, hresolve hread, ?_⟩
  · exact hmain.trans (hresolve hread)
  · exact (hpackage.mp rfl).2

end Namespaces

end PluginAgent
