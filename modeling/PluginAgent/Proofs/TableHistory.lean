import Mathlib.Data.List.Induction
import PluginAgent.Proofs.Growth
import PluginAgent.Proofs.PackedEntries

namespace PluginAgent

inductive Request where
  | register (archive : String) (packages : Packages) (scope : Scope)
  | resolve (id : NamespaceId) (name : ClassName)
  | resource (id : NamespaceId) (path : String)
  | archive (id : NamespaceId)
  | packages (id : NamespaceId)
  | inScope (id : NamespaceId) (name : String)
  | definedClasses (id : NamespaceId)
  | size

inductive Reply where
  | registered (id : NamespaceId)
  | resolved (c : LoadedClass)
  | content (bytes : ByteArray)
  | archive (path : String)
  | packages (p : Packages)
  | inScope (answer : Bool)
  | definedClasses (names : List ClassName)
  | size (n : Nat)
  | refused (e : PluginError)

def Reply.ofExcept {α : Type} (f : α → Reply) : Except PluginError α → Reply
  | .ok a => f a
  | .error e => .refused e

structure Success where
  disk : Disk
  name : ClassName
  bytes : ByteArray

namespace Namespaces

def perform (t : Namespaces) (disk : Disk) : Request → Reply × Namespaces
  | .register a p s => (.registered (t.register a p s).1, (t.register a p s).2)
  | .resolve id name =>
    match t.resolve disk id name with
    | .ok (c, t') => (.resolved c, t')
    | .error e => (.refused e, t)
  | .resource id path => (.ofExcept .content (t.resource disk id path), t)
  | .archive id => (.ofExcept .archive (t.archive id), t)
  | .packages id => (.ofExcept .packages (t.packages id), t)
  | .inScope id name => (.ofExcept .inScope (t.inScope id name), t)
  | .definedClasses id => (.ofExcept .definedClasses (t.definedClasses id), t)
  | .size => (.size t.size, t)

def after (t : Namespaces) (steps : List (Disk × Request)) : Namespaces :=
  steps.foldl (fun t step => (t.perform step.1 step.2).2) t

def replies (t : Namespaces) : List (Disk × Request) → List (Disk × Request × Reply)
  | [] => []
  | (disk, request) :: rest =>
      (disk, request, (t.perform disk request).1) :: replies (t.perform disk request).2 rest

def successes (id : NamespaceId) (answered : List (Disk × Request × Reply)) : List Success :=
  answered.filterMap fun
    | (disk, .resolve id' name, .resolved c) => if id' = id then some ⟨disk, name, c.bytes⟩ else none
    | _ => none

@[simp] theorem after_concat (t : Namespaces) (steps : List (Disk × Request)) (disk : Disk)
    (request : Request) :
    t.after (steps ++ [(disk, request)]) = ((t.after steps).perform disk request).2 := by
  simp [after]

theorem replies_concat (t : Namespaces) (steps : List (Disk × Request)) (disk : Disk)
    (request : Request) :
    t.replies (steps ++ [(disk, request)]) =
      t.replies steps ++ [(disk, request, ((t.after steps).perform disk request).1)] := by
  induction steps generalizing t with
  | nil => rfl
  | cons first rest ih => simp [replies, after, ih]

theorem grows_perform (t : Namespaces) (disk : Disk) (request : Request) :
    t.Grows (t.perform disk request).2 := by
  cases request with
  | register a p s => exact grows_register t a p s
  | resolve id name =>
    simp only [perform]
    split
    · rename_i c t' hresolve
      exact grows_resolve hresolve
    · exact .refl t
  | resource id path => exact .refl t
  | archive id => exact .refl t
  | packages id => exact .refl t
  | inScope id name => exact .refl t
  | definedClasses id => exact .refl t
  | size => exact .refl t

theorem grows_after (t : Namespaces) (steps : List (Disk × Request)) : t.Grows (t.after steps) := by
  induction steps generalizing t with
  | nil => exact .refl t
  | cons first rest ih => exact (grows_perform t first.1 first.2).trans (ih _)

end Namespaces

structure Namespace.Records (s : Namespace) (found : List Success) : Prop where
  names : s.defined.map (·.1) = (found.map (·.name)).eraseDups
  bytes : ∀ x ∈ found, s.defined.lookup x.name = some x.bytes
  first : ∀ name x, found.find? (·.name == name) = some x →
    Namespaces.readEntry x.disk s.archive name.entryPath = .ok x.bytes

theorem eraseDups_concat {α : Type} [BEq α] [LawfulBEq α] (l : List α) (a : α) :
    (l ++ [a]).eraseDups = l.eraseDups ++ if l.contains a then [] else [a] := by
  rw [List.eraseDups_append]
  by_cases h : a ∈ l <;> simp [List.removeAll, List.eraseDups_cons, h]

namespace Namespace.Records

variable {s : Namespace} {found : List Success} {name : ClassName}

theorem fresh (a : String) (p : Packages) (scope : Scope) :
    (⟨a, p, scope, []⟩ : Namespace).Records [] :=
  ⟨rfl, by simp, by simp⟩

theorem mem_found_iff (h : s.Records found) :
    name ∈ found.map (·.name) ↔ (s.defined.lookup name).isSome = true := by
  rw [← List.mem_eraseDups, ← h.names, List.lookup_isSome_iff]
  simp only [List.mem_map, beq_iff_eq]
  constructor
  · rintro ⟨c, hc, rfl⟩
    exact ⟨c, hc, rfl⟩
  · rintro ⟨c, hc, rfl⟩
    exact ⟨c, hc, rfl⟩

theorem first_concat {x : Success}
    (h : s.Records found) (hx : x.name ∉ found.map (·.name) →
      Namespaces.readEntry x.disk s.archive x.name.entryPath = .ok x.bytes)
    (name : ClassName) (y : Success) (hy : (found ++ [x]).find? (·.name == name) = some y) :
    Namespaces.readEntry y.disk s.archive name.entryPath = .ok y.bytes := by
  rw [List.find?_append, Option.or_eq_some_iff, List.find?_singleton] at hy
  rcases hy with hold | ⟨hnone, hnew⟩
  · exact h.first name y hold
  · split at hnew
    · rename_i hname
      obtain rfl := Option.some.inj hnew
      obtain rfl := eq_of_beq hname
      refine hx ?_
      intro hmem
      obtain ⟨z, hz, hzname⟩ := List.mem_map.mp hmem
      have hdiffers := List.find?_eq_none.mp hnone z hz
      rw [hzname, beq_self_eq_true] at hdiffers
      exact hdiffers rfl
    · cases hnew

theorem again (h : s.Records found) {disk : Disk} {bytes : ByteArray}
    (hknown : s.defined.lookup name = some bytes) : s.Records (found ++ [⟨disk, name, bytes⟩]) := by
  have hmem : name ∈ found.map (·.name) := h.mem_found_iff.mpr (by rw [hknown]; rfl)
  refine ⟨?_, ?_, h.first_concat fun hnew => absurd hmem hnew⟩
  · rw [h.names, List.map_append, List.map_singleton, eraseDups_concat,
      if_pos (List.contains_iff_mem.mpr hmem), List.append_nil]
  · intro x hx
    rcases List.mem_append.mp hx with hold | hnew
    · exact h.bytes x hold
    · rw [List.mem_singleton.mp hnew]
      exact hknown

theorem read (h : s.Records found) {disk : Disk} {bytes : ByteArray}
    (hunknown : s.defined.lookup name = none)
    (hread : Namespaces.readEntry disk s.archive name.entryPath = .ok bytes) :
    Namespace.Records { s with defined := s.defined ++ [(name, bytes)] }
      (found ++ [⟨disk, name, bytes⟩]) := by
  have hmem : name ∉ found.map (·.name) := by
    rw [h.mem_found_iff, hunknown]
    simp
  refine ⟨?_, ?_, h.first_concat fun _ => hread⟩
  · rw [List.map_append, List.map_append, List.map_singleton, List.map_singleton, eraseDups_concat,
      if_neg (by simpa using hmem), h.names]
  · intro x hx
    rw [List.lookup_append]
    rcases List.mem_append.mp hx with hold | hnew
    · rw [h.bytes x hold]
      rfl
    · rw [List.mem_singleton.mp hnew, hunknown]
      simp

end Namespace.Records

namespace Namespaces

def Records (t : Namespaces) (answered : List (Disk × Request × Reply)) : Prop :=
  ∀ id : NamespaceId,
    (∀ s : Namespace, t.spaces[id.index]? = some s → s.Records (successes id answered)) ∧
    (t.spaces[id.index]? = none → successes id answered = [])

theorem successes_concat (id : NamespaceId) (answered : List (Disk × Request × Reply))
    (x : Disk × Request × Reply) :
    successes id (answered ++ [x]) = successes id answered ++ successes id [x] := by
  simp [successes]

theorem Records.quiet {t : Namespaces} {answered : List (Disk × Request × Reply)}
    (h : t.Records answered) {x : Disk × Request × Reply} (hx : ∀ id, successes id [x] = []) :
    t.Records (answered ++ [x]) := by
  intro id
  rw [successes_concat, hx, List.append_nil]
  exact h id

theorem Records.register {t : Namespaces} {answered : List (Disk × Request × Reply)}
    (h : t.Records answered) (a : String) (p : Packages) (scope : Scope) :
    (t.register a p scope).2.Records answered := by
  intro id
  rw [getElem?_register]
  split
  · rename_i hid
    refine ⟨?_, by simp⟩
    intro s hs
    obtain rfl := Option.some.inj hs
    rw [(h id).2 (List.getElem?_eq_none (Nat.le_of_eq hid.symm))]
    exact .fresh a p scope
  · exact h id

theorem Records.resolve {t t' : Namespaces} {answered : List (Disk × Request × Reply)}
    (h : t.Records answered) {disk : Disk} {id : NamespaceId} {name : ClassName} {c : LoadedClass}
    (hresolve : t.resolve disk id name = .ok (c, t')) :
    t'.Records (answered ++ [(disk, .resolve id name, .resolved c)]) := by
  obtain ⟨s, hs, -, -, -, hcase⟩ := resolve_eq_ok hresolve
  intro other
  rw [successes_concat]
  by_cases hother : other = id
  · subst hother
    have hfound : successes other [(disk, .resolve other name, .resolved c)] =
        [⟨disk, name, c.bytes⟩] := by
      simp [successes]
    rw [hfound]
    have hrecords := (h other).1 s hs
    rcases hcase with ⟨hknown, rfl⟩ | ⟨hunknown, hread, rfl⟩
    · refine ⟨?_, by simp [hs]⟩
      intro s' hs'
      obtain rfl := Option.some.inj (hs.symm.trans hs')
      exact hrecords.again hknown
    · rw [getElem?_define, if_pos rfl, hs]
      refine ⟨?_, by simp⟩
      intro s' hs'
      obtain rfl := Option.some.inj hs'
      exact hrecords.read hunknown hread
  · have hfound : successes other [(disk, .resolve id name, .resolved c)] = [] := by
      simp [successes, Ne.symm hother]
    have hindex : other.index ≠ id.index := fun heq => hother (congrArg NamespaceId.mk heq)
    rw [hfound, List.append_nil, getElem?_resolve_of_ne hresolve hindex]
    exact h other

theorem Records.perform {t : Namespaces} {answered : List (Disk × Request × Reply)}
    (h : t.Records answered) (disk : Disk) (request : Request) :
    (t.perform disk request).2.Records
      (answered ++ [(disk, request, (t.perform disk request).1)]) := by
  cases request with
  | resolve id name =>
    simp only [Namespaces.perform]
    split
    · rename_i c t' hresolve
      exact h.resolve hresolve
    · exact h.quiet fun _ => rfl
  | register a p s => exact (h.register a p s).quiet fun _ => rfl
  | resource id path => exact h.quiet fun _ => rfl
  | archive id => exact h.quiet fun _ => rfl
  | packages id => exact h.quiet fun _ => rfl
  | inScope id name => exact h.quiet fun _ => rfl
  | definedClasses id => exact h.quiet fun _ => rfl
  | size => exact h.quiet fun _ => rfl

theorem records_after (steps : List (Disk × Request)) :
    (after {} steps).Records (replies {} steps) := by
  induction steps using List.reverseRecOn with
  | nil => exact fun id => ⟨by simp [after], by simp [replies, successes]⟩
  | append_singleton steps step ih =>
    rw [after_concat, replies_concat]
    exact ih.perform step.1 step.2

theorem defined_by_first_success (steps : List (Disk × Request)) (id : NamespaceId) (s : Namespace)
    (hs : (after {} steps).get id = .ok s) :
    (after {} steps).definedClasses id =
        .ok ((successes id (replies {} steps)).map (·.name)).eraseDups ∧
      (∀ name first, (successes id (replies {} steps)).find? (·.name == name) = some first →
        readEntry first.disk s.archive name.entryPath = .ok first.bytes ∧
        ∀ x ∈ successes id (replies {} steps), x.name = name → x.bytes = first.bytes) ∧
      ∀ later, ∃ s', (after {} (steps ++ later)).get id = .ok s' ∧ s'.archive = s.archive ∧
        s.defined <+: s'.defined := by
  have hrecords := (records_after steps id).1 s (get_eq_ok_iff.mp hs)
  refine ⟨?_, ?_, ?_⟩
  · rw [definedClasses, hs, ← hrecords.names]
    rfl
  · intro name first hfirst
    refine ⟨hrecords.first name first hfirst, ?_⟩
    intro x hx hname
    have hbytes := hrecords.bytes x hx
    have hmem := hrecords.bytes first (List.mem_of_find?_eq_some hfirst)
    have hfirstName : first.name = name := by simpa using List.find?_some hfirst
    rw [hname, ← hfirstName, hmem] at hbytes
    exact (Option.some.inj hbytes).symm
  · intro later
    obtain ⟨s', hs', hgrows⟩ :=
      grows_after (after {} steps) later id.index s (get_eq_ok_iff.mp hs)
    refine ⟨s', get_eq_ok_iff.mpr ?_, hgrows.archive, hgrows.defined⟩
    rw [after, List.foldl_append]
    exact hs'

def askedTwice (archive : String) (p : Packages) (name : ClassName) (d₁ d₂ : Disk) :
    List (Disk × Request) :=
  [({}, .register archive p (.ofPackages p)), (d₁, .resolve ⟨0⟩ name), (d₂, .resolve ⟨0⟩ name)]

section

variable {archive : String} {p : Packages} {name : ClassName} {d₁ d₂ : Disk} {bytes : ByteArray}

theorem get_askedTwice (hscope : (Scope.ofPackages p).accepts name.text = true)
    (hread : readEntry d₁ archive name.entryPath = .ok bytes) :
    (after {} (askedTwice archive p name d₁ d₂)).get ⟨0⟩ =
      .ok ⟨archive, p, .ofPackages p, [(name, bytes)]⟩ := by
  simp [askedTwice, after, perform, register, size, resolve, get, hscope, hread, define]

theorem successes_askedTwice (hscope : (Scope.ofPackages p).accepts name.text = true)
    (hread : readEntry d₁ archive name.entryPath = .ok bytes) :
    successes ⟨0⟩ (replies {} (askedTwice archive p name d₁ d₂)) =
      [⟨d₁, name, bytes⟩, ⟨d₂, name, bytes⟩] := by
  simp [askedTwice, replies, perform, register, size, resolve, get, hscope, hread, define,
    successes]

end

open Archive

def mainDisk (bytes : ByteArray) : Disk :=
  packedDisk [("main.tgz", mainEntries bytes)]

theorem readEntry_mainDisk {bytes : ByteArray} (h : bytes.size ≤ maxMetadata) :
    readEntry (mainDisk bytes) "main.tgz" mainType.entryPath = .ok bytes :=
  readEntry_mainEntries ⟨by decide, by decide, by decide, by decide⟩ (by simp) h

def replacedSteps : List (Disk × Request) :=
  askedTwice "main.tgz" .default mainType (mainDisk ⟨#[1]⟩) (mainDisk ⟨#[2]⟩)

theorem defined_before_replaced :
    ∃ s, (after {} replacedSteps).get ⟨0⟩ = .ok s ∧
      successes ⟨0⟩ (replies {} replacedSteps) =
        [⟨mainDisk ⟨#[1]⟩, mainType, ⟨#[1]⟩⟩, ⟨mainDisk ⟨#[2]⟩, mainType, ⟨#[1]⟩⟩] ∧
      (after {} replacedSteps).definedClasses ⟨0⟩ = .ok [mainType] ∧
      readEntry (mainDisk ⟨#[1]⟩) s.archive mainType.entryPath = .ok ⟨#[1]⟩ ∧
      readEntry (mainDisk ⟨#[2]⟩) s.archive mainType.entryPath = .ok ⟨#[2]⟩ := by
  have hread {bytes : ByteArray} (h : bytes.size ≤ maxMetadata) :
      readEntry (mainDisk bytes) "main.tgz" mainType.entryPath = .ok bytes :=
    readEntry_mainEntries ⟨by decide, by decide, by decide, by decide⟩ (by simp) h
  have hscope : (Scope.ofPackages .default).accepts mainType.text = true := by decide
  have hfirst := @hread ⟨#[1]⟩ (by decide)
  have hafter : (after {} replacedSteps).get ⟨0⟩ = _ := get_askedTwice hscope hfirst
  have hsuccesses : successes ⟨0⟩ (replies {} replacedSteps) = _ :=
    successes_askedTwice hscope hfirst
  obtain ⟨hnames, hbytes, -⟩ := defined_by_first_success replacedSteps ⟨0⟩ _ hafter
  rw [hsuccesses] at hnames hbytes
  obtain ⟨hdefined, -⟩ := hbytes mainType ⟨mainDisk ⟨#[1]⟩, mainType, ⟨#[1]⟩⟩ (by simp)
  refine ⟨_, hafter, hsuccesses, hnames.trans (congrArg Except.ok ?_), hdefined, hread (by decide)⟩
  simp [List.eraseDups_cons]

end Namespaces

end PluginAgent
