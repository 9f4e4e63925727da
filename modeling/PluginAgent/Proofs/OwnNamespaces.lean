import PluginAgent.Proofs.Reading
import PluginAgent.Proofs.TableHistory

namespace PluginAgent

structure Registration where
  archive : String
  packages : Packages
  scope : Scope

def Namespace.registration (s : Namespace) : Registration :=
  ⟨s.archive, s.packages, s.scope⟩

inductive Operation where
  | request (r : Request)
  | bind (space : NamespaceId) (plugin : ClassName)
  | inScope (i : Injector) (name : String)
  | inject (i : Injector) (name : String)
  | resolve (i : Injector) (space : NamespaceId) (name : ClassName)
  | resource (i : Injector) (path : String)

inductive Answer where
  | reply (r : Reply)
  | bound (i : Injector)

namespace Operation

def registration? : Operation → Option Registration
  | request (.register archive packages scope) => some ⟨archive, packages, scope⟩
  | _ => none

def space? : Operation → Option NamespaceId
  | request (.register ..) => none
  | request (.resolve id _) => some id
  | request (.resource id _) => some id
  | request (.archive id) => some id
  | request (.packages id) => some id
  | request (.inScope id _) => some id
  | request (.definedClasses id) => some id
  | request .size => none
  | bind space _ => some space
  | inScope i _ => some i.space
  | inject i _ => some i.space
  | resolve _ space _ => some space
  | resource i _ => some i.space

end Operation

namespace Answer

def refused (e : PluginError) : Answer :=
  reply (.refused e)

def registered? : Answer → Option NamespaceId
  | reply (.registered id) => some id
  | _ => none

end Answer

namespace Namespaces

def answered (t : Namespaces) :
    Except PluginError (LoadedClass × Namespaces) → Answer × Namespaces
  | .ok (c, t') => (.reply (.resolved c), t')
  | .error e => (.refused e, t)

def operate (t : Namespaces) (disk : Disk) : Operation → Answer × Namespaces
  | .request r => (.reply (t.perform disk r).1, (t.perform disk r).2)
  | .bind space plugin =>
    match Injector.bind t space plugin with
    | .ok i => (.bound i, t)
    | .error e => (.refused e, t)
  | .inScope i name => (.reply (.inScope (i.inScope t name)), t)
  | .inject i name => t.answered (i.inject t disk name)
  | .resolve i space name => t.answered (i.resolve t disk space name)
  | .resource i path => (.reply (.ofExcept .content (i.resource t disk path)), t)

def operateAll (t : Namespaces) : List (Disk × Operation) → List Answer × Namespaces
  | [] => ([], t)
  | (disk, op) :: rest =>
      ((t.operate disk op).1 :: (operateAll (t.operate disk op).2 rest).1,
        (operateAll (t.operate disk op).2 rest).2)

inductive Effect (t : Namespaces) : Operation → Answer → Namespaces → Prop
  | register (archive packages scope) :
      Effect t (.request (.register archive packages scope)) (.reply (.registered ⟨t.size⟩))
        (t.register archive packages scope).2
  | define {op} (c : LoadedClass) (hop : op.registration? = none) (h : op.space? = some c.space) :
      Effect t op (.reply (.resolved c)) (t.define c.space c.name c.bytes)
  | keep {op a} (hop : op.registration? = none) (ha : a.registered? = none) : Effect t op a t

variable {t t' : Namespaces} {op : Operation} {a : Answer}

theorem registered?_ofExcept {α : Type} {f : α → Reply} (r : Except PluginError α)
    (h : ∀ x, (Answer.reply (f x)).registered? = none) :
    (Answer.reply (.ofExcept f r)).registered? = none := by
  cases r with
  | ok x => exact h x
  | error e => rfl

theorem effect_answered (disk : Disk) (op : Operation) {space : NamespaceId}
    {r : Except PluginError (LoadedClass × Namespaces)} (hop : op.registration? = none)
    (hspace : op.space? = some space)
    (h : ∀ c t', r = .ok (c, t') → ∃ name, t.resolve disk space name = .ok (c, t')) :
    Effect t op (t.answered r).1 (t.answered r).2 := by
  match r with
  | .error e => exact .keep hop rfl
  | .ok (c, t') =>
    obtain ⟨name, hresolve⟩ := h c t' rfl
    obtain ⟨s, -, -, rfl, rfl, ⟨-, rfl⟩ | ⟨-, -, rfl⟩⟩ := resolve_eq_ok hresolve
    · exact .keep hop rfl
    · exact .define c hop hspace

theorem effect_perform (t : Namespaces) (disk : Disk) (r : Request) :
    Effect t (.request r) (.reply (t.perform disk r).1) (t.perform disk r).2 := by
  cases r with
  | register archive packages scope => exact .register archive packages scope
  | resolve id name =>
    have heffect := effect_answered disk (.request (.resolve id name)) rfl rfl
      fun c t' (h : t.resolve disk id name = .ok (c, t')) => ⟨name, h⟩
    simp only [perform]
    cases hresolve : t.resolve disk id name with
    | error e => exact .keep rfl rfl
    | ok found => rw [hresolve] at heffect; exact heffect
  | resource id path => exact .keep rfl (registered?_ofExcept _ fun _ => rfl)
  | archive id => exact .keep rfl (registered?_ofExcept _ fun _ => rfl)
  | packages id => exact .keep rfl (registered?_ofExcept _ fun _ => rfl)
  | inScope id name => exact .keep rfl (registered?_ofExcept _ fun _ => rfl)
  | definedClasses id => exact .keep rfl (registered?_ofExcept _ fun _ => rfl)
  | size => exact .keep rfl rfl

theorem effect_operate (t : Namespaces) (disk : Disk) (op : Operation) :
    Effect t op (t.operate disk op).1 (t.operate disk op).2 := by
  cases op with
  | request r => exact effect_perform t disk r
  | bind space plugin =>
    simp only [operate]
    split <;> exact .keep rfl rfl
  | inScope i name => exact .keep rfl rfl
  | inject i name =>
    refine effect_answered disk (.inject i name) rfl rfl fun c t' h => ?_
    obtain ⟨name, -, hresolve⟩ := Injector.inject_eq_ok h
    exact ⟨name, hresolve⟩
  | resolve i space name =>
    refine effect_answered disk (.resolve i space name) rfl rfl fun c t' h => ?_
    obtain ⟨rfl, hresolve⟩ := Injector.resolve_eq_ok h
    exact ⟨name, hresolve⟩
  | resource i path => exact .keep rfl (registered?_ofExcept _ fun _ => rfl)

namespace Effect

theorem untouched (h : Effect t op a t') {k : Nat} (hk : k < t.size)
    (hother : op.space? ≠ some ⟨k⟩) : t'.spaces[k]? = t.spaces[k]? := by
  cases h with
  | register archive packages scope => rw [getElem?_register, if_neg (Nat.ne_of_lt hk)]
  | define c hop hspace =>
    rw [getElem?_define, if_neg]
    rintro rfl
    exact hother hspace
  | keep => rfl

theorem of_refused {e : PluginError} (h : Effect t op (.refused e) t') : t' = t := by
  cases h with
  | keep => rfl

theorem registrations (h : Effect t op a t') :
    t'.spaces.map (·.registration) =
      t.spaces.map (·.registration) ++ op.registration?.toList := by
  cases h with
  | register archive packages scope => exact List.map_append
  | define c hop hspace =>
    rw [hop, Option.toList_none, List.append_nil]
    refine List.ext_getElem? fun k => ?_
    rw [List.getElem?_map, List.getElem?_map, getElem?_define]
    split
    · rw [Option.map_map]
      rfl
    · rfl
  | keep hop ha => rw [hop, Option.toList_none, List.append_nil]

theorem registered? (h : Effect t op a t') :
    a.registered? = op.registration?.map fun _ => ⟨t.size⟩ := by
  cases h with
  | register archive packages scope => rfl
  | define c hop hspace => rw [hop]; rfl
  | keep hop ha => rw [hop, ha]; rfl

end Effect

theorem size_eq_length_registrations (t : Namespaces) :
    t.size = (t.spaces.map (·.registration)).length :=
  (List.length_map _).symm

theorem registered_in_turn (steps : List (Disk × Operation)) : ∀ t : Namespaces,
    (t.operateAll steps).2.spaces.map (·.registration) =
        t.spaces.map (·.registration) ++ steps.filterMap (·.2.registration?) ∧
      (t.operateAll steps).1.filterMap (·.registered?) =
        (List.range' t.size (steps.filterMap (·.2.registration?)).length).map NamespaceId.mk := by
  induction steps with
  | nil => intro t; simp [operateAll]
  | cons step rest ih =>
    intro t
    obtain ⟨disk, op⟩ := step
    have heffect := effect_operate t disk op
    obtain ⟨hregistrations, hids⟩ := ih (t.operate disk op).2
    simp only [operateAll]
    -- The numbers go on from the size that the first operation leaves the table with.
    have hsize := size_eq_length_registrations (t.operate disk op).2
    rw [heffect.registrations] at hregistrations hsize
    rw [hregistrations, List.filterMap_cons, List.filterMap_cons, heffect.registered?, hids, hsize]
    cases op.registration? with
    | none => simp [size]
    | some r => simp [size, List.range'_succ]

theorem only_named_space_changes (steps : List (Disk × Operation)) :
    let t := (operateAll {} steps).2
    (∀ (disk : Disk) (op : Operation),
      (∀ k, k < t.size → op.space? ≠ some ⟨k⟩ →
        (t.operate disk op).2.spaces[k]? = t.spaces[k]?) ∧
      (∀ (k : Nat) (s : Namespace), t.spaces[k]? = some s → ∃ s' : Namespace,
        (t.operate disk op).2.spaces[k]? = some s' ∧ s'.registration = s.registration) ∧
      ∀ e, (t.operate disk op).1 = .refused e → (t.operate disk op).2 = t) ∧
    (∀ (i : Injector) (space : NamespaceId) (name : ClassName), space ≠ i.space →
      ∀ (t' : Namespaces) (disk : Disk), t'.operate disk (.resolve i space name) =
        (.refused (.namespaceMismatch i.space space), t')) ∧
    (operateAll {} steps).1.filterMap (·.registered?) = (List.range t.size).map NamespaceId.mk ∧
    t.spaces.map (·.registration) = steps.filterMap (·.2.registration?) := by
  intro t
  obtain ⟨hregistered, hids⟩ := registered_in_turn steps {}
  have hregistrations : t.spaces.map (·.registration) = steps.filterMap (·.2.registration?) :=
    hregistered
  refine ⟨fun disk op => ?_, ?_, ?_, hregistrations⟩
  · have heffect := effect_operate t disk op
    refine ⟨fun k => heffect.untouched, fun k s hs => ?_, fun e he => ?_⟩
    · have hcolumn := congrArg (·[k]?) heffect.registrations
      have hlength : k < (t.spaces.map (·.registration)).length := by
        rw [List.length_map]
        exact (List.getElem?_eq_some_iff.mp hs).1
      rw [List.getElem?_append_left hlength, List.getElem?_map, List.getElem?_map, hs] at hcolumn
      obtain ⟨s', hs', hsame⟩ := Option.map_eq_some_iff.mp hcolumn
      exact ⟨s', hs', hsame⟩
    · rw [he] at heffect
      exact heffect.of_refused
  · intro i space name hother t' disk
    simp only [operate, Injector.resolve, if_neg hother]
    rfl
  · rw [hids, ← hregistrations, ← size_eq_length_registrations, List.range_eq_range']
    rfl

def twinSteps : List (Disk × Operation) :=
  [({}, .request (.register "main.tgz" .default (.ofPackages .default))),
    ({}, .request (.register "main.tgz" .default (.ofPackages .default)))]

theorem twin_space_untouched :
    let t := (operateAll {} twinSteps).2
    let op := Operation.inject mainInjector Archive.mainType.text
    (t.operate (mainDisk ⟨#[1]⟩) op).1 = .reply (.resolved ⟨⟨0⟩, Archive.mainType, ⟨#[1]⟩⟩) ∧
      (t.operate (mainDisk ⟨#[1]⟩) op).2.spaces[1]? = t.spaces[1]? ∧
      (t.operate {} (.resolve mainInjector ⟨1⟩ Archive.mainType)).1 =
        .refused (.namespaceMismatch ⟨0⟩ ⟨1⟩) ∧
      (operateAll {} twinSteps).1.filterMap (·.registered?) = [⟨0⟩, ⟨1⟩] := by
  intro t op
  have hget : t.get ⟨0⟩ = .ok ⟨"main.tgz", .default, .ofPackages .default, []⟩ := rfl
  have hread : readEntry (mainDisk ⟨#[1]⟩) "main.tgz" Archive.mainType.entryPath = .ok ⟨#[1]⟩ :=
    readEntry_mainDisk (by decide)
  have hname : ClassName.read Archive.mainType.text = .ok Archive.mainType := rfl
  have hanswer {disk : Disk}
      (h : readEntry disk "main.tgz" Archive.mainType.entryPath = .ok ⟨#[1]⟩) :
      (t.operate disk op).1 = .reply (.resolved ⟨⟨0⟩, Archive.mainType, ⟨#[1]⟩⟩) := by
    simp [op, operate, Injector.inject, Injector.resolve, resolve, mainInjector, hname, hget,
      accepts_mainType, h, answered]
  obtain ⟨hframe, hmismatch, hids, -⟩ := only_named_space_changes twinSteps
  have huntouched {disk : Disk} : (t.operate disk op).2.spaces[1]? = t.spaces[1]? :=
    (hframe disk op).1 1 (by decide) (by decide)
  refine ⟨hanswer hread, huntouched, ?_, hids⟩
  exact congrArg Prod.fst (hmismatch mainInjector ⟨1⟩ Archive.mainType (by decide) t {})

end Namespaces

end PluginAgent
