import PluginAgent.Proofs.Reading
import PluginAgent.Proofs.SetupRuns
import PluginAgent.Proofs.Confinement
import PluginAgent.Proofs.TableHistory

namespace PluginAgent

inductive ContextCall where
  | transform (target interceptor : String)
  | inject (name : String)
  deriving DecidableEq, Repr

namespace ContextCall

def injects : ContextCall → String
  | transform _ interceptor => interceptor
  | inject name => name

def registers? : ContextCall → Option (String × String)
  | transform target interceptor => some (target, interceptor)
  | inject _ => none

def on {σ : Type} (c : Context) : ContextCall → Script σ Context
  | transform target interceptor => c.transform target interceptor
  | inject name => c.inject name

end ContextCall

inductive ContextStep where
  | change (f : Disk → Disk)
  | call (call : ContextCall)

namespace PluginScript

def calling (next : Except PluginError Unit → PluginScript) : ContextCall → PluginScript
  | .transform target interceptor => .transform target interceptor next
  | .inject name => .inject name next

def ofSteps : List ContextStep → PluginScript
  | [] => .done (.ok ())
  | .change f :: rest => .change f (ofSteps rest)
  | .call call :: rest => calling (fun _ => ofSteps rest) call

theorem run_calling {σ : Type} (next : Except PluginError Unit → PluginScript)
    (call : ContextCall) (c : Context) (w : World σ) :
    ((calling next call).within c).run c.injector w =
      match (call.on c).run c.injector w with
      | (.ok c', w') => ((next (.ok ())).within c').run c.injector w'
      | (.error e, w') => ((next (.error e)).within c).run c.injector w'
      | (.panic m, w') => (.panic m, w') := by
  cases call with
  | transform target interceptor =>
    simp only [calling, within, Script.run_andThen, ContextCall.on]
    cases (c.transform target interceptor).run c.injector w with
    | mk outcome w' => cases outcome <;> rfl
  | inject name =>
    simp only [calling, within, Script.run_andThen, ContextCall.on]
    cases (c.inject name).run c.injector w with
    | mk outcome w' => cases outcome <;> rfl

end PluginScript

structure ContextUse (σ : Type) where
  context : Context
  world : World σ
  succeeded : List ContextCall := []

namespace ContextUse

variable {σ : Type}

def answer (u : ContextUse σ) (call : ContextCall) : Outcome PluginError Context × World σ :=
  (call.on u.context).run u.context.injector u.world

def next (u : ContextUse σ) : ContextStep → ContextUse σ
  | .change f => { u with world := { u.world with disk := f u.world.disk } }
  | .call call =>
    match u.answer call with
    | (.ok context, world) => ⟨context, world, u.succeeded ++ [call]⟩
    | (_, world) => { u with world }

def after (u : ContextUse σ) (steps : List ContextStep) : ContextUse σ :=
  steps.foldl next u

end ContextUse

def Transformer.texts (t : Transformer) : String × String :=
  (t.target.text, t.interceptor.text)

namespace Context

variable {σ : Type} {c : Context} {i : Injector} {name : ClassName}

theorem run_resolve (space : NamespaceId) (name : ClassName) (f : LoadedClass → Context)
    (w : World σ) :
    let s : Script σ Context := .resolve space name fun
      | .error e => .done (.error e)
      | .ok loaded => .done (.ok (f loaded))
    (∃ e, s.run i w = (.error e, w)) ∨
      ∃ loaded : LoadedClass, ∃ spaces : Namespaces, loaded.name = name ∧
        s.run i w = (.ok (f loaded), { w with spaces }) := by
  intro s
  simp only [s, Script.run]
  split
  · exact .inl ⟨_, rfl⟩
  · rename_i loaded spaces hresolve
    obtain ⟨-, hresolve⟩ := Injector.resolve_eq_ok hresolve
    obtain ⟨-, -, -, -, hname, -⟩ := Namespaces.resolve_eq_ok hresolve
    exact .inr ⟨loaded, spaces, hname, rfl⟩

theorem map_text_noteInjected (c : Context) (name : ClassName) :
    (c.noteInjected name).injected.map (·.text) =
      c.injected.map (·.text) ++
        if (c.injected.map (·.text)).contains name.text then [] else [name.text] := by
  have hmem : (c.injected.map (·.text)).contains name.text = true ↔ name ∈ c.injected := by
    simp [ClassName.text_inj]
  rw [noteInjected]
  split
  · rename_i h
    rw [if_pos (hmem.mpr h), List.append_nil]
  · rename_i h
    rw [if_neg (mt hmem.mp h), List.map_append]
    rfl

end Context

theorem ClassName.read_eq_ok_iff {text : String} {name : ClassName} :
    read text = .ok name ↔ name.text = text := by
  rw [← ofString_ok_iff, read]
  cases ofString text <;> simp

namespace ContextCall

variable {σ : Type}

theorem run_on (call : ContextCall) (c : Context) (w : World σ) :
    (∃ e, (call.on c).run c.injector w = (.error e, w)) ∨
      ∃ (name : ClassName) (spaces : Namespaces) (c' : Context),
        (call.on c).run c.injector w = (.ok c', { w with spaces }) ∧
        c'.injector = c.injector ∧ name.text = call.injects ∧
        c'.injected = (c.noteInjected name).injected ∧
        c'.transformers.map (·.texts) =
          c.transformers.map (·.texts) ++ call.registers?.toList := by
  cases call with
  | inject text =>
    simp only [on, Context.inject]
    split
    · exact .inl ⟨_, rfl⟩
    · rename_i name hname
      have htext : name.text = text := ClassName.read_eq_ok_iff.mp hname
      rcases Context.run_resolve (i := c.injector) c.injector.space name
        (fun loaded => c.noteInjected loaded.name) w with hfailed | ⟨loaded, spaces, rfl, hrun⟩
      · exact .inl hfailed
      · exact .inr ⟨loaded.name, spaces, _, hrun, c.injector_noteInjected _, htext, rfl,
          by simp [registers?]⟩
  | transform target text =>
    simp only [on, Context.transform]
    split
    · exact .inl ⟨_, rfl⟩
    · rename_i name' hname'
      have htarget : name'.text = target := ClassName.read_eq_ok_iff.mp hname'
      split
      · exact .inl ⟨_, rfl⟩
      · split
        · exact .inl ⟨_, rfl⟩
        · rename_i name hname
          have htext : name.text = text := ClassName.read_eq_ok_iff.mp hname
          rcases Context.run_resolve (i := c.injector) c.injector.space name (fun loaded =>
            (c.noteInjected loaded.name).noteTransformer ⟨name', loaded.name⟩) w with
            hfailed | ⟨loaded, spaces, rfl, hrun⟩
          · exact .inl hfailed
          · refine .inr ⟨loaded.name, spaces, _, hrun, c.injector_noteInjected _, htext, rfl, ?_⟩
            simp [Context.noteTransformer, registers?, Transformer.texts, htarget, htext]

theorem on_sound (call : ContextCall) {c c' : Context} {w w' : World σ} (hc : c.Sound w.spaces)
    (h : (call.on c).run c.injector w = (.ok c', w')) : c'.Sound w'.spaces := by
  cases call with
  | inject name => exact (Context.inject_sound hc h).1
  | transform target interceptor => exact (Context.transform_sound hc h).1

end ContextCall

namespace ContextUse

variable {σ : Type}

structure Gathered (i : Injector) (u : ContextUse σ) : Prop where
  injector : u.context.injector = i
  transformers : u.context.transformers.map (·.texts) = u.succeeded.filterMap (·.registers?)
  injected : u.context.injected.map (·.text) = (u.succeeded.map (·.injects)).eraseDups
  sound : u.context.Sound u.world.spaces

variable {i : Injector} {u : ContextUse σ}

theorem gathered_fresh (i : Injector) (w : World σ) :
    Gathered i ⟨{ injector := i }, w, []⟩ :=
  ⟨rfl, rfl, rfl, Context.sound_fresh w.spaces i⟩

theorem Gathered.next (h : Gathered i u) (step : ContextStep) : Gathered i (u.next step) := by
  cases step with
  | change f => exact ⟨h.injector, h.transformers, h.injected, h.sound⟩
  | call call =>
    rcases call.run_on u.context u.world with
      ⟨e, hfailed⟩ | ⟨name, spaces, c', hrun, hinjector, hname, hinjected, htransformers⟩
    · simp only [ContextUse.next, answer, hfailed]
      exact h
    · simp only [ContextUse.next, answer, hrun]
      refine ⟨hinjector.trans h.injector, ?_, ?_, call.on_sound h.sound hrun⟩
      · rw [htransformers, h.transformers, List.filterMap_append]
        cases hregisters : call.registers? <;> simp [hregisters]
      · -- A class that was injected before keeps its place, whichever kind of call names it again.
        have hknown : (u.succeeded.map (·.injects)).eraseDups.contains call.injects =
            (u.succeeded.map (·.injects)).contains call.injects := by
          rw [Bool.eq_iff_iff, List.contains_iff_mem, List.contains_iff_mem, List.mem_eraseDups]
        rw [hinjected, Context.map_text_noteInjected, h.injected, hname, hknown, List.map_append,
          List.map_singleton, eraseDups_concat]

theorem Gathered.after (h : Gathered i u) (steps : List ContextStep) :
    Gathered i (u.after steps) := by
  induction steps generalizing u with
  | nil => exact h
  | cons step rest ih => exact ih (h.next step)

theorem run_ofSteps (steps : List ContextStep) : ∀ u : ContextUse σ,
    ((PluginScript.ofSteps steps).within u.context).run u.context.injector u.world =
      (.ok (u.after steps).context, (u.after steps).world) := by
  induction steps with
  | nil => intro u; rfl
  | cons step rest ih =>
    intro u
    cases step with
    | change f => exact ih (u.next (.change f))
    | call call =>
      have hnext := ih (u.next (.call call))
      rw [PluginScript.ofSteps, PluginScript.run_calling, after, List.foldl_cons]
      rcases call.run_on u.context u.world with ⟨e, hfailed⟩ | ⟨_, _, c', hrun, hinjector, -⟩
      · simp only [ContextUse.next, answer, hfailed] at hnext ⊢
        exact hnext
      · simp only [ContextUse.next, answer, hrun] at hnext ⊢
        rw [← hinjector]
        exact hnext

theorem gathered_by_calls (i : Injector) (w : World σ) (steps : List ContextStep) :
    let u := ContextUse.after ⟨{ injector := i }, w, []⟩ steps
    let r := u.context.result
    (Setup.standard (fun _ => .ofSteps steps) i).run i w =
        (.ok r, u.world.emit [Setup.configured r]) ∧
      r.transformers.map (·.texts) = u.succeeded.filterMap (·.registers?) ∧
      r.injected.map (·.text) = (u.succeeded.map (·.injects)).eraseDups ∧
      (∀ t ∈ r.transformers, t.interceptor ∈ r.injected) ∧
      (∀ name ∈ r.injected, ∃ names, u.world.spaces.definedClasses i.space = .ok names ∧
        name ∈ names) ∧
      ∀ call, (∃ context, (u.answer call).1 = .ok context) ∨
        ∃ e, u.answer call = (.error e, u.world) ∧ u.next (.call call) = u := by
  intro u r
  have h : Gathered i u := (gathered_fresh i w).after steps
  refine ⟨?_, h.transformers, h.injected, h.sound.interceptors, ?_, ?_⟩
  · have hrun := run_ofSteps steps ⟨{ injector := i }, w, []⟩
    simp only [Setup.standard, Script.run_andThen, hrun, Script.run]
    rfl
  · intro name hname
    obtain ⟨s, hs, hdefined⟩ := h.sound.injected name hname
    rw [h.injector] at hs
    refine ⟨_, ?_, hdefined⟩
    rw [Namespaces.definedClasses, Namespaces.get_eq_ok_iff.mpr hs]
    rfl
  · intro call
    rcases call.run_on u.context u.world with ⟨e, hfailed⟩ | ⟨_, _, c', hrun, -⟩
    · have hanswer : u.answer call = (.error e, u.world) := hfailed
      exact .inr ⟨e, hanswer, by simp only [ContextUse.next, hanswer]⟩
    · exact .inl ⟨c', by rw [answer, hrun]⟩

open Namespaces

def loaderType : ClassName :=
  ⟨"io.probe.loader.Main", by decide⟩

def cartType : ClassName :=
  ⟨"com.shop.Cart", by decide⟩

def tillType : ClassName :=
  ⟨"com.shop.Till", by decide⟩

def mixedSteps (later : Disk) : List ContextStep :=
  [.call (.inject loaderType.text), .call (.transform cartType.text Archive.mainType.text),
    .change fun _ => later, .call (.inject Archive.soprano.text),
    .call (.transform loaderType.text Archive.mainType.text),
    .call (.transform tillType.text Archive.mainType.text)]

theorem succeeded_mixedSteps {now later : Disk} {bytes : ByteArray} {e : PluginError}
    (hread : readEntry now "main.tgz" Archive.mainType.entryPath = .ok bytes)
    (hgone : readEntry later "main.tgz" Archive.soprano.entryPath = .error e) :
    (ContextUse.after ⟨{ injector := mainInjector },
      ({ disk := now, spaces := mainTable, own := () } : World Unit), []⟩
      (mixedSteps later)).succeeded =
        [.transform cartType.text Archive.mainType.text,
          .transform tillType.text Archive.mainType.text] := by
  have hsoprano : (Scope.ofPackages .default).accepts Archive.soprano.text = true := by decide
  have hloader : (Scope.ofPackages .default).accepts loaderType.text = false := by decide
  have hdiffers : (Archive.soprano == Archive.mainType) = false := by decide
  have hcart : Reserved.isReserved cartType.text = false := by decide
  have htill : Reserved.isReserved tillType.text = false := by decide
  have hreserved : Reserved.isReserved loaderType.text = true := by decide
  have hname (c : ClassName) : ClassName.read c.text = .ok c := ClassName.read_eq_ok_iff.mpr rfl
  simp [after, mixedSteps, next, answer, ContextCall.on, Context.inject, Context.transform,
    accepts_mainType, hname, Script.run, Injector.resolve, mainInjector, resolve, get_mainTable,
    hloader, hcart, hread, htill, hreserved, hsoprano, get_define get_mainTable, hdiffers, hgone,
    Outcome.ofExcept, Context.noteTransformer, List.lookup_cons]

theorem mixed_calls_gathered :
    ∃ (r : SetupResult) (w : World Unit),
      (Setup.standard (fun _ => .ofSteps (mixedSteps {})) mainInjector).run mainInjector
        { disk := mainDisk ⟨#[1]⟩, spaces := mainTable, own := () } = (.ok r, w) ∧
      r.transformers.map (·.texts) =
        [(cartType.text, Archive.mainType.text), (tillType.text, Archive.mainType.text)] ∧
      r.injected.map (·.text) = [Archive.mainType.text] := by
  have hread : readEntry (mainDisk ⟨#[1]⟩) "main.tgz" Archive.mainType.entryPath = .ok ⟨#[1]⟩ :=
    readEntry_mainDisk (by decide)
  obtain ⟨e, hgone⟩ : ∃ e, readEntry {} "main.tgz" Archive.soprano.entryPath = .error e :=
    ⟨_, rfl⟩
  obtain ⟨hrun, htransformers, hinjected, -⟩ := gathered_by_calls mainInjector
    ({ disk := mainDisk ⟨#[1]⟩, spaces := mainTable, own := () } : World Unit) (mixedSteps {})
  have hsucceeded := succeeded_mixedSteps hread hgone
  refine ⟨_, _, hrun, htransformers.trans ?_, hinjected.trans ?_⟩
  · rw [hsucceeded]
    rfl
  · rw [hsucceeded]
    simp [ContextCall.injects, List.eraseDups_cons]

end ContextUse

end PluginAgent
