import PluginAgent.Plugin.Setup
import PluginAgent.Proofs.Growth

namespace PluginAgent

namespace Script

variable {σ α : Type} {i : Injector}

theorem run_spaces {P : Namespaces → Prop}
    (step : ∀ {t t' : Namespaces} {disk : Disk} {name : ClassName} {c : LoadedClass},
      P t → t.resolve disk i.space name = .ok (c, t') → P t')
    (s : Script σ α) : ∀ w : World σ, P w.spaces → P (s.run i w).2.spaces := by
  induction s with
  | done result => intro w h; exact h
  | panic m => intro w h; exact h
  | resolve space name next ih =>
    intro w h
    simp only [run]
    split
    · exact ih _ w h
    · rename_i c spaces hresolve
      exact ih _ _ (step h (Injector.resolve_eq_ok hresolve).2)
  | resource path next ih => intro w h; exact ih _ w h
  | inScope name next ih => intro w h; exact ih _ w h
  | look next ih => intro w h; exact ih _ w h
  | change f next ih => intro w h; exact ih { w with disk := f w.disk } h
  | log e next ih => intro w h; exact ih (w.emit [e]) h
  | own next ih => intro w h; exact ih _ w h
  | keep f next ih => intro w h; exact ih { w with own := f w.own } h

theorem run_grows (s : Script σ α) (w : World σ) : w.spaces.Grows (s.run i w).2.spaces :=
  run_spaces (fun h hresolve => h.trans (Namespaces.grows_resolve hresolve)) s w (.refl w.spaces)

end Script

namespace Namespaces

def Defines (t : Namespaces) (id : NamespaceId) (name : ClassName) : Prop :=
  ∃ s : Namespace, t.spaces[id.index]? = some s ∧ name ∈ s.defined.map (·.1)

theorem Defines.grows {t t' : Namespaces} {id : NamespaceId} {name : ClassName}
    (h : t.Defines id name) (hgrows : t.Grows t') : t'.Defines id name := by
  obtain ⟨s, hs, hname⟩ := h
  obtain ⟨s', hs', hgrows⟩ := hgrows _ s hs
  exact ⟨s', hs', (hgrows.defined.map _).subset hname⟩

theorem defines_resolve {t t' : Namespaces} {disk : Disk} {id : NamespaceId} {name : ClassName}
    {c : LoadedClass} (h : t.resolve disk id name = .ok (c, t')) : t'.Defines id name := by
  obtain ⟨s, hs, hname⟩ := defined_resolve h
  exact ⟨s, hs, List.mem_map_of_mem hname⟩

end Namespaces

structure Context.Sound (t : Namespaces) (c : Context) : Prop where
  injected : ∀ name ∈ c.injected, t.Defines c.injector.space name
  interceptors : ∀ tr ∈ c.transformers, tr.interceptor ∈ c.injected
  targets : ∀ tr ∈ c.transformers, Reserved.isReserved tr.target.text = false

namespace Context

variable {σ : Type} {t t' : Namespaces} {c c' : Context}

theorem sound_fresh (t : Namespaces) (i : Injector) : Sound t { injector := i } :=
  ⟨by simp, by simp, by simp⟩

theorem Sound.grows (h : c.Sound t) (hgrows : t.Grows t') : c.Sound t' :=
  ⟨fun name hname => (h.injected name hname).grows hgrows, h.interceptors, h.targets⟩

@[simp] theorem injector_noteInjected (c : Context) (name : ClassName) :
    (c.noteInjected name).injector = c.injector := by
  unfold noteInjected
  split <;> rfl

@[simp] theorem transformers_noteInjected (c : Context) (name : ClassName) :
    (c.noteInjected name).transformers = c.transformers := by
  unfold noteInjected
  split <;> rfl

@[simp] theorem mem_injected_noteInjected {name other : ClassName} :
    other ∈ (c.noteInjected name).injected ↔ other ∈ c.injected ∨ other = name := by
  unfold noteInjected
  split
  · rename_i h
    constructor
    · exact Or.inl
    · rintro (h' | rfl)
      · exact h'
      · exact h
  · simp

theorem Sound.noteInjected {name : ClassName} (h : c.Sound t)
    (hname : t.Defines c.injector.space name) : (c.noteInjected name).Sound t := by
  refine ⟨?_, ?_, by simpa using h.targets⟩
  · intro other hother
    rw [injector_noteInjected]
    rcases mem_injected_noteInjected.mp hother with hold | rfl
    · exact h.injected other hold
    · exact hname
  · intro tr htr
    rw [transformers_noteInjected] at htr
    exact mem_injected_noteInjected.mpr (.inl (h.interceptors tr htr))

theorem Sound.noteTransformer {tr : Transformer} (h : c.Sound t) (hmem : tr.interceptor ∈ c.injected)
    (hfree : Reserved.isReserved tr.target.text = false) : (c.noteTransformer tr).Sound t := by
  refine ⟨h.injected, ?_, ?_⟩
  · intro tr' htr'
    rcases List.mem_append.mp htr' with hold | hnew
    · exact h.interceptors tr' hold
    · rw [List.mem_singleton.mp hnew]
      exact hmem
  · intro tr' htr'
    rcases List.mem_append.mp htr' with hold | hnew
    · exact h.targets tr' hold
    · rw [List.mem_singleton.mp hnew]
      exact hfree

theorem run_resolve_eq_ok {space : NamespaceId} {name : ClassName} {i : Injector}
    {f : LoadedClass → Context} {w w' : World σ}
    (h : (Script.resolve space name fun
      | .error e => .done (.error e)
      | .ok loaded => .done (.ok (f loaded)) : Script σ Context).run i w = (.ok c', w')) :
    ∃ loaded : LoadedClass, loaded.name = name ∧ c' = f loaded ∧
      w.spaces.resolve w.disk i.space name = .ok (loaded, w'.spaces) := by
  simp only [Script.run] at h
  split at h
  · simp [Outcome.ofExcept] at h
  · rename_i loaded spaces hresolve
    simp only [Outcome.ofExcept, Prod.mk.injEq, Outcome.ok.injEq] at h
    obtain ⟨rfl, rfl⟩ := h
    obtain ⟨-, hresolve⟩ := Injector.resolve_eq_ok hresolve
    obtain ⟨-, -, -, -, hname, -⟩ := Namespaces.resolve_eq_ok hresolve
    exact ⟨loaded, hname, rfl, hresolve⟩

theorem inject_sound {name : String} {w w' : World σ} (hc : c.Sound w.spaces)
    (h : (c.inject name).run c.injector w = (.ok c', w')) :
    c'.Sound w'.spaces ∧ c'.injector = c.injector := by
  unfold inject at h
  split at h
  · simp [Script.run, Outcome.ofExcept] at h
  · obtain ⟨loaded, rfl, rfl, hresolve⟩ := run_resolve_eq_ok h
    refine ⟨?_, injector_noteInjected c _⟩
    exact (hc.grows (Namespaces.grows_resolve hresolve)).noteInjected
      (Namespaces.defines_resolve hresolve)

theorem transform_sound {target interceptor : String} {w w' : World σ} (hc : c.Sound w.spaces)
    (h : (c.transform target interceptor).run c.injector w = (.ok c', w')) :
    c'.Sound w'.spaces ∧ c'.injector = c.injector := by
  unfold transform at h
  split at h
  · simp [Script.run, Outcome.ofExcept] at h
  · split at h
    · simp [Script.run, Outcome.ofExcept] at h
    · rename_i target _ hfree
      split at h
      · simp [Script.run, Outcome.ofExcept] at h
      · obtain ⟨loaded, rfl, rfl, hresolve⟩ := run_resolve_eq_ok h
        refine ⟨?_, injector_noteInjected c _⟩
        apply Sound.noteTransformer
        · exact (hc.grows (Namespaces.grows_resolve hresolve)).noteInjected
            (Namespaces.defines_resolve hresolve)
        · exact mem_injected_noteInjected.mpr (.inr rfl)
        · simpa using hfree

end Context

theorem PluginScript.within_sound {σ : Type} (s : PluginScript) :
    ∀ {c c' : Context} {w w' : World σ}, c.Sound w.spaces →
      (s.within c).run c.injector w = (.ok c', w') →
      c'.Sound w'.spaces ∧ c'.injector = c.injector := by
  induction s with
  | done result =>
    intro c c' w w' hc h
    cases result with
    | error e => simp [within, Except.map, Script.run, Outcome.ofExcept] at h
    | ok a =>
      simp only [within, Except.map, Script.run, Outcome.ofExcept, Prod.mk.injEq,
        Outcome.ok.injEq] at h
      obtain ⟨rfl, rfl⟩ := h
      exact ⟨hc, rfl⟩
  | panic m => intro c c' w w' hc h; simp [within, Script.run] at h
  | transform target interceptor next ih =>
    intro c c' w w' hc h
    simp only [within, Script.run_andThen] at h
    have hgrows := (c.transform target interceptor).run_grows (i := c.injector) w
    split at h
    · rename_i c₁ w₁ hrun
      obtain ⟨hc₁, hinjector⟩ := Context.transform_sound hc hrun
      rw [← hinjector] at h ⊢
      exact ih _ hc₁ h
    · rename_i e w₁ hrun
      rw [hrun] at hgrows
      exact ih _ (hc.grows hgrows) h
    · cases h
  | inject name next ih =>
    intro c c' w w' hc h
    simp only [within, Script.run_andThen] at h
    have hgrows := (c.inject name).run_grows (i := c.injector) w
    split at h
    · rename_i c₁ w₁ hrun
      obtain ⟨hc₁, hinjector⟩ := Context.inject_sound hc hrun
      rw [← hinjector] at h ⊢
      exact ih _ hc₁ h
    · rename_i e w₁ hrun
      rw [hrun] at hgrows
      exact ih _ (hc.grows hgrows) h
    · cases h
  | resolve space name next ih =>
    intro c c' w w' hc h
    simp only [within, Script.run] at h
    split at h
    · exact ih _ hc h
    · rename_i loaded spaces hresolve
      have hgrows := Namespaces.grows_resolve (Injector.resolve_eq_ok hresolve).2
      exact ih _ (hc.grows hgrows) h
  | resource path next ih => intro c c' w w' hc h; exact ih _ hc h
  | inScope name next ih => intro c c' w w' hc h; exact ih _ hc h
  | look next ih => intro c c' w w' hc h; exact ih _ hc h
  | change f next ih => intro c c' w w' hc h; exact ih (w := { w with disk := f w.disk }) hc h

theorem Setup.standard_sound {σ : Type} {plugin : Plugin} {i : Injector} {r : SetupResult}
    {w w' : World σ} (h : (Setup.standard plugin i).run i w = (.ok r, w')) :
    ∃ c : Context, c.Sound w'.spaces ∧ c.injector = i ∧ r = c.result := by
  simp only [standard, Script.run_andThen] at h
  split at h
  · rename_i c w₁ hrun
    simp only [Script.run, Outcome.ofExcept, Prod.mk.injEq, Outcome.ok.injEq] at h
    obtain ⟨rfl, rfl⟩ := h
    obtain ⟨hc, hinjector⟩ :=
      PluginScript.within_sound (plugin i) (Context.sound_fresh w.spaces i) hrun
    exact ⟨c, hc, hinjector, rfl⟩
  · simp [Script.run, Outcome.ofExcept] at h
  · cases h

theorem Setup.standard_bound {σ : Type} {plugin : Plugin} {i : Injector} {r : SetupResult}
    {w w' : World σ} (h : (Setup.standard plugin i).run i w = (.ok r, w')) :
    r.plugin = i.plugin ∧ r.archive = i.archive ∧ r.space = i.space := by
  obtain ⟨c, -, rfl, rfl⟩ := standard_sound h
  exact ⟨rfl, rfl, rfl⟩

end PluginAgent
