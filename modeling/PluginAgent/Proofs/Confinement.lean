import PluginAgent.Proofs.SetupRuns

namespace PluginAgent

inductive Liberty where
  | panic
  | look
  | change
  | own
  deriving DecidableEq, Repr

namespace Script

variable {σ α β : Type} {k : Liberty} {i : Injector}

def Avoids (k : Liberty) : Script σ α → Prop
  | done _ => True
  | panic _ => k ≠ .panic
  | resolve _ _ next => ∀ r, (next r).Avoids k
  | resource _ next => ∀ r, (next r).Avoids k
  | inScope _ next => ∀ r, (next r).Avoids k
  | look next => k ≠ .look ∧ ∀ d, (next d).Avoids k
  | change _ next => k ≠ .change ∧ next.Avoids k
  | log _ next => next.Avoids k
  | own next => k ≠ .own ∧ ∀ s, (next s).Avoids k
  | keep _ next => k ≠ .own ∧ next.Avoids k

theorem Avoids.andThen {s : Script σ α} {f : Except PluginError α → Script σ β} (hs : s.Avoids k)
    (hf : ∀ r, (f r).Avoids k) : (s.andThen f).Avoids k := by
  induction s with
  | done result => exact hf result
  | panic m => exact hs
  | resolve space name next ih => exact fun r => ih r (hs r)
  | resource path next ih => exact fun r => ih r (hs r)
  | inScope name next ih => exact fun r => ih r (hs r)
  | look next ih => exact ⟨hs.1, fun d => ih d (hs.2 d)⟩
  | change g next ih => exact ⟨hs.1, ih hs.2⟩
  | log e next ih => exact ih hs
  | own next ih => exact ⟨hs.1, fun s => ih s (hs.2 s)⟩
  | keep g next ih => exact ⟨hs.1, ih hs.2⟩

theorem run_ne_panic (s : Script σ α) (h : s.Avoids .panic) :
    ∀ (w : World σ) (m : Option String), (s.run i w).1 ≠ .panic m := by
  induction s with
  | done result => intro w m; cases result <;> simp [run, Outcome.ofExcept]
  | panic m => exact absurd rfl h
  | resolve space name next ih =>
    intro w m
    simp only [run]
    split
    · exact ih _ (h _) w m
    · exact ih _ (h _) _ m
  | resource path next ih => intro w m; exact ih _ (h _) w m
  | inScope name next ih => intro w m; exact ih _ (h _) w m
  | look next ih => intro w m; exact ih _ (h.2 _) w m
  | change f next ih => intro w m; exact ih h.2 _ m
  | log e next ih => intro w m; exact ih h _ m
  | own next ih => intro w m; exact ih _ (h.2 _) w m
  | keep f next ih => intro w m; exact ih h.2 _ m

theorem run_eq_ofExcept (s : Script σ α) (h : s.Avoids .panic) (w : World σ) :
    ∃ r w', s.run i w = (.ofExcept r, w') := by
  cases hrun : s.run i w with
  | mk outcome w' =>
    cases outcome with
    | ok a => exact ⟨.ok a, w', rfl⟩
    | error e => exact ⟨.error e, w', rfl⟩
    | panic m => exact absurd (congrArg Prod.fst hrun) (run_ne_panic s h w m)

theorem run_disk (s : Script σ α) (h : s.Avoids .change) :
    ∀ w : World σ, (s.run i w).2.disk = w.disk := by
  induction s with
  | done result => intro w; rfl
  | panic m => intro w; rfl
  | resolve space name next ih =>
    intro w
    simp only [run]
    split
    · exact ih _ (h _) w
    · exact ih _ (h _) _
  | resource path next ih => intro w; exact ih _ (h _) w
  | inScope name next ih => intro w; exact ih _ (h _) w
  | look next ih => intro w; exact ih _ (h.2 _) w
  | change f next ih => exact absurd rfl h.1
  | log e next ih => intro w; exact ih h (w.emit [e])
  | own next ih => intro w; exact ih _ (h.2 _) w
  | keep f next ih => intro w; exact ih h.2 { w with own := f w.own }

theorem run_outside (s : Script σ α) : ∀ w : World σ, (s.run i w).2.outside = w.outside := by
  induction s with
  | done result => intro w; rfl
  | panic m => intro w; rfl
  | resolve space name next ih =>
    intro w
    simp only [run]
    split
    · exact ih _ w
    · exact ih _ _
  | resource path next ih => intro w; exact ih _ w
  | inScope name next ih => intro w; exact ih _ w
  | look next ih => intro w; exact ih _ w
  | change f next ih => intro w; exact ih { w with disk := f w.disk }
  | log e next ih => intro w; exact ih (w.emit [e])
  | own next ih => intro w; exact ih _ w
  | keep f next ih => intro w; exact ih { w with own := f w.own }

end Script

namespace Context

variable {σ : Type} {k : Liberty}

theorem inject_avoids (c : Context) (name : String) :
    (c.inject name : Script σ Context).Avoids k := by
  rw [inject]
  split
  · trivial
  · intro r
    cases r <;> trivial

theorem transform_avoids (c : Context) (target interceptor : String) :
    (c.transform target interceptor : Script σ Context).Avoids k := by
  rw [transform]
  split
  · trivial
  · split
    · trivial
    · split
      · trivial
      · intro r
        cases r <;> trivial

end Context

namespace PluginScript

def Avoids (k : Liberty) : PluginScript → Prop
  | done _ => True
  | panic _ => k ≠ .panic
  | transform _ _ next => ∀ r, (next r).Avoids k
  | inject _ next => ∀ r, (next r).Avoids k
  | resolve _ _ next => ∀ r, (next r).Avoids k
  | resource _ next => ∀ r, (next r).Avoids k
  | inScope _ next => ∀ r, (next r).Avoids k
  | look next => k ≠ .look ∧ ∀ d, (next d).Avoids k
  | change _ next => k ≠ .change ∧ next.Avoids k

theorem Avoids.within {σ : Type} {k : Liberty} {s : PluginScript} (hs : s.Avoids k) :
    ∀ c : Context, (s.within c : Script σ Context).Avoids k := by
  induction s with
  | done result => intro c; trivial
  | panic m => intro c; exact hs
  | transform target interceptor next ih =>
    intro c
    rw [PluginScript.within]
    refine (c.transform_avoids target interceptor).andThen ?_
    intro r
    cases r with
    | error e => exact ih _ (hs _) c
    | ok c' => exact ih _ (hs _) c'
  | inject name next ih =>
    intro c
    rw [PluginScript.within]
    refine (c.inject_avoids name).andThen ?_
    intro r
    cases r with
    | error e => exact ih _ (hs _) c
    | ok c' => exact ih _ (hs _) c'
  | resolve space name next ih => intro c r; exact ih r (hs r) c
  | resource path next ih => intro c r; exact ih r (hs r) c
  | inScope name next ih => intro c r; exact ih r (hs r) c
  | look next ih => intro c; exact ⟨hs.1, fun d => ih d (hs.2 d) c⟩
  | change f next ih => intro c; exact ⟨hs.1, ih hs.2 c⟩

end PluginScript

theorem Setup.standard_avoids {σ : Type} {k : Liberty} {plugin : Plugin} {i : Injector}
    (h : (plugin i).Avoids k) : (Setup.standard plugin i : Script σ SetupResult).Avoids k := by
  refine (h.within { injector := i }).andThen ?_
  intro r
  cases r <;> trivial

namespace Namespaces

variable {t₁ t₂ : Namespaces} {d₁ d₂ : Disk} {id : NamespaceId} {s : Namespace}

theorem readEntry_congr {archive : String} (h : d₁.entry archive = d₂.entry archive)
    (entry : String) : readEntry d₁ archive entry = readEntry d₂ archive entry := by
  simp only [readEntry, Archive.readEntry, Archive.Contents.at, h]

theorem get_define {t : Namespaces} (hs : t.get id = .ok s) (name : ClassName)
    (bytes : ByteArray) :
    (t.define id name bytes).get id = .ok { s with defined := s.defined ++ [(name, bytes)] } := by
  rw [get_eq_ok_iff, getElem?_define, if_pos rfl, get_eq_ok_iff.mp hs]
  rfl

theorem resource_alike (h₁ : t₁.get id = .ok s) (h₂ : t₂.get id = .ok s)
    (hentry : d₁.entry s.archive = d₂.entry s.archive) (path : String) :
    t₁.resource d₁ id path = t₂.resource d₂ id path := by
  simp only [resource, h₁, h₂, readEntry_congr hentry]

theorem resolve_alike (h₁ : t₁.get id = .ok s) (h₂ : t₂.get id = .ok s)
    (hentry : d₁.entry s.archive = d₂.entry s.archive) (name : ClassName) :
    (∃ e, t₁.resolve d₁ id name = .error e ∧ t₂.resolve d₂ id name = .error e) ∨
    ∃ c t₁' t₂', t₁.resolve d₁ id name = .ok (c, t₁') ∧ t₂.resolve d₂ id name = .ok (c, t₂') ∧
      ∃ s', t₁'.get id = .ok s' ∧ t₂'.get id = .ok s' ∧ s'.archive = s.archive := by
  simp only [resolve, h₁, h₂, readEntry_congr hentry]
  split
  · exact .inl ⟨_, rfl, rfl⟩
  · split
    · exact .inr ⟨_, t₁, t₂, rfl, rfl, s, h₁, h₂, rfl⟩
    · split
      · exact .inl ⟨_, rfl, rfl⟩
      · rename_i bytes _
        exact .inr ⟨_, _, _, rfl, rfl, _, get_define h₁ name bytes, get_define h₂ name bytes, rfl⟩

end Namespaces

def World.Quiet {σ : Type} (w : World σ) : Prop :=
  ∀ space type disk, w.outside space type disk = disk

theorem World.Quiet.meanwhile {σ : Type} {w : World σ} (h : w.Quiet) (space : NamespaceId)
    (type : ClassName) : w.meanwhile space type = w := by
  rw [World.meanwhile, h]

structure World.Alike {σ : Type} (id : NamespaceId) (archive : String) (w₁ w₂ : World σ) :
    Prop where
  space : ∃ s, w₁.spaces.get id = .ok s ∧ w₂.spaces.get id = .ok s ∧ s.archive = archive
  entry : w₁.disk.entry archive = w₂.disk.entry archive
  quiet₁ : w₁.Quiet
  quiet₂ : w₂.Quiet

theorem World.Alike.ready {σ : Type} {id : NamespaceId} {archive : String} {w₁ w₂ : World σ}
    (h : World.Alike id archive w₁ w₂) (events : List Event) (type : ClassName) :
    World.Alike id archive ((w₁.emit events).meanwhile id type)
      ((w₂.emit events).meanwhile id type) := by
  have h₁ : (w₁.emit events).Quiet := h.quiet₁
  have h₂ : (w₂.emit events).Quiet := h.quiet₂
  rw [h₁.meanwhile, h₂.meanwhile]
  exact ⟨h.space, h.entry, h₁, h₂⟩

/-- Pairs of worlds that an injector cannot tell apart, whatever it asks of them. -/
structure Injector.Blind {σ : Type} (i : Injector) (R : World σ → World σ → Prop) : Prop where
  resolve : ∀ {w₁ w₂ : World σ} (name : ClassName), R w₁ w₂ →
    (∃ e, w₁.spaces.resolve w₁.disk i.space name = .error e ∧
      w₂.spaces.resolve w₂.disk i.space name = .error e) ∨
    ∃ c t₁ t₂, w₁.spaces.resolve w₁.disk i.space name = .ok (c, t₁) ∧
      w₂.spaces.resolve w₂.disk i.space name = .ok (c, t₂) ∧
      R { w₁ with spaces := t₁ } { w₂ with spaces := t₂ }
  resource : ∀ {w₁ w₂ : World σ} (path : String), R w₁ w₂ →
    i.resource w₁.spaces w₁.disk path = i.resource w₂.spaces w₂.disk path
  inScope : ∀ {w₁ w₂ : World σ} (name : String), R w₁ w₂ →
    i.inScope w₁.spaces name = i.inScope w₂.spaces name
  emit : ∀ {w₁ w₂ : World σ} (events : List Event), R w₁ w₂ → R (w₁.emit events) (w₂.emit events)

theorem Script.run_blind {σ α : Type} {i : Injector} {R : World σ → World σ → Prop}
    (hblind : i.Blind R) (s : Script σ α) (h : ∀ k, s.Avoids k) : ∀ {w₁ w₂ : World σ}, R w₁ w₂ →
      (s.run i w₁).1 = (s.run i w₂).1 ∧ R (s.run i w₁).2 (s.run i w₂).2 := by
  induction s with
  | done result => intro w₁ w₂ hw; exact ⟨rfl, hw⟩
  | panic m => exact absurd rfl (h .panic)
  | resolve space name next ih =>
    intro w₁ w₂ hw
    by_cases hspace : space = i.space
    · subst hspace
      simp only [run, Injector.resolve, if_true]
      rcases hblind.resolve name hw with ⟨e, he₁, he₂⟩ | ⟨c, t₁, t₂, hc₁, hc₂, hafter⟩
      · simp only [he₁, he₂]
        exact ih _ (fun k => h k _) hw
      · simp only [hc₁, hc₂]
        exact ih _ (fun k => h k _) hafter
    · simp only [run, Injector.resolve, if_neg hspace]
      exact ih _ (fun k => h k _) hw
  | resource path next ih =>
    intro w₁ w₂ hw
    simp only [run, hblind.resource path hw]
    exact ih _ (fun k => h k _) hw
  | inScope name next ih =>
    intro w₁ w₂ hw
    simp only [run, hblind.inScope name hw]
    exact ih _ (fun k => h k _) hw
  | look next ih => exact absurd rfl (h .look).1
  | change f next ih => exact absurd rfl (h .change).1
  | log e next ih => intro w₁ w₂ hw; exact ih h (hblind.emit [e] hw)
  | own next ih => exact absurd rfl (h .own).1
  | keep f next ih => exact absurd rfl (h .own).1

theorem World.Alike.blind {σ : Type} (i : Injector) (archive : String) :
    i.Blind (World.Alike (σ := σ) i.space archive) where
  resolve := by
    rintro w₁ w₂ name ⟨⟨s, h₁, h₂, rfl⟩, hentry, hquiet₁, hquiet₂⟩
    rcases Namespaces.resolve_alike h₁ h₂ hentry name with
      herror | ⟨c, t₁, t₂, hc₁, hc₂, s', hs₁, hs₂, harchive⟩
    · exact .inl herror
    · exact .inr ⟨c, t₁, t₂, hc₁, hc₂, ⟨s', hs₁, hs₂, harchive⟩, hentry, hquiet₁, hquiet₂⟩
  resource := by
    rintro w₁ w₂ path ⟨⟨s, h₁, h₂, rfl⟩, hentry, -, -⟩
    exact Namespaces.resource_alike h₁ h₂ hentry path
  inScope := by
    rintro w₁ w₂ name ⟨⟨s, h₁, h₂, -⟩, -, -, -⟩
    simp only [Injector.inScope, Namespaces.inScope, h₁, h₂]
  emit := by
    rintro w₁ w₂ events ⟨hspace, hentry, hquiet₁, hquiet₂⟩
    exact ⟨hspace, hentry, hquiet₁, hquiet₂⟩

end PluginAgent
