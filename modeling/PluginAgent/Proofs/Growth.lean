import PluginAgent.Plugin.Namespaces

namespace PluginAgent

namespace Namespaces

variable {t t' : Namespaces} {disk : Disk} {id : NamespaceId} {name : ClassName}

theorem get_eq_ok_iff {s : Namespace} : t.get id = .ok s ↔ t.spaces[id.index]? = some s := by
  unfold get
  split
  · rename_i s' h
    simp [h]
  · rename_i h
    simp [h]

theorem getElem?_register (t : Namespaces) (a : String) (p : Packages) (scope : Scope) (k : Nat) :
    (t.register a p scope).2.spaces[k]? =
      if k = t.size then some ⟨a, p, scope, []⟩ else t.spaces[k]? := by
  by_cases h : k = t.size
  · subst h
    rw [if_pos rfl]
    exact List.getElem?_concat_length
  · rw [if_neg h]
    rcases Nat.lt_or_gt_of_ne h with hlt | hgt
    · exact List.getElem?_append_left hlt
    · rw [List.getElem?_eq_none (l := t.spaces) (Nat.le_of_lt hgt), List.getElem?_eq_none]
      simp only [register, List.length_append, List.length_cons, List.length_nil]
      exact hgt

theorem getElem?_define (t : Namespaces) (id : NamespaceId) (name : ClassName) (bytes : ByteArray)
    (k : Nat) :
    (t.define id name bytes).spaces[k]? =
      if k = id.index then
        t.spaces[k]?.map fun s => { s with defined := s.defined ++ [(name, bytes)] }
      else t.spaces[k]? := by
  unfold define
  split
  · rename_i h
    subst h
    simp
  · rename_i h
    exact List.getElem?_modify_ne _ _ (Ne.symm h)

theorem resolve_eq_ok {c : LoadedClass} (h : t.resolve disk id name = .ok (c, t')) :
    ∃ s, t.spaces[id.index]? = some s ∧ s.scope.accepts name.text = true ∧
      c.space = id ∧ c.name = name ∧
      (s.defined.lookup name = some c.bytes ∧ t' = t ∨
        s.defined.lookup name = none ∧
          readEntry disk s.archive name.entryPath = .ok c.bytes ∧
          t' = t.define id name c.bytes) := by
  unfold resolve at h
  split at h
  · cases h
  · rename_i s hs
    refine ⟨s, get_eq_ok_iff.mp hs, ?_⟩
    split at h
    · cases h
    · rename_i haccepts
      refine ⟨by simpa using haccepts, ?_⟩
      split at h
      · rename_i bytes hlookup
        cases h
        exact ⟨rfl, rfl, .inl ⟨hlookup, rfl⟩⟩
      · rename_i hlookup
        split at h
        · cases h
        · rename_i bytes hread
          cases h
          exact ⟨rfl, rfl, .inr ⟨hlookup, hread, rfl⟩⟩

end Namespaces

structure Namespace.Grows (s s' : Namespace) : Prop where
  archive : s'.archive = s.archive
  packages : s'.packages = s.packages
  scope : s'.scope = s.scope
  defined : s.defined <+: s'.defined

theorem Namespace.Grows.refl (s : Namespace) : s.Grows s :=
  ⟨rfl, rfl, rfl, List.prefix_refl _⟩

theorem Namespace.Grows.trans {s s' s'' : Namespace} (h : s.Grows s') (h' : s'.Grows s'') :
    s.Grows s'' :=
  ⟨h'.archive.trans h.archive, h'.packages.trans h.packages, h'.scope.trans h.scope,
    h.defined.trans h'.defined⟩

namespace Namespaces

variable {t t' t'' : Namespaces}

def Grows (t t' : Namespaces) : Prop :=
  ∀ (k : Nat) (s : Namespace),
    t.spaces[k]? = some s → ∃ s' : Namespace, t'.spaces[k]? = some s' ∧ s.Grows s'

theorem Grows.refl (t : Namespaces) : t.Grows t :=
  fun _ s hs => ⟨s, hs, .refl s⟩

theorem Grows.trans (h : t.Grows t') (h' : t'.Grows t'') : t.Grows t'' := by
  intro k s hs
  obtain ⟨s', hs', hgrows⟩ := h k s hs
  obtain ⟨s'', hs'', hgrows'⟩ := h' k s' hs'
  exact ⟨s'', hs'', hgrows.trans hgrows'⟩

theorem Grows.size_le (h : t.Grows t') : t.size ≤ t'.size := by
  refine Nat.le_of_not_gt ?_
  intro hlt
  obtain ⟨s', hs', -⟩ := h t'.size t.spaces[t'.size] (List.getElem?_eq_getElem hlt)
  rw [size, List.getElem?_eq_none (Nat.le_refl _)] at hs'
  cases hs'

theorem Grows.getElem?_of_lt (h : t.Grows t') {k : Nat} (hk : k < t.size) {s' : Namespace}
    (hs' : t'.spaces[k]? = some s') : ∃ s : Namespace, t.spaces[k]? = some s ∧ s.Grows s' := by
  have hs : t.spaces[k]? = some t.spaces[k] := List.getElem?_eq_getElem hk
  obtain ⟨s'', hs'', hgrows⟩ := h k _ hs
  obtain rfl : s'' = s' := Option.some.inj (hs''.symm.trans hs')
  exact ⟨_, hs, hgrows⟩

theorem grows_register (t : Namespaces) (a : String) (p : Packages) (scope : Scope) :
    t.Grows (t.register a p scope).2 := by
  intro k s hs
  have hlt : k < t.size := (List.getElem?_eq_some_iff.mp hs).1
  refine ⟨s, ?_, .refl s⟩
  rw [getElem?_register, if_neg (by omega), hs]

theorem grows_define (t : Namespaces) (id : NamespaceId) (name : ClassName) (bytes : ByteArray) :
    t.Grows (t.define id name bytes) := by
  intro k s hs
  rw [getElem?_define]
  split
  · rw [hs]
    exact ⟨_, rfl, rfl, rfl, rfl, List.prefix_append _ _⟩
  · exact ⟨s, hs, .refl s⟩

theorem grows_resolve {disk : Disk} {id : NamespaceId} {name : ClassName} {c : LoadedClass}
    (h : t.resolve disk id name = .ok (c, t')) : t.Grows t' := by
  obtain ⟨s, -, -, -, -, ⟨-, rfl⟩ | ⟨-, -, rfl⟩⟩ := resolve_eq_ok h
  · exact .refl t'
  · exact grows_define t id name c.bytes

theorem size_resolve {disk : Disk} {id : NamespaceId} {name : ClassName} {c : LoadedClass}
    (h : t.resolve disk id name = .ok (c, t')) : t'.size = t.size := by
  obtain ⟨s, -, -, -, -, ⟨-, rfl⟩ | ⟨-, -, rfl⟩⟩ := resolve_eq_ok h
  · rfl
  · exact size_define t id name c.bytes

theorem getElem?_resolve_of_ne {disk : Disk} {id : NamespaceId} {name : ClassName}
    {c : LoadedClass} (h : t.resolve disk id name = .ok (c, t')) {k : Nat} (hk : k ≠ id.index) :
    t'.spaces[k]? = t.spaces[k]? := by
  obtain ⟨s, -, -, -, -, ⟨-, rfl⟩ | ⟨-, -, rfl⟩⟩ := resolve_eq_ok h
  · rfl
  · rw [getElem?_define, if_neg hk]

theorem defined_resolve {disk : Disk} {id : NamespaceId} {name : ClassName} {c : LoadedClass}
    (h : t.resolve disk id name = .ok (c, t')) :
    ∃ s, t'.spaces[id.index]? = some s ∧ (name, c.bytes) ∈ s.defined := by
  obtain ⟨s, hs, -, -, -, ⟨hlookup, rfl⟩ | ⟨-, -, rfl⟩⟩ := resolve_eq_ok h
  · obtain ⟨l, r, hdefined, -⟩ := List.lookup_eq_some_iff.mp hlookup
    exact ⟨s, hs, by simp [hdefined]⟩
  · rw [getElem?_define, if_pos rfl, hs]
    exact ⟨_, rfl, by simp⟩

end Namespaces

namespace Injector

variable {i : Injector} {t t' : Namespaces} {disk : Disk} {space : NamespaceId} {name : ClassName}
  {c : LoadedClass}

theorem resolve_eq_ok (h : i.resolve t disk space name = .ok (c, t')) :
    space = i.space ∧ t.resolve disk i.space name = .ok (c, t') := by
  unfold resolve at h
  split at h
  · rename_i hspace
    subst hspace
    exact ⟨rfl, h⟩
  · cases h

theorem inject_eq_ok {text : String} (h : i.inject t disk text = .ok (c, t')) :
    ∃ name, ClassName.read text = .ok name ∧ t.resolve disk i.space name = .ok (c, t') := by
  unfold inject at h
  split at h
  · cases h
  · rename_i name hname
    exact ⟨name, hname, (resolve_eq_ok h).2⟩

end Injector

end PluginAgent
