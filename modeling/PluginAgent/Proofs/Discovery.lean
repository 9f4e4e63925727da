import Mathlib.Data.List.Nodup
import PluginAgent.Plugin.Discovery

namespace PluginAgent

namespace Descriptor

theorem nodup_parseLines (lines : List (List Char)) :
    ∀ {n : Nat} {done : List ClassName} {d : Descriptor}, done.Nodup →
      parseLines n done lines = .ok d → d.types.Nodup := by
  induction lines with
  | nil =>
    intro n done d hdone h
    obtain rfl := Except.ok.inj h
    exact List.nodup_reverse.mpr hdone
  | cons line rest ih =>
    intro n done d hdone h
    simp only [parseLines] at h
    split at h
    · exact ih hdone h
    · split at h
      · cases h
      · rename_i c _
        refine ih ?_ h
        split
        · exact hdone
        · rename_i hnew
          exact List.nodup_cons.mpr ⟨by simpa using hnew, hdone⟩

theorem nodup_ofBytes {bytes : ByteArray} {d : Descriptor} (h : ofBytes bytes = .ok d) :
    d.types.Nodup := by
  simp only [ofBytes] at h
  split at h
  · cases h
  · exact nodup_parseLines _ .nil h

end Descriptor

def Archive.Index.types (index : Archive.Index) : List ClassName :=
  match index.descriptor Reserved.pluginInterface with
  | .ok (some d) => d.types
  | _ => []

theorem Archive.Index.nodup_types (index : Archive.Index) : index.types.Nodup := by
  unfold types
  split
  · rename_i d hd
    simp only [descriptor] at hd
    split at hd
    · cases hd
    · split at hd
      · rename_i hbytes
        cases hd
        exact Descriptor.nodup_ofBytes hbytes
      · cases hd
  · exact .nil

namespace Candidate

structure Offered (index : Archive.Index) (catalog : Catalog) (c : Candidate) : Prop where
  packaged : index.contains c.type.entryPath = true
  known : catalog.factory? c.type = some (.ok c.plugin)
  archive : c.archive = index.path

variable {index : Archive.Index} {catalog : Catalog}

theorem ofType_eq_ok {type : ClassName} {c : Candidate} (h : ofType index catalog type = .ok c) :
    c.type = type ∧ c.Offered index catalog := by
  rw [ofType] at h
  split at h
  · cases h
  · rename_i hpackaged
    split at h
    · cases h
    · rename_i plugin hplugin
      obtain rfl := Outcome.ok.inj h
      exact ⟨rfl, by simpa using hpackaged, hplugin, rfl⟩
    · cases h

theorem ofTypes_eq_ok (types : List ClassName) :
    ∀ {cs : List Candidate}, ofTypes index catalog types = .ok cs →
      cs.map (·.type) = types ∧ ∀ c ∈ cs, c.Offered index catalog := by
  induction types with
  | nil =>
    intro cs h
    obtain rfl := Outcome.ok.inj h
    simp
  | cons type rest ih =>
    intro cs h
    rw [ofTypes] at h
    split at h
    · cases h
    · cases h
    · rename_i c hc
      obtain ⟨htype, hoffered⟩ := ofType_eq_ok hc
      cases hrest : ofTypes index catalog rest with
      | ok later =>
        rw [hrest] at h
        obtain rfl := Outcome.ok.inj h
        obtain ⟨htypes, hall⟩ := ih hrest
        exact ⟨by rw [List.map_cons, htype, htypes], List.forall_mem_cons.mpr ⟨hoffered, hall⟩⟩
      | error e => simp [hrest, Outcome.map] at h
      | panic m => simp [hrest, Outcome.map] at h

theorem discover_eq_ok {cs : List Candidate} (h : discover index catalog = .ok cs) :
    cs.map (·.type) = index.types ∧ ∀ c ∈ cs, c.Offered index catalog := by
  rw [discover] at h
  split at h
  · cases h
  · rename_i hnone
    obtain rfl := Outcome.ok.inj h
    simp [Archive.Index.types, hnone]
  · rename_i d hd
    rw [Archive.Index.types, hd]
    exact ofTypes_eq_ok _ h

theorem nodup_of_discover {cs : List Candidate} (h : discover index catalog = .ok cs) :
    (cs.map (·.type)).Nodup := by
  rw [(discover_eq_ok h).1]
  exact index.nodup_types

end Candidate

end PluginAgent
