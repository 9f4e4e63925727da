import PluginAgent.Proofs.AllOrNothing
import PluginAgent.Proofs.ManifestSections
import PluginAgent.Proofs.ScopeSafety
import PluginAgent.Proofs.Utf8Coding

namespace PluginAgent

open Text

namespace Text

theorem trim_of_allBlank {s : List Char} (h : AllBlank s) : trim s = [] := by
  have hstart : trimStart s = [] := List.dropWhile_eq_nil_iff.mpr h
  rw [trim, hstart]
  rfl

theorem trim_pad {left s right : List Char} (hleft : AllBlank left) (hright : AllBlank right)
    (hs : Trimmed s) (hne : s ≠ []) : trim (left ++ s ++ right) = s := by
  have hhead : ∀ c, (s ++ right).head? = some c → isBlank c = false := by
    intro c hc
    rw [List.head?_append_of_ne_nil _ hne] at hc
    exact hs.1 c hc
  rw [trim, List.append_assoc, trimStart_append hleft, trimStart_eq_self hhead,
    trimEnd_append hright, trimEnd_eq_self hs.2]

theorem exists_trim (s : List Char) : ∃ left right, AllBlank left ∧ AllBlank right ∧
    s = left ++ trim s ++ right := by
  obtain ⟨left, hleft, hs⟩ := exists_trimStart s
  obtain ⟨right, hright, htrim⟩ := exists_trimEnd (trimStart s)
  exact ⟨left, right, hleft, hright, by rw [List.append_assoc, trim, ← htrim, ← hs]⟩

theorem allBlank_of_trim {s : List Char} (h : trim s = []) : AllBlank s := by
  obtain ⟨left, right, hleft, hright, hs⟩ := exists_trim s
  rw [hs, h, List.append_nil]
  exact hleft.append hright

theorem trimmed_trim (s : List Char) : Trimmed (trim s) := by
  refine ⟨fun c hc => ?_, fun c hc => last_trimEnd hc⟩
  obtain ⟨right, -, hright⟩ := exists_trimEnd (trimStart s)
  refine head_trimStart (s := s) ?_
  have hhead : (trimEnd (trimStart s)).head? = some c := hc
  rw [hright, List.head?_append, hhead]
  rfl

def Trims (s t : List Char) : Prop :=
  ∃ left right, s = left ++ t ++ right ∧ AllBlank left ∧ AllBlank right ∧ Trimmed t

theorem trim_eq_iff {s t : List Char} : trim s = t ↔ Trims s t := by
  constructor
  · rintro rfl
    obtain ⟨left, right, hleft, hright, hs⟩ := exists_trim s
    exact ⟨left, right, hs, hleft, hright, trimmed_trim s⟩
  · rintro ⟨left, right, rfl, hleft, hright, ht⟩
    by_cases hne : t = []
    · rw [hne, List.append_nil]
      exact trim_of_allBlank (hleft.append hright)
    · exact trim_pad hleft hright ht hne

theorem trim_blank_append {left : List Char} (h : AllBlank left) (s : List Char) :
    trim (left ++ s) = trim s := by
  rw [trim, trimStart_append h, ← trim]

theorem trim_append_blank {right : List Char} (s : List Char) (h : AllBlank right) :
    trim (s ++ right) = trim s := by
  obtain ⟨before, after, hs, hbefore, hafter, htrimmed⟩ := trim_eq_iff.mp (Eq.refl (trim s))
  refine trim_eq_iff.mpr ⟨before, after ++ right, ?_, hbefore, hafter.append h, htrimmed⟩
  rw [← List.append_assoc, ← hs]

end Text

namespace Packages

inductive Tokens : List (List Char) → List (List Char) → Prop
  | nil : Tokens [] []
  | blank {piece rest tokens} (hblank : AllBlank piece) (h : Tokens rest tokens) :
      Tokens (piece :: rest) tokens
  | token {left token right rest tokens} (hleft : AllBlank left) (hright : AllBlank right)
      (htoken : Trimmed token) (hne : token ≠ []) (h : Tokens rest tokens) :
      Tokens ((left ++ token ++ right) :: rest) (token :: tokens)

theorem tokens_iff {pieces ts : List (List Char)} :
    Tokens pieces ts ↔ ts = (pieces.map trim).filter (!·.isEmpty) := by
  constructor
  · intro h
    induction h with
    | nil => rfl
    | blank hblank _ ih => simp [trim_of_allBlank hblank, ih]
    | token hleft hright htoken hne _ ih =>
      rw [List.map_cons, trim_pad hleft hright htoken hne, ih,
        List.filter_cons_of_pos (by simpa using hne)]
  · rintro rfl
    induction pieces with
    | nil => exact .nil
    | cons piece rest ih =>
      obtain ⟨left, right, hleft, hright, hpiece⟩ := exists_trim piece
      by_cases hne : trim piece = []
      · simpa [hne] using Tokens.blank (allBlank_of_trim hne) ih
      · have h := Tokens.token hleft hright (trimmed_trim piece) hne ih
        rw [← hpiece] at h
        simpa [hne] using h

def TokensOf (value : String) (ts : List (List Char)) : Prop :=
  ∃ pieces : List (List Char), pieces ≠ [] ∧ (∀ piece ∈ pieces, ',' ∉ piece) ∧
    value.toList = joinWith [','] pieces ∧ Tokens pieces ts

theorem tokensOf_iff {value : String} {ts : List (List Char)} :
    TokensOf value ts ↔ ts = tokens value.toList := by
  constructor
  · rintro ⟨pieces, hne, hpieces, hvalue, h⟩
    rw [tokens, parted_iff.mp ⟨hne, hpieces, hvalue⟩]
    exact tokens_iff.mp h
  · intro h
    obtain ⟨hne, hpieces, hvalue⟩ := parted_iff.mpr (Eq.refl (splitOn ',' value.toList))
    exact ⟨_, hne, hpieces, hvalue, tokens_iff.mpr h⟩

theorem parse?_of_tokens {value : String} {ts : List (List Char)} (h : TokensOf value ts)
    (hne : ts ≠ []) : parse? value = some ⟨ts.map String.ofList⟩ := by
  rw [tokensOf_iff.mp h] at hne ⊢
  rw [parse?, if_neg (by simpa using hne)]

theorem parse?_of_blank {value : String} (h : TokensOf value []) : parse? value = none := by
  rw [parse?, ← tokensOf_iff.mp h]
  rfl

end Packages

namespace Manifest

def Says (bytes : ByteArray) (attributes : List (String × String)) : Prop :=
  ∃ text, bytes.data.toList = text.flatMap String.utf8EncodeChar ∧
    Reads (lines (withoutMark text)) attributes

theorem ofBytes_eq_ok_iff {bytes : ByteArray} {m : Manifest} :
    ofBytes bytes = .ok m ↔ Says bytes m.attributes := by
  rw [ofBytes]
  constructor
  · intro h
    split at h
    · cases h
    · rename_i text htext
      exact ⟨text, Utf8.decode_eq_ok_iff.mp htext, parse_eq_ok_iff.mp h⟩
  · rintro ⟨text, htext, hreads⟩
    rw [Utf8.decode_eq_ok_iff.mpr htext]
    exact parse_eq_ok_iff.mpr hreads

def First (attributes : List (String × String)) (name value : String) : Prop :=
  ∃ before spelling after, attributes = before ++ (spelling, value) :: after ∧
    sameIgnoringCase spelling name = true ∧ ∀ a ∈ before, sameIgnoringCase a.1 name = false

theorem get?_eq_some_iff {m : Manifest} {name value : String} :
    m.get? name = some value ↔ First m.attributes name value := by
  simp only [get?, Option.map_eq_some_iff, List.find?_eq_some_iff_append, First]
  constructor
  · rintro ⟨⟨spelling, _⟩, ⟨hname, before, after, hattributes, hbefore⟩, rfl⟩
    exact ⟨before, spelling, after, hattributes, hname, by simpa using hbefore⟩
  · rintro ⟨before, spelling, after, hattributes, hname, hbefore⟩
    exact ⟨(spelling, value), ⟨hname, before, after, hattributes, by simpa using hbefore⟩, rfl⟩

theorem get?_eq_none_iff {m : Manifest} {name : String} :
    m.get? name = none ↔ ∀ a ∈ m.attributes, sameIgnoringCase a.1 name = false := by
  simp [get?]

end Manifest

/-- What the bytes of a manifest declare, if there is one: the tokens of the attribute, or the
default if the manifest is absent or unreadable, lacks the attribute or gives it no token. -/
inductive Declares : Option ByteArray → List String → Prop
  | absent : Declares none [Reserved.defaultPackage]
  | unreadable {bytes} (h : ∀ attributes, ¬Manifest.Says bytes attributes) :
      Declares (some bytes) [Reserved.defaultPackage]
  | lacking {bytes attributes} (h : Manifest.Says bytes attributes)
      (hnone : ∀ a ∈ attributes, sameIgnoringCase a.1 Reserved.packageAttribute = false) :
      Declares (some bytes) [Reserved.defaultPackage]
  | blank {bytes attributes value} (h : Manifest.Says bytes attributes)
      (hvalue : Manifest.First attributes Reserved.packageAttribute value)
      (htokens : Packages.TokensOf value []) : Declares (some bytes) [Reserved.defaultPackage]
  | given {bytes attributes value ts} (h : Manifest.Says bytes attributes)
      (hvalue : Manifest.First attributes Reserved.packageAttribute value)
      (htokens : Packages.TokensOf value ts) (hne : ts ≠ []) :
      Declares (some bytes) (ts.map String.ofList)

namespace Declares

open Archive

variable {index : Index} {prefixes : List String}

theorem packages_none (h : index.metadata? manifestEntry = none) :
    index.packages.1 = .default := by
  simp only [Index.packages, Index.manifest, h]
  rfl

theorem packages_error {bytes : ByteArray} {flaw : Manifest.Flaw}
    (h : index.metadata? manifestEntry = some bytes)
    (hflaw : Manifest.ofBytes bytes = .error flaw) : index.packages.1 = .default := by
  simp only [Index.packages, Index.manifest, h, hflaw]

theorem packages_ok {bytes : ByteArray} {m : Manifest}
    (h : index.metadata? manifestEntry = some bytes) (hm : Manifest.ofBytes bytes = .ok m) :
    index.packages.1 =
      ((m.get? Reserved.packageAttribute).bind Packages.parse?).getD .default := by
  simp only [Index.packages, Index.manifest, h, hm, Index.declared?, Option.bind_some]
  cases (m.get? Reserved.packageAttribute).bind Packages.parse? <;> rfl

theorem packages (index : Index) :
    Declares (index.metadata? manifestEntry) index.packages.1.prefixes := by
  cases h : index.metadata? manifestEntry with
  | none =>
    rw [packages_none h]
    exact .absent
  | some bytes =>
    cases hm : Manifest.ofBytes bytes with
    | error flaw =>
      rw [packages_error h hm]
      refine .unreadable fun attributes hsays => ?_
      cases hm.symm.trans (Manifest.ofBytes_eq_ok_iff (m := ⟨attributes⟩).mpr hsays)
    | ok m =>
      have hsays := Manifest.ofBytes_eq_ok_iff.mp hm
      rw [packages_ok h hm]
      cases hvalue : m.get? Reserved.packageAttribute with
      | none => exact .lacking hsays (Manifest.get?_eq_none_iff.mp hvalue)
      | some value =>
        have hfirst := Manifest.get?_eq_some_iff.mp hvalue
        have htokens := Packages.tokensOf_iff.mpr (rfl : Packages.tokens value.toList = _)
        rw [Option.bind_some]
        by_cases hne : Packages.tokens value.toList = []
        · rw [hne] at htokens
          rw [Packages.parse?_of_blank htokens]
          exact .blank hsays hfirst htokens
        · rw [Packages.parse?_of_tokens htokens hne]
          exact .given hsays hfirst htokens hne

theorem eq_packages {index : Index} {prefixes : List String}
    (h : Declares (index.metadata? manifestEntry) prefixes) :
    prefixes = index.packages.1.prefixes := by
  generalize hbytes : index.metadata? manifestEntry = bytes at h
  cases h with
  | absent => rw [packages_none hbytes]; rfl
  | @unreadable bytes hnone =>
    cases hm : Manifest.ofBytes bytes with
    | error flaw => rw [packages_error hbytes hm]; rfl
    | ok m => exact absurd (Manifest.ofBytes_eq_ok_iff.mp hm) (hnone m.attributes)
  | @lacking bytes attributes hsays hnone =>
    have hm := Manifest.ofBytes_eq_ok_iff (m := ⟨attributes⟩).mpr hsays
    rw [packages_ok hbytes hm, Manifest.get?_eq_none_iff.mpr hnone]
    rfl
  | @blank bytes attributes value hsays hvalue htokens =>
    have hm := Manifest.ofBytes_eq_ok_iff (m := ⟨attributes⟩).mpr hsays
    rw [packages_ok hbytes hm, Manifest.get?_eq_some_iff.mpr hvalue, Option.bind_some,
      Packages.parse?_of_blank htokens]
    rfl
  | @given bytes attributes value ts hsays hvalue htokens hne =>
    have hm := Manifest.ofBytes_eq_ok_iff (m := ⟨attributes⟩).mpr hsays
    rw [packages_ok hbytes hm, Manifest.get?_eq_some_iff.mpr hvalue, Option.bind_some,
      Packages.parse?_of_tokens htokens hne]
    rfl

theorem ne_nil {bytes : Option ByteArray} {prefixes : List String} (h : Declares bytes prefixes) :
    prefixes ≠ [] := by
  cases h with
  | given _ _ _ hne => simpa using hne
  | _ => exact List.cons_ne_nil _ _

theorem empty_not_mem {bytes : Option ByteArray} {prefixes : List String}
    (h : Declares bytes prefixes) : "" ∉ prefixes := by
  cases h with
  | given _ _ htokens _ =>
    intro hmem
    obtain ⟨token, htoken, hempty⟩ := List.mem_map.mp hmem
    obtain rfl : token = [] := by simpa using congrArg String.toList hempty
    rw [Packages.tokensOf_iff.mp htokens, Packages.tokens] at htoken
    simpa using (List.mem_filter.mp htoken).2
  | _ => decide

end Declares

structure InScope (prefixes : List String) (name : String) : Prop where
  free : ∀ reserved ∈ Reserved.prefixes, ¬reserved.toList <+: name.toList
  declared : ∃ p ∈ prefixes, p.toList <+: name.toList

theorem Scope.accepts_iff_inScope {p : Packages} {name : String} :
    (ofPackages p).accepts name = true ↔ InScope p.prefixes name := by
  rw [accepts_ofPackages, Bool.and_eq_true, Bool.not_eq_true', Reserved.isReserved,
    Packages.admits, List.any_eq_false, List.any_eq_true]
  simp only [Reserved.startsWith, List.isPrefixOf_iff_prefix]
  exact ⟨fun h => ⟨h.1, h.2⟩, fun h => ⟨h.1, h.2⟩⟩

namespace Loader

open Archive

variable {σ : Type} {l : Loader σ} {archives : List String} {w : World σ} {j : Nat}
  {archive : String} {index : Index}

theorem isOf_of_load {s : Namespace} (hj : archives[j]? = some archive)
    (hindex : Index.ofFile w.disk archive = .ok index)
    (hs : (l.load archives w).2.spaces.spaces[w.spaces.size + j]? = some s) :
    s.IsOf ⟨index, index.packages.1⟩ := by
  have hnew : ¬w.spaces.size + j < w.spaces.size := by omega
  rcases load_cases l archives w with ⟨e, events, hload⟩ | ⟨listed, events, hlisted, hspaces, -⟩
  · rw [hload] at hs
    exact absurd (List.getElem?_eq_some_iff.mp hs).1 hnew
  · rw [hspaces] at hs
    obtain ⟨n, hfollows, -⟩ := setUpListed_follows l listed (w.emit events)
    have hlt := (List.getElem?_eq_some_iff.mp hs).1
    have hin : j < (listed.take n).length := by
      change _ < (setUpListed l listed (w.emit events)).2.spaces.size at hlt
      rw [hfollows.size] at hlt
      exact Nat.lt_of_add_lt_add_left hlt
    obtain ⟨opened, hopened, hget⟩ := Listed.ofArchives_getElem? hlisted hj
    obtain rfl : opened = index := Except.ok.inj (hopened.symm.trans hindex)
    rw [List.length_take] at hin
    obtain ⟨s', hs', hof⟩ := hfollows.fresh j ⟨opened, opened.packages.1⟩
      (by rw [List.getElem?_take_of_lt (by omega), hget])
    obtain rfl : s' = s := Option.some.inj (hs'.symm.trans hs)
    exact hof

theorem registered_of_load {results : List SetupResult} (hj : archives[j]? = some archive)
    (hload : (l.load archives w).1 = .ok results) :
    ∃ s, (l.load archives w).2.spaces.get ⟨w.spaces.size + j⟩ = .ok s := by
  rcases hrun : l.load archives w with ⟨outcome, w'⟩
  obtain rfl : outcome = .ok results := (congrArg Prod.fst hrun).symm.trans hload
  obtain ⟨listed, events, w₁, hlisted, hall, rfl⟩ := load_eq_ok hrun
  obtain ⟨opened, -, hget⟩ := Listed.ofArchives_getElem? hlisted hj
  obtain ⟨s, hs, -⟩ := (follows_of_setUpListed hall).fresh j _ hget
  exact ⟨s, Namespaces.get_eq_ok_iff.mpr hs⟩

theorem scope_fixed_by_manifest (l : Loader σ) (archives : List String) (w : World σ)
    (hj : archives[j]? = some archive) (hindex : Index.ofFile w.disk archive = .ok index) :
    ∃ prefixes, (∀ other, Declares (index.metadata? manifestEntry) other ↔ other = prefixes) ∧
      prefixes ≠ [] ∧ "" ∉ prefixes ∧
      (∀ name answer,
        (l.load archives w).2.spaces.inScope ⟨w.spaces.size + j⟩ name = .ok answer →
          (answer = true ↔ InScope prefixes name)) ∧
      ((∃ results, (l.load archives w).1 = .ok results) → ∀ name, ∃ answer,
        (l.load archives w).2.spaces.inScope ⟨w.spaces.size + j⟩ name = .ok answer) ∧
      (l.Avoids .panic → (∀ x ∈ archives, ∃ index, Index.ofFile w.disk x = .ok index) →
        ∃ results, (l.load archives w).1 = .ok results) := by
  have hdeclares := Declares.packages index
  refine ⟨index.packages.1.prefixes, ?_, hdeclares.ne_nil, hdeclares.empty_not_mem, ?_, ?_, ?_⟩
  · exact fun other => ⟨Declares.eq_packages, fun h => h ▸ hdeclares⟩
  · intro name answer hanswer
    rw [Namespaces.inScope] at hanswer
    cases hget : (l.load archives w).2.spaces.get ⟨w.spaces.size + j⟩ with
    | error e =>
      rw [hget] at hanswer
      cases hanswer
    | ok s =>
      rw [hget] at hanswer
      obtain rfl := Except.ok.inj hanswer
      change s.scope.accepts name = true ↔ _
      rw [(isOf_of_load hj hindex (Namespaces.get_eq_ok_iff.mp hget)).scope]
      exact Scope.accepts_iff_inScope
  · rintro ⟨results, hload⟩ name
    obtain ⟨s, hs⟩ := registered_of_load hj hload
    exact ⟨s.scope.accepts name, by rw [Namespaces.inScope, hs]; rfl⟩
  · intro hl hopen
    obtain ⟨results, w', hload, -⟩ := load_succeeds hl hopen
    exact ⟨results, by rw [hload]⟩

def labelEntries : List (String × ByteArray) :=
  [(manifestEntry,
    "Manifest-Version: 1.0\r\nPROBE-Plugin-Package: com.example, ,org.exa\n mple\n".toUTF8)]

def labelDisk : Disk :=
  packedDisk [("label.tgz", labelEntries)]

theorem packed_label : Packed labelDisk "label.tgz" labelEntries := by
  have hpath : EntryName.IsPart "label.tgz".toList :=
    ⟨by decide, by decide, by decide, by decide⟩
  refine packed_packedDisk hpath rfl ?_ (by decide) (by decide +kernel)
  intro e he
  rw [List.mem_singleton.mp he]
  exact ⟨by decide +kernel, by decide +kernel, by decide +kernel, fun _ => by decide +kernel⟩

theorem scope_of_label : ∃ w : World Unit,
    (load ⟨{}, .uniform [] fun _ => .done (.ok ()), Setup.standard⟩ ["label.tgz"]
      { disk := labelDisk, own := () }).2 = w ∧
    w.spaces.inScope ⟨0⟩ "org.example.Alto" = .ok true ∧
    w.spaces.inScope ⟨0⟩ "io.probe.plugin.Alto" = .ok false := by
  have hcode : (Catalog.uniform [] fun _ => .done (.ok ())).Avoids .panic :=
    Catalog.avoids_uniform fun _ => trivial
  have hopen : ∀ x ∈ ["label.tgz"], ∃ index, Index.ofFile labelDisk x = .ok index := by
    simp [packed_label.opens]
  obtain ⟨prefixes, hdeclares, -, -, hscope, hanswers, hloads⟩ := scope_fixed_by_manifest (j := 0)
    ⟨{}, .uniform [] fun _ => .done (.ok ()), Setup.standard⟩ ["label.tgz"]
    ({ disk := labelDisk, own := () } : World Unit) rfl packed_label.ofFile_eq
  have hpackages : (indexOf "label.tgz" labelEntries).packages.1.prefixes =
      ["com.example", "org.example"] := by decide +kernel
  obtain rfl : ["com.example", "org.example"] = prefixes :=
    hpackages ▸ (hdeclares _).mp (Declares.packages _)
  have hin : InScope ["com.example", "org.example"] "org.example.Alto" :=
    ⟨by decide +kernel, by decide +kernel⟩
  have hout : ¬InScope ["com.example", "org.example"] "io.probe.plugin.Alto" := by
    rintro ⟨-, hdeclared⟩
    exact absurd hdeclared (by decide +kernel)
  have hloaded := hanswers (hloads (avoids_standard hcode) hopen)
  refine ⟨_, rfl, ?_, ?_⟩
  · obtain ⟨answer, hanswer⟩ := hloaded "org.example.Alto"
    rw [(hscope _ _ hanswer).mpr hin] at hanswer
    exact hanswer
  · obtain ⟨answer, hanswer⟩ := hloaded "io.probe.plugin.Alto"
    rw [Bool.eq_false_iff.mpr fun htrue => hout ((hscope _ _ hanswer).mp htrue)] at hanswer
    exact hanswer

end Loader

end PluginAgent
