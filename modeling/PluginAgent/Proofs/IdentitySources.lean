import PluginAgent.Agent.Session
import PluginAgent.Proofs.DeclaredScopes
import PluginAgent.Proofs.EntryPaths
import PluginAgent.Proofs.StartCourse
import PluginAgent.Text.CharacterClass

namespace PluginAgent

open Text

namespace Text

theorem trimString_eq_iff {s t : String} : trimString s = t ↔ Trims s.toList t.toList := by
  rw [← trim_eq_iff, trimString, ← String.toList_inj, String.toList_ofList]

end Text

namespace Args

def Binds (token : List Char) (key value : String) : Prop :=
  (∃ left right, token = left ++ '=' :: right ∧ '=' ∉ left ∧ Trims left key.toList ∧
    Trims right value.toList) ∨
  ('=' ∉ token ∧ Trims token key.toList ∧ value = "")

def LastBinds (tokens : List (List Char)) (key value : String) : Prop :=
  ∃ before token after, tokens = before ++ token :: after ∧ Binds token key value ∧
    ∀ later ∈ after, ∀ other, ¬ Binds later key other

def Gives (raw key value : String) : Prop :=
  ∃ tokens : List (List Char), tokens ≠ [] ∧ (∀ token ∈ tokens, ',' ∉ token) ∧
    raw.toList = joinWith [','] tokens ∧ LastBinds tokens key value

variable {token : List Char} {tokens : List (List Char)} {key value : String}

theorem pair?_eq_some_iff (hkey : key ≠ "") :
    pair? token = some (key, value) ↔ Binds token key value := by
  have hempty : key.toList ≠ [] := mt String.toList_eq_nil_iff.mp hkey
  have hpair (left right : List Char) :
      (if (trim left).isEmpty then none
        else some (String.ofList (trim left), String.ofList (trim right))) = some (key, value) ↔
      Trims left key.toList ∧ Trims right value.toList := by
    rw [← trim_eq_iff, ← trim_eq_iff]
    constructor
    · intro h
      split at h
      · cases h
      · obtain ⟨rfl, rfl⟩ := Prod.mk.inj (Option.some.inj h)
        simp
    · rintro ⟨hleft, hright⟩
      rw [if_neg (by simpa [hleft] using hempty), hleft, hright, String.ofList_toList,
        String.ofList_toList]
  rw [Binds, pair?]
  cases hcut : cut? '=' token with
  | some found =>
    obtain ⟨left, right⟩ := found
    obtain ⟨rfl, hleft⟩ := cut?_eq_some_iff.mp hcut
    rw [Option.getD_some, hpair]
    constructor
    · rintro ⟨htrim, hvalue⟩
      exact .inl ⟨left, right, rfl, hleft, htrim, hvalue⟩
    · rintro (⟨left', right', htoken, hleft', htrim, hvalue⟩ | ⟨hnone, -⟩)
      · obtain ⟨rfl, rfl⟩ := Prod.mk.inj
          (Option.some.inj (hcut.symm.trans (cut?_eq_some_iff.mpr ⟨htoken, hleft'⟩)))
        exact ⟨htrim, hvalue⟩
      · simp at hnone
  | none =>
    have hnone : '=' ∉ token := by
      intro hmem
      obtain ⟨left, right, rfl, hleft⟩ := List.eq_append_cons_of_mem hmem
      rw [cut?_eq_some_iff.mpr ⟨rfl, hleft⟩] at hcut
      cases hcut
    have hblank : Trims [] value.toList ↔ value = "" := by
      rw [← trim_eq_iff, trim_nil, eq_comm, String.toList_eq_nil_iff]
    rw [Option.getD_none, hpair, hblank]
    constructor
    · rintro ⟨htrim, hvalue⟩
      exact .inr ⟨hnone, htrim, hvalue⟩
    · rintro (⟨left, right, rfl, -⟩ | ⟨-, htrim, hvalue⟩)
      · simp at hnone
      · exact ⟨htrim, hvalue⟩

theorem lookup_cons_eq (k : String) (rest : List (String × String)) :
    ((key, value) :: rest).lookup k = if k = key then some value else rest.lookup k := by
  rw [List.lookup_cons]
  by_cases h : k = key
  · simp [h]
  · have hne : (k == key) = false := beq_eq_false_iff_ne.mpr h
    simp [hne, h]

theorem lookup_insert (values : List (String × String)) (k : String) :
    (insert key value values).lookup k = if k = key then some value else values.lookup k := by
  induction values with
  | nil => rw [insert, lookup_cons_eq]
  | cons p rest ih =>
    obtain ⟨k', v⟩ := p
    rw [insert]
    split
    · exact lookup_cons_eq k _
    split
    · rename_i hsame
      rw [lookup_cons_eq, lookup_cons_eq, ← hsame]
      split <;> rfl
    · rename_i hother
      rw [lookup_cons_eq, lookup_cons_eq, ih]
      by_cases hk : k = k'
      · rw [if_pos hk, if_pos hk, if_neg fun heq => hother (heq.symm.trans hk)]
      · rw [if_neg hk, if_neg hk]

theorem lastBinds_concat : LastBinds (tokens ++ [token]) key value ↔
    Binds token key value ∨ (∀ other, ¬ Binds token key other) ∧ LastBinds tokens key value := by
  constructor
  · rintro ⟨before, found, after, htokens, hbinds, hlast⟩
    rcases List.eq_nil_or_concat after with rfl | ⟨init, last, rfl⟩
    · obtain rfl := List.singleton_inj.mp (List.append_inj' htokens rfl).2
      exact .inl hbinds
    · have hsplit : tokens ++ [token] = (before ++ found :: init) ++ [last] := by
        rw [htokens, List.append_assoc, List.cons_append, List.concat_eq_append]
      obtain ⟨rfl, hlater⟩ := List.append_inj' hsplit rfl
      obtain rfl := List.singleton_inj.mp hlater
      exact .inr ⟨hlast token (by simp), before, found, init, rfl, hbinds,
        fun later hmem => hlast later (by simp [hmem])⟩
  · rintro (hbinds | ⟨hnone, before, found, after, rfl, hbinds, hlast⟩)
    · exact ⟨tokens, token, [], rfl, hbinds, nofun⟩
    · refine ⟨before, found, after ++ [token], by simp, hbinds, fun later hlater => ?_⟩
      rcases List.mem_append.mp hlater with hlater | hlater
      · exact hlast later hlater
      · rwa [List.mem_singleton.mp hlater]

theorem lookup_tokens_iff (hkey : key ≠ "") :
    ((tokens.filterMap pair?).foldl (fun values p => insert p.1 p.2 values) []).lookup key =
      some value ↔ LastBinds tokens key value := by
  induction tokens using List.reverseRecOn with
  | nil => simp [LastBinds]
  | append_singleton tokens token ih =>
    rw [lastBinds_concat, ← ih, List.filterMap_append, List.foldl_append]
    simp only [← pair?_eq_some_iff hkey]
    cases hpair : pair? token with
    | none => simp [hpair]
    | some p =>
      obtain ⟨k, v⟩ := p
      simp only [List.filterMap_cons, hpair, List.filterMap_nil, List.foldl_cons, List.foldl_nil]
      rw [lookup_insert]
      by_cases hk : key = k
      · simp [hk]
      · simp [hk, Ne.symm hk]

theorem get?_parse_iff {raw : String} (hkey : key ≠ "") :
    (parse raw).get? key = some value ↔ Gives raw key value := by
  rw [parse, get?, lookup_tokens_iff hkey]
  constructor
  · intro h
    obtain ⟨hne, hcomma, hraw⟩ := parted_iff.mpr (Eq.refl (splitOn ',' raw.toList))
    exact ⟨_, hne, hcomma, hraw, h⟩
  · rintro ⟨tokens, hne, hcomma, hraw, h⟩
    rwa [parted_iff.mp ⟨hne, hcomma, hraw⟩]

end Args

namespace Identity

def IsIdChar (c : Char) : Prop :=
  ('A' ≤ c ∧ c ≤ 'Z' ∨ 'a' ≤ c ∧ c ≤ 'z') ∨ '0' ≤ c ∧ c ≤ '9' ∨ c = '.' ∨ c = '_' ∨ c = '-'

structure IsId (id : String) : Prop where
  nonempty : 1 ≤ id.toList.length
  short : id.toList.length ≤ 24
  chars : ∀ c ∈ id.toList, IsIdChar c

theorem isIdChar_iff {c : Char} : isIdChar c = true ↔ IsIdChar c := by
  simp [isIdChar, IsIdChar, isAlphanum_iff, or_assoc]

theorem utf8Size_of_isIdChar {c : Char} (h : IsIdChar c) : c.utf8Size = 1 := by
  rw [Char.utf8Size_eq_one_iff]
  simp only [IsIdChar, Char.le_def] at h
  rcases h with (⟨-, h⟩ | ⟨-, h⟩) | ⟨-, h⟩ | rfl | rfl | rfl
  · exact UInt32.le_trans h (by decide)
  · exact UInt32.le_trans h (by decide)
  · exact UInt32.le_trans h (by decide)
  · decide
  · decide
  · decide

theorem utf8ByteSize_of_chars {id : String} (h : ∀ c ∈ id.toList, IsIdChar c) :
    id.utf8ByteSize = id.toList.length := by
  have hbytes : id.toUTF8.data.toList.length = id.toList.length := by
    rw [Utf8.toUTF8_eq_encode, Utf8.encode, List.length_flatMap]
    have hsizes : id.toList.map (fun c => (String.utf8EncodeChar c).length) =
        id.toList.map fun _ => 1 := by
      refine List.map_congr_left fun c hc => ?_
      rw [String.length_utf8EncodeChar, utf8Size_of_isIdChar (h c hc)]
    rw [hsizes]
    simp
  exact hbytes

theorem flaw?_eq_none_iff {id : String} :
    flaw? id = none ↔ id.toList.length ≤ 24 ∧ ∀ c ∈ id.toList, IsIdChar c := by
  have hfind : (id.toList.find? (!isIdChar ·)).map IdFlaw.badCharacter = none ↔
      ∀ c ∈ id.toList, IsIdChar c := by
    simp [isIdChar_iff]
  rw [flaw?]
  constructor
  · intro h
    split at h
    · cases h
    · rename_i hsize
      have hchars := hfind.mp h
      rw [utf8ByteSize_of_chars hchars] at hsize
      exact ⟨Nat.not_lt.mp hsize, hchars⟩
  · rintro ⟨hlength, hchars⟩
    rw [if_neg (by rw [utf8ByteSize_of_chars hchars]; exact Nat.not_lt.mpr hlength)]
    exact hfind.mpr hchars

theorem isId_iff {id : String} : IsId id ↔ id ≠ "" ∧ flaw? id = none := by
  have hnonempty : 1 ≤ id.toList.length ↔ id ≠ "" := by
    rw [Nat.one_le_iff_ne_zero, Ne, List.length_eq_zero_iff, String.toList_eq_nil_iff]
  rw [flaw?_eq_none_iff, ← hnonempty]
  exact ⟨fun h => ⟨h.1, h.2, h.3⟩, fun h => ⟨h.1, h.2.1, h.2.2⟩⟩

/-- The source of a value, and what it has: the argument wherever the arguments give one, even a
blank one, and the property otherwise. -/
inductive Source (raw : String) (p : String → Option String) (keys : Keys) : String → String → Prop
  | argument {value} (h : Args.Gives raw keys.argument value) :
      Source raw p keys keys.argument value
  | property {value} (hnone : ∀ given, ¬ Args.Gives raw keys.argument given)
      (h : p keys.property = some value) : Source raw p keys keys.property value

def Resolves (raw : String) (p : String → Option String) (keys : Keys) (id : String) : Prop :=
  ∃ key value, Source raw p keys key value ∧ Trims value.toList id.toList ∧ IsId id

inductive Refuses (raw : String) (p : String → Option String) (keys : Keys) : BootError → Prop
  | unset (hnone : ∀ given, ¬ Args.Gives raw keys.argument given) (h : p keys.property = none) :
      Refuses raw p keys (.identityMissing keys.property)
  | blank {key value} (h : Source raw p keys key value) (hblank : AllBlank value.toList) :
      Refuses raw p keys (.identityMissing key)
  | invalid {key value id flaw} (h : Source raw p keys key value)
      (htrim : Trims value.toList id.toList) (hne : id ≠ "") (hid : ¬ IsId id)
      (hflaw : flaw? id = some flaw) : Refuses raw p keys (.identityInvalid key id flaw)

variable {raw : String} {p : String → Option String} {keys : Keys} {key value id : String}
  {e : BootError}

theorem check_eq_ok_iff :
    (check key value).1 = .ok id ↔ Trims value.toList id.toList ∧ IsId id := by
  rw [← trimString_eq_iff, check, isId_iff]
  constructor
  · intro h
    split at h
    · cases h
    · rename_i hne
      split at h
      · cases h
      · rename_i hflaw
        obtain rfl := Except.ok.inj h
        exact ⟨rfl, by simpa using hne, hflaw⟩
  · rintro ⟨rfl, hne, hflaw⟩
    simp [hne, hflaw]

theorem check_eq_error_iff : (check key value).1 = .error e ↔
    AllBlank value.toList ∧ e = .identityMissing key ∨
      ∃ id flaw, Trims value.toList id.toList ∧ id ≠ "" ∧ ¬ IsId id ∧ flaw? id = some flaw ∧
        e = .identityInvalid key id flaw := by
  have hblank : AllBlank value.toList ↔ trimString value = "" := by
    rw [trimString_eq_iff, ← trim_eq_iff]
    exact ⟨fun h => by rw [trim_of_allBlank h]; rfl, fun h => allBlank_of_trim (by simpa using h)⟩
  simp only [hblank, ← trimString_eq_iff]
  rw [check]
  constructor
  · intro h
    split at h
    · rename_i hempty
      exact .inl ⟨by simpa using hempty, (Except.error.inj h).symm⟩
    · rename_i hne
      have hne : trimString value ≠ "" := by simpa using hne
      split at h
      · rename_i flaw hflaw
        have hid : ¬ IsId (trimString value) := fun hid => by
          rw [(isId_iff.mp hid).2] at hflaw
          cases hflaw
        exact .inr ⟨_, flaw, rfl, hne, hid, hflaw, (Except.error.inj h).symm⟩
      · cases h
  · rintro (⟨hempty, rfl⟩ | ⟨id, flaw, rfl, hne, -, hflaw, rfl⟩)
    · simp [hempty]
    · simp [hne, hflaw]

theorem get?_parse_eq_none (hkeys : keys.argument ≠ "")
    (hnone : ∀ given, ¬ Args.Gives raw keys.argument given) :
    (Args.parse raw).get? keys.argument = none := by
  refine Option.eq_none_iff_forall_ne_some.mpr fun given hgiven => ?_
  exact hnone given ((Args.get?_parse_iff hkeys).mp hgiven)

theorem Source.identityOf_eq (h : Source raw p keys key value) (hkeys : keys.argument ≠ "") :
    Premain.identityOf (Args.parse raw) keys (p keys.property) = (check key value).1 := by
  cases h with
  | argument h => rw [Premain.identityOf, (Args.get?_parse_iff hkeys).mpr h, Identity.value]
  | property hnone h =>
    rw [Premain.identityOf, get?_parse_eq_none hkeys hnone, h, Identity.value]

theorem identityOf_of_unset (hkeys : keys.argument ≠ "")
    (hnone : ∀ given, ¬ Args.Gives raw keys.argument given) (h : p keys.property = none) :
    Premain.identityOf (Args.parse raw) keys (p keys.property) =
      .error (.identityMissing keys.property) := by
  rw [Premain.identityOf, get?_parse_eq_none hkeys hnone, h, Identity.value]

theorem source_or_unset (raw : String) (p : String → Option String) (keys : Keys) :
    (∃ key value, Source raw p keys key value) ∨
      (∀ given, ¬ Args.Gives raw keys.argument given) ∧ p keys.property = none := by
  by_cases hgiven : ∃ given, Args.Gives raw keys.argument given
  · obtain ⟨given, hgiven⟩ := hgiven
    exact .inl ⟨_, given, .argument hgiven⟩
  · have hnone := not_exists.mp hgiven
    cases h : p keys.property with
    | some value => exact .inl ⟨_, value, .property hnone h⟩
    | none => exact .inr ⟨hnone, rfl⟩

theorem identityOf_eq_ok_iff (hkeys : keys.argument ≠ "") :
    Premain.identityOf (Args.parse raw) keys (p keys.property) = .ok id ↔
      Resolves raw p keys id := by
  constructor
  · intro h
    rcases source_or_unset raw p keys with ⟨key, value, hsource⟩ | ⟨hnone, hunset⟩
    · rw [hsource.identityOf_eq hkeys, check_eq_ok_iff] at h
      exact ⟨key, value, hsource, h⟩
    · rw [identityOf_of_unset hkeys hnone hunset] at h
      cases h
  · rintro ⟨key, value, hsource, hid⟩
    rw [hsource.identityOf_eq hkeys]
    exact check_eq_ok_iff.mpr hid

theorem identityOf_eq_error_iff (hkeys : keys.argument ≠ "") :
    Premain.identityOf (Args.parse raw) keys (p keys.property) = .error e ↔
      Refuses raw p keys e := by
  constructor
  · intro h
    rcases source_or_unset raw p keys with ⟨key, value, hsource⟩ | ⟨hnone, hunset⟩
    · rw [hsource.identityOf_eq hkeys, check_eq_error_iff] at h
      rcases h with ⟨hblank, rfl⟩ | ⟨id, flaw, htrim, hne, hid, hflaw, rfl⟩
      · exact .blank hsource hblank
      · exact .invalid hsource htrim hne hid hflaw
    · rw [identityOf_of_unset hkeys hnone hunset] at h
      obtain rfl := Except.error.inj h
      exact .unset hnone hunset
  · intro h
    cases h with
    | unset hnone h => exact identityOf_of_unset hkeys hnone h
    | blank hsource hblank =>
      rw [hsource.identityOf_eq hkeys]
      exact check_eq_error_iff.mpr (.inl ⟨hblank, rfl⟩)
    | invalid hsource htrim hne hid hflaw =>
      rw [hsource.identityOf_eq hkeys]
      exact check_eq_error_iff.mpr (.inr ⟨_, _, htrim, hne, hid, hflaw, rfl⟩)

theorem identityOf_congr {p' : String → Option String} (hkeys : keys.argument ≠ "")
    (h : (∃ given, Args.Gives raw keys.argument given) ∨ p' keys.property = p keys.property) :
    Premain.identityOf (Args.parse raw) keys (p' keys.property) =
      Premain.identityOf (Args.parse raw) keys (p keys.property) := by
  rcases h with ⟨given, hgiven⟩ | h
  · have hsource (p : String → Option String) : Source raw p keys keys.argument given :=
      .argument hgiven
    rw [(hsource p').identityOf_eq hkeys, (hsource p).identityOf_eq hkeys]
  · rw [h]

end Identity

structure Surroundings.Offers {A S : Type} (i : Surroundings A S) (p : String → Option String)
    (s : S) : Prop where
  property : ∀ key, i.property key s = p key
  logged : ∀ key e, i.property key (i.log e s) = p key

namespace Premain

open Identity

variable {A S : Type} {i : Surroundings A S} {p : String → Option String} {s : S} {raw : String}

theorem run_identity_offered (h : i.Offers p s) (args : Args) :
    (Boot.run i (identity args) s).1 =
      (identityOf args idKeys (p idKeys.property)).bind fun id =>
        (identityOf args nameKeys (p nameKeys.property)).map fun name => ⟨id, name⟩ := by
  obtain ⟨e, hid⟩ := run_identityValue i args idKeys s
  obtain ⟨e', hname⟩ := run_identityValue i args nameKeys (i.log e s)
  rw [h.property] at hid
  rw [h.logged] at hname
  rw [identity, Boot.run_bind, hid]
  cases identityOf args idKeys (p idKeys.property) with
  | error e => rfl
  | ok id =>
    simp only
    rw [Boot.run_bind, hname]
    cases identityOf args nameKeys (p nameKeys.property) with
    | error e => rfl
    | ok name => rfl

theorem identity_by_sources (h : i.Offers p s) :
    (∀ identity, (Boot.run i (Premain.identity (Args.parse raw)) s).1 = .ok identity ↔
      Resolves raw p idKeys identity.agentId ∧
        Resolves raw p nameKeys identity.applicationName) ∧
    (∀ e, (Boot.run i (Premain.identity (Args.parse raw)) s).1 = .error e ↔
      Refuses raw p idKeys e ∨
        (∃ id, Resolves raw p idKeys id) ∧ Refuses raw p nameKeys e) ∧
    ∀ (i' : Surroundings A S) (p' : String → Option String) (s' : S), i'.Offers p' s' →
      (∀ keys ∈ [idKeys, nameKeys], (∃ given, Args.Gives raw keys.argument given) ∨
        p' keys.property = p keys.property) →
      (Boot.run i' (Premain.identity (Args.parse raw)) s').1 =
        (Boot.run i (Premain.identity (Args.parse raw)) s).1 := by
  have hidKeys : idKeys.argument ≠ "" := by decide
  have hnameKeys : nameKeys.argument ≠ "" := by decide
  refine ⟨fun identity => ?_, fun e => ?_, fun i' p' s' h' hsame => ?_⟩
  · rw [run_identity_offered h, ← identityOf_eq_ok_iff hidKeys, ← identityOf_eq_ok_iff hnameKeys]
    cases identityOf (Args.parse raw) idKeys (p idKeys.property) with
    | error e => simp [Except.bind]
    | ok id =>
      cases identityOf (Args.parse raw) nameKeys (p nameKeys.property) with
      | error e => simp [Except.bind, Except.map]
      | ok name =>
        obtain ⟨agentId, applicationName⟩ := identity
        simp [Except.bind, Except.map]
  · simp only [run_identity_offered h, ← identityOf_eq_error_iff hidKeys,
      ← identityOf_eq_error_iff hnameKeys, ← identityOf_eq_ok_iff hidKeys]
    cases identityOf (Args.parse raw) idKeys (p idKeys.property) with
    | error e => simp [Except.bind]
    | ok id =>
      cases identityOf (Args.parse raw) nameKeys (p nameKeys.property) with
      | error e => simp [Except.bind, Except.map]
      | ok name => simp [Except.bind, Except.map]
  · rw [run_identity_offered h, run_identity_offered h',
      identityOf_congr hidKeys (hsame idKeys (by simp)),
      identityOf_congr hnameKeys (hsame nameKeys (by simp))]

def shop : Properties :=
  { initial := [(Properties.agentId, "unused"), (Properties.applicationName, " shop ")] }

theorem shop_by_sources :
    Resolves "agentId=a/b, agentId = web-01 ,x" shop.get? idKeys "web-01" ∧
      Resolves "agentId=a/b, agentId = web-01 ,x" shop.get? nameKeys "shop" := by
  have hoffers : Session.surroundings.Offers shop.get? { properties := shop } :=
    ⟨fun _ => rfl, fun _ _ => rfl⟩
  exact ((identity_by_sources hoffers).1 ⟨"web-01", "shop"⟩).mp (by decide +kernel)

end Premain

end PluginAgent
