import PluginAgent.Proofs.IdentitySources

namespace PluginAgent

open Text

namespace Text

theorem Trims.subset {s t : List Char} (h : Trims s t) : t ⊆ s := by
  obtain ⟨left, right, rfl, -⟩ := h
  exact fun c hc => List.mem_append_left _ (List.mem_append_right _ hc)

theorem Trims.trimmed {s t : List Char} (h : Trims s t) : Trimmed t := by
  obtain ⟨_, _, -, -, -, ht⟩ := h
  exact ht

theorem Trimmed.trims {s : List Char} (h : Trimmed s) : Trims s s :=
  trim_eq_iff.mp h.trim_eq

theorem toList_append_comma (a b : String) :
    (a ++ "," ++ b).toList = a.toList ++ ',' :: b.toList := by
  rw [String.toList_append, String.toList_append, List.append_assoc]
  rfl

end Text

namespace Args

def Ordered (values : List (String × String)) : Prop :=
  values.Pairwise fun p q => p.1 < q.1

structure IsBinding (key value : String) : Prop where
  key_ne_empty : key ≠ ""
  key_trimmed : Trimmed key.toList
  comma_not_mem_key : ',' ∉ key.toList
  equals_not_mem_key : '=' ∉ key.toList
  value_trimmed : Trimmed value.toList
  comma_not_mem_value : ',' ∉ value.toList

def insertAll (values later : List (String × String)) : List (String × String) :=
  later.foldl (fun values p => insert p.1 p.2 values) values

def overriddenBy (a b : Args) : Args :=
  ⟨insertAll a.values b.values⟩

variable {key value : String} {values later : List (String × String)} {p : String × String}

theorem insertAll_concat (values later : List (String × String)) (p : String × String) :
    insertAll values (later ++ [p]) = insert p.1 p.2 (insertAll values later) :=
  List.foldl_append

theorem insertAll_append (values later last : List (String × String)) :
    insertAll values (later ++ last) = insertAll (insertAll values later) last :=
  List.foldl_append

theorem mem_insert (h : p ∈ insert key value values) : p = (key, value) ∨ p ∈ values := by
  induction values with
  | nil => exact .inl (List.mem_singleton.mp h)
  | cons q rest ih =>
    obtain ⟨k, v⟩ := q
    rw [insert] at h
    split at h
    · exact List.mem_cons.mp h
    split at h
    · exact (List.mem_cons.mp h).imp_right (List.mem_cons_of_mem _)
    · rcases List.mem_cons.mp h with rfl | hrest
      · exact .inr List.mem_cons_self
      · exact (ih hrest).imp_right (List.mem_cons_of_mem _)

theorem Ordered.insert (key value : String) (h : Ordered values) :
    Ordered (insert key value values) := by
  induction values with
  | nil => exact List.pairwise_singleton _ _
  | cons q rest ih =>
    obtain ⟨k, v⟩ := q
    obtain ⟨hfirst, hrest⟩ := List.pairwise_cons.mp h
    rw [Args.insert]
    split
    · rename_i hless
      refine List.pairwise_cons.mpr ⟨fun p hp => ?_, h⟩
      rcases List.mem_cons.mp hp with rfl | hp
      · exact hless
      · exact String.lt_trans hless (hfirst p hp)
    split
    · rename_i hsame
      subst hsame
      exact List.pairwise_cons.mpr ⟨hfirst, hrest⟩
    · rename_i hnotLess hother
      have hbehind : k < key := Std.lt_of_le_of_ne (String.not_lt.mp hnotLess) (Ne.symm hother)
      refine List.pairwise_cons.mpr ⟨fun p hp => ?_, ih hrest⟩
      rcases mem_insert hp with rfl | hp
      · exact hbehind
      · exact hfirst p hp

theorem Ordered.insertAll (h : Ordered values) (later : List (String × String)) :
    Ordered (insertAll values later) := by
  induction later generalizing values with
  | nil => exact h
  | cons p rest ih => exact ih (h.insert p.1 p.2)

theorem mem_insertAll (h : p ∈ insertAll values later) : p ∈ later ∨ p ∈ values := by
  induction later generalizing values with
  | nil => exact .inr h
  | cons q rest ih =>
    rcases ih h with hrest | hvalues
    · exact .inl (List.mem_cons_of_mem q hrest)
    · exact (mem_insert hvalues).imp_left fun hp => by rw [hp]; exact List.mem_cons_self

theorem lookup_insertAll (values later : List (String × String)) (k : String) :
    (insertAll values later).lookup k =
      ((insertAll [] later).lookup k).or (values.lookup k) := by
  induction later using List.reverseRecOn with
  | nil => rfl
  | append_singleton later p ih =>
    rw [insertAll_concat, insertAll_concat, lookup_insert, lookup_insert, ih]
    split <;> rfl

theorem lookup_eq_none_of_lt (h : ∀ p ∈ values, k < p.1) : values.lookup k = none := by
  refine List.lookup_eq_none_iff.mpr fun p hp => bne_iff_ne.mpr ?_
  rintro rfl
  exact String.lt_irrefl _ (h p hp)

theorem lookup_first (key value : String) (rest : List (String × String)) :
    ((key, value) :: rest).lookup key = some value := by
  rw [lookup_cons_eq, if_pos rfl]

theorem Ordered.ext (h : Ordered values) (h' : Ordered later)
    (heq : ∀ k, values.lookup k = later.lookup k) : values = later := by
  induction values generalizing later with
  | nil =>
    cases later with
    | nil => rfl
    | cons q rest => cases (heq q.1).trans (lookup_first q.1 q.2 rest)
  | cons p rest ih =>
    obtain ⟨key, value⟩ := p
    obtain ⟨hfirst, hrest⟩ := List.pairwise_cons.mp h
    cases later with
    | nil => cases (heq key).symm.trans (lookup_first key value rest)
    | cons q rest' =>
      obtain ⟨key', value'⟩ := q
      obtain ⟨hfirst', hrest'⟩ := List.pairwise_cons.mp h'
      -- A key before the first one of the other list is bound in this list only.
      have hnotLess : ¬ key < key' := by
        intro hless
        have hnone : ((key', value') :: rest').lookup key = none :=
          lookup_eq_none_of_lt (List.forall_mem_cons.mpr
            ⟨hless, fun r hr => String.lt_trans hless (hfirst' r hr)⟩)
        cases (lookup_first key value rest).symm.trans ((heq key).trans hnone)
      have hnotLess' : ¬ key' < key := by
        intro hless
        have hnone : ((key, value) :: rest).lookup key' = none :=
          lookup_eq_none_of_lt (List.forall_mem_cons.mpr
            ⟨hless, fun r hr => String.lt_trans hless (hfirst r hr)⟩)
        cases (lookup_first key' value' rest').symm.trans ((heq key').symm.trans hnone)
      obtain rfl : key = key' :=
        String.le_antisymm (String.not_lt.mp hnotLess') (String.not_lt.mp hnotLess)
      obtain rfl : value = value' := by
        have hvalue := heq key
        rw [lookup_first, lookup_first] at hvalue
        exact Option.some.inj hvalue
      refine congrArg _ (ih hrest hrest' fun k => ?_)
      by_cases hk : k = key
      · rw [hk, lookup_eq_none_of_lt hfirst, lookup_eq_none_of_lt hfirst']
      · have hlater := heq k
        rwa [lookup_cons_eq, lookup_cons_eq, if_neg hk, if_neg hk] at hlater

theorem insert_behind (h : ∀ p ∈ values, p.1 < key) :
    insert key value values = values ++ [(key, value)] := by
  induction values with
  | nil => rfl
  | cons p rest ih =>
    obtain ⟨k, v⟩ := p
    obtain ⟨hfirst, hrest⟩ := List.forall_mem_cons.mp h
    have hne : key ≠ k := fun heq => String.lt_irrefl k (heq ▸ hfirst)
    rw [insert, if_neg (String.lt_asymm hfirst), if_neg hne, ih hrest, List.cons_append]

theorem Ordered.insertAll_nil (h : Ordered values) : Args.insertAll [] values = values := by
  induction values using List.reverseRecOn with
  | nil => rfl
  | append_singleton values p ih =>
    obtain ⟨hvalues, -, hbefore⟩ := List.pairwise_append.mp h
    rw [insertAll_concat, ih hvalues,
      insert_behind fun q hq => hbefore q hq p (List.mem_singleton_self p)]

def bindings (raw : String) : List (String × String) :=
  (splitOn ',' raw.toList).filterMap pair?

theorem values_parse (raw : String) : (parse raw).values = insertAll [] (bindings raw) :=
  rfl

theorem bindings_append (a b : String) : bindings (a ++ "," ++ b) = bindings a ++ bindings b := by
  rw [bindings, toList_append_comma, splitOn_append_cons, List.filterMap_append]
  rfl

theorem ordered_parse (raw : String) : Ordered (parse raw).values :=
  Ordered.insertAll .nil _

theorem isBinding_of_pair? {token : List Char} (hcomma : ',' ∉ token)
    (h : pair? token = some (key, value)) : IsBinding key value := by
  have hkey : key ≠ "" := by
    rintro rfl
    have hne (left right : List Char) : (if (trim left).isEmpty then none
        else some (String.ofList (trim left), String.ofList (trim right))) ≠ some ("", value) := by
      split <;> simp_all
    exact hne _ _ h
  rcases (pair?_eq_some_iff hkey).mp h with ⟨left, right, rfl, hleft, htrims, hvalue⟩ |
    ⟨hequals, htrims, rfl⟩
  · rw [List.mem_append, List.mem_cons, not_or, not_or] at hcomma
    exact ⟨hkey, htrims.trimmed, fun hmem => hcomma.1 (htrims.subset hmem),
      fun hmem => hleft (htrims.subset hmem), hvalue.trimmed,
      fun hmem => hcomma.2.2 (hvalue.subset hmem)⟩
  · exact ⟨hkey, htrims.trimmed, fun hmem => hcomma (htrims.subset hmem),
      fun hmem => hequals (htrims.subset hmem), ⟨nofun, nofun⟩, List.not_mem_nil⟩

theorem isBinding_of_mem_parse {raw : String} (h : p ∈ (parse raw).values) :
    IsBinding p.1 p.2 := by
  rw [values_parse] at h
  rcases mem_insertAll h with hpair | hnone
  · obtain ⟨token, htoken, hpair⟩ := List.mem_filterMap.mp hpair
    exact isBinding_of_pair? (not_mem_of_mem_splitOn htoken) hpair
  · cases hnone

def shown (p : String × String) : List Char :=
  p.1.toList ++ '=' :: p.2.toList

theorem IsBinding.pair?_shown (h : IsBinding p.1 p.2) : pair? (shown p) = some p :=
  (pair?_eq_some_iff h.key_ne_empty).mpr
    (.inl ⟨_, _, rfl, h.equals_not_mem_key, h.key_trimmed.trims, h.value_trimmed.trims⟩)

theorem IsBinding.comma_not_mem_shown (h : IsBinding p.1 p.2) : ',' ∉ shown p := by
  rw [shown, List.mem_append, List.mem_cons, not_or, not_or]
  exact ⟨h.comma_not_mem_key, by decide, h.comma_not_mem_value⟩

theorem bindings_display {a : Args} (h : ∀ p ∈ a.values, IsBinding p.1 p.2) :
    bindings a.display = a.values := by
  have htokens : splitOn ',' a.display.toList = a.values.map shown ∨
      a.values = [] ∧ splitOn ',' a.display.toList = [[]] := by
    rw [display, String.toList_ofList]
    by_cases hempty : a.values = []
    · rw [hempty]
      exact .inr ⟨rfl, rfl⟩
    · refine .inl (splitOn_joinWith ?_ (by simpa using hempty))
      intro token htoken
      obtain ⟨p, hp, rfl⟩ := List.mem_map.mp htoken
      exact (h p hp).comma_not_mem_shown
  rcases htokens with htokens | ⟨hempty, htokens⟩
  · rw [bindings, htokens, List.filterMap_map]
    refine (List.filterMap_congr fun p hp => ?_).trans List.filterMap_some
    exact (h p hp).pair?_shown
  · rw [bindings, htokens, hempty]
    rfl

theorem parse_eq_iff {raw : String} {a : Args} :
    parse raw = a ↔ insertAll [] (bindings raw) = a.values := by
  obtain ⟨values⟩ := a
  exact ⟨fun h => congrArg Args.values h, fun h => congrArg Args.mk h⟩

theorem parse_append_and_display (a b : String) :
    parse (a ++ "," ++ b) = (parse a).overriddenBy (parse b) ∧
      (∀ key, (parse (a ++ "," ++ b)).get? key =
        ((parse b).get? key).or ((parse a).get? key)) ∧
      parse (parse a).display = parse a ∧
      Ordered (parse a).values ∧ ∀ p ∈ (parse a).values, IsBinding p.1 p.2 := by
  have hbindings : ∀ p ∈ (parse a).values, IsBinding p.1 p.2 := fun _ => isBinding_of_mem_parse
  have hvalues : (parse (a ++ "," ++ b)).values = insertAll (parse a).values (bindings b) := by
    rw [values_parse, values_parse, bindings_append, insertAll_append]
  have hlookup (values : List (String × String)) (key : String) :
      (insertAll values (bindings b)).lookup key =
        ((parse b).values.lookup key).or (values.lookup key) :=
    lookup_insertAll values (bindings b) key
  refine ⟨?_, fun key => ?_, ?_, ordered_parse a, hbindings⟩
  · refine congrArg Args.mk (hvalues.trans (Ordered.ext ?_ ?_ fun key => ?_))
    · exact (ordered_parse a).insertAll _
    · exact (ordered_parse a).insertAll _
    · rw [hlookup, lookup_insertAll, (ordered_parse b).insertAll_nil]
  · rw [get?, hvalues]
    exact hlookup _ key
  · rw [parse_eq_iff, bindings_display hbindings, (ordered_parse a).insertAll_nil]

end Args

end PluginAgent
