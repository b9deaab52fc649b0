import StageQp.Options.Router

/-!
# StageQp.Proofs.Options.Router

The grammar of option keys, for a strategy whose tag is not empty and has no separator
in it.  A key is empty, or opens with the separator, or is the tag with or without the
separator behind it, and then it is malformed; or it is the tag, the separator and a
name, and then it is the strategy's; and every other key is the backend's
(`route_of_other`).

Each destination is had by keys of its form and no others, and by one key only
(`route_exact`).
-/

namespace StageQp

namespace Router

/-! ## The first separator -/

/-- A key is not split exactly if it has no separator. -/
theorem splitFirst?_eq_none_iff {cs : List Char} : splitFirst? cs = none ↔ separator ∉ cs := by
  induction cs with
  | nil => simp [splitFirst?]
  | cons c cs ih =>
      by_cases h : c = separator
      · simp [splitFirst?, h]
      · simp [splitFirst?, h, ih, Ne.symm h]

/-- What stands before the first separator is split off. -/
theorem splitFirst?_append {tag : List Char} (h : separator ∉ tag) (name : List Char) :
    splitFirst? (tag ++ separator :: name) = some (tag, name) := by
  induction tag with
  | nil => simp [splitFirst?]
  | cons c tag ih =>
      rw [List.mem_cons, not_or] at h
      simp [splitFirst?, Ne.symm h.1, ih h.2]

/-- What is split off stands before a separator. -/
theorem eq_append_of_splitFirst? {cs tag name : List Char}
    (h : splitFirst? cs = some (tag, name)) : cs = tag ++ separator :: name := by
  induction cs generalizing tag with
  | nil => cases h
  | cons c cs ih =>
      by_cases hc : c = separator
      · rw [splitFirst?, if_pos hc] at h
        cases h
        rw [hc]
        rfl
      · rw [splitFirst?, if_neg hc] at h
        obtain ⟨⟨tag', name'⟩, hsplit, heq⟩ := Option.map_eq_some_iff.1 h
        cases heq
        rw [ih hsplit]
        rfl

/-! ## The six forms of a key -/

variable {r : Router}

/-- A tagged key has its separator behind the tag. -/
theorem toList_tagged (tag name : String) :
    (tag ++ "_" ++ name).toList = tag.toList ++ separator :: name.toList := by
  simp [separator]

theorem route_empty : r.route "" = .error (.invalidOption "" .emptyKey) := rfl

/-- A key that opens with the separator has an empty tag. -/
theorem route_of_separator (rest : String) :
    r.route ("_" ++ rest) = .error (.invalidOption ("_" ++ rest) .emptyModuleTag) := by
  have hsplit : splitFirst? ("_" ++ rest).toList = some ([], rest.toList) := by
    simpa [separator] using splitFirst?_append (List.not_mem_nil) rest.toList
  have hne : ("_" ++ rest).isEmpty = false := by simp
  simp only [route, hne, hsplit]
  rfl

section Tagged

variable (hsep : separator ∉ r.strategyTag.toList)

include hsep

/-- The split of a key that opens with the tag and the separator. -/
theorem splitFirst?_tagged (name : String) :
    splitFirst? (r.strategyTag ++ "_" ++ name).toList =
      some (r.strategyTag.toList, name.toList) := by
  rw [toList_tagged, splitFirst?_append hsep]

variable (htag : r.strategyTag ≠ "")

include htag

/-- The tag alone names no option. -/
theorem route_tag :
    r.route r.strategyTag = .error (.invalidOption r.strategyTag .missingOptionName) := by
  have hsplit := splitFirst?_eq_none_iff.2 hsep
  have hne : r.strategyTag.isEmpty = false := by simpa using htag
  simp only [route, hne, hsplit]
  rfl

/-- Nor does the tag with the separator. -/
theorem route_tag_separator : r.route (r.strategyTag ++ "_") =
    .error (.invalidOption (r.strategyTag ++ "_") .missingOptionName) := by
  have hsplit := splitFirst?_tagged hsep ""
  have hne : (r.strategyTag ++ "_").isEmpty = false := by simp
  obtain ⟨c, cs, hc⟩ := List.exists_cons_of_ne_nil (mt String.toList_eq_nil_iff.1 htag)
  rw [String.append_empty, hc] at hsplit
  simp only [route, hne, hsplit]
  simp [← hc]

/-- Behind the tag and the separator stands the name of an option of the strategy. -/
theorem route_strategy {name : String} (hname : name ≠ "") :
    r.route (r.strategyTag ++ "_" ++ name) = .ok (.strategy name) := by
  have hsplit := splitFirst?_tagged hsep name
  have hne : (r.strategyTag ++ "_" ++ name).isEmpty = false := by simp
  obtain ⟨c, cs, hc⟩ := List.exists_cons_of_ne_nil (mt String.toList_eq_nil_iff.1 htag)
  rw [hc] at hsplit
  simp only [route, hne, hsplit]
  simp [← hc, hname]

end Tagged

/-- A key of no other form goes to the backend. -/
theorem route_of_other {key : String} (hempty : key ≠ "") (hopen : ∀ rest, key ≠ "_" ++ rest)
    (htag : key ≠ r.strategyTag) (hname : ∀ name, key ≠ r.strategyTag ++ "_" ++ name) :
    r.route key = .ok (.backend key) := by
  have hne : key.isEmpty = false := by simpa using hempty
  cases hsplit : splitFirst? key.toList with
  | none => simp [route, hne, hsplit, htag]
  | some parts =>
      obtain ⟨tag, name⟩ := parts
      have hkey : key = String.ofList tag ++ "_" ++ String.ofList name := by
        rw [← String.toList_inj, toList_tagged, eq_append_of_splitFirst? hsplit]
        simp
      cases tag with
      | nil => exact absurd (hkey.trans (by simp)) (hopen (String.ofList name))
      | cons c tag =>
          have hother : String.ofList (c :: tag) ≠ r.strategyTag := fun h =>
            hname (String.ofList name) (by rw [← h]; exact hkey)
          simp only [route, hne, hsplit]
          exact if_pos hother

/-! ## The grammar -/

/-- What is wrong with the form of a malformed key. -/
inductive Malformed (r : Router) : String → OptionFlaw → Prop where
  | empty : Malformed r "" .emptyKey
  | opening (rest : String) : Malformed r ("_" ++ rest) .emptyModuleTag
  | tag : Malformed r r.strategyTag .missingOptionName
  | tagAlone : Malformed r (r.strategyTag ++ "_") .missingOptionName

section Grammar

variable (hsep : separator ∉ r.strategyTag.toList) (htag : r.strategyTag ≠ "")

include hsep htag

/-- A malformed key is refused with its flaw. -/
theorem route_of_malformed {key : String} {flaw : OptionFlaw} (h : r.Malformed key flaw) :
    r.route key = .error (.invalidOption key flaw) := by
  cases h with
  | empty => exact route_empty
  | opening rest => exact route_of_separator rest
  | tag => exact route_tag hsep htag
  | tagAlone => exact route_tag_separator hsep htag

/-- A key has one of three forms, and goes where keys of that form go. -/
theorem route_cases (key : String) :
    (∃ flaw, r.Malformed key flaw ∧ r.route key = .error (.invalidOption key flaw)) ∨
    (∃ name, name ≠ "" ∧ key = r.strategyTag ++ "_" ++ name ∧
      r.route key = .ok (.strategy name)) ∨
    ((∀ flaw, ¬r.Malformed key flaw) ∧ (∀ name, key ≠ r.strategyTag ++ "_" ++ name) ∧
      r.route key = .ok (.backend key)) := by
  by_cases hbad : ∃ flaw, r.Malformed key flaw
  · obtain ⟨flaw, h⟩ := hbad
    exact .inl ⟨flaw, h, route_of_malformed hsep htag h⟩
  · rw [not_exists] at hbad
    by_cases hname : ∃ name, key = r.strategyTag ++ "_" ++ name
    · obtain ⟨name, rfl⟩ := hname
      have hne : name ≠ "" := by
        rintro rfl
        exact hbad .missingOptionName (by rw [String.append_empty]; exact .tagAlone)
      exact .inr (.inl ⟨name, hne, rfl, route_strategy hsep htag hne⟩)
    · rw [not_exists] at hname
      have hempty : key ≠ "" := fun h => hbad .emptyKey (h ▸ .empty)
      have hopen (rest : String) : key ≠ "_" ++ rest := fun h =>
        hbad .emptyModuleTag (h ▸ .opening rest)
      have hown : key ≠ r.strategyTag := fun h => hbad .missingOptionName (h ▸ .tag)
      exact .inr (.inr ⟨hbad, hname, route_of_other hempty hopen hown hname⟩)

/-- Exactly the keys with the tag and a name go to the strategy. -/
theorem route_eq_strategy_iff {key name : String} :
    r.route key = .ok (.strategy name) ↔ name ≠ "" ∧ key = r.strategyTag ++ "_" ++ name := by
  constructor
  · intro h
    rcases route_cases hsep htag key with ⟨_, _, hroute⟩ | ⟨_, hne, hkey, hroute⟩ | ⟨_, _, hroute⟩
    · simp [h] at hroute
    · obtain rfl : name = _ := by simpa [h] using hroute
      exact ⟨hne, hkey⟩
    · simp [h] at hroute
  · rintro ⟨hne, rfl⟩
    exact route_strategy hsep htag hne

/-- A key is refused exactly if it is malformed, and with its flaw. -/
theorem route_eq_error_iff {key : String} {fault : Fault} :
    r.route key = .error fault ↔
      ∃ flaw, fault = .invalidOption key flaw ∧ r.Malformed key flaw := by
  constructor
  · intro h
    rcases route_cases hsep htag key with ⟨flaw, hbad, hroute⟩ | ⟨_, _, _, hroute⟩ | ⟨_, _, hroute⟩
    · exact ⟨flaw, by simpa [h] using hroute, hbad⟩
    · simp [h] at hroute
    · simp [h] at hroute
  · rintro ⟨flaw, rfl, hbad⟩
    exact route_of_malformed hsep htag hbad

/-- All other keys go to the backend, whole. -/
theorem route_eq_backend_iff {key whole : String} :
    r.route key = .ok (.backend whole) ↔
      whole = key ∧ (∀ flaw, ¬r.Malformed key flaw) ∧
        ∀ name, key ≠ r.strategyTag ++ "_" ++ name := by
  constructor
  · intro h
    rcases route_cases hsep htag key with
      ⟨_, _, hroute⟩ | ⟨_, _, _, hroute⟩ | ⟨hgood, hname, hroute⟩
    · simp [h] at hroute
    · simp [h] at hroute
    · exact ⟨by simpa [h] using hroute, hgood, hname⟩
  · rintro ⟨rfl, hgood, hname⟩
    rcases route_cases hsep htag whole with ⟨_, hbad, _⟩ | ⟨_, _, hkey, _⟩ | ⟨_, _, hroute⟩
    · exact absurd hbad (hgood _)
    · exact absurd hkey (hname _)
    · exact hroute

/-- Nothing of a key is lost: its destination tells which key it was. -/
theorem route_inj {key other : String} {route : Route} (h : r.route key = .ok route)
    (h' : r.route other = .ok route) : key = other := by
  cases route with
  | strategy name =>
      rw [((route_eq_strategy_iff hsep htag).1 h).2, ((route_eq_strategy_iff hsep htag).1 h').2]
  | backend whole =>
      rw [← ((route_eq_backend_iff hsep htag).1 h).1, ← ((route_eq_backend_iff hsep htag).1 h').1]

/-- A key that opens with the letters of the tag, but not with the separator behind them,
stays whole. -/
theorem route_of_longer_tag {rest : String} (hrest : rest ≠ "")
    (hopen : ∀ name, rest ≠ "_" ++ name) :
    r.route (r.strategyTag ++ rest) = .ok (.backend (r.strategyTag ++ rest)) := by
  have hname (name : String) : r.strategyTag ++ rest ≠ r.strategyTag ++ "_" ++ name := by
    simpa [String.append_assoc] using hopen name
  refine route_of_other (by simp [htag]) (fun name h => ?_) (by simpa using hrest) hname
  -- The first letter would be one of the tag, and the separator.
  obtain ⟨c, cs, hc⟩ := List.exists_cons_of_ne_nil (mt String.toList_eq_nil_iff.1 htag)
  have hhead := congrArg String.toList h
  simp only [String.toList_append, hc, List.cons_append] at hhead
  have hfirst : c = '_' := by simpa using congrArg List.head? hhead
  exact hsep (by simp [hc, hfirst, separator])

/-- Where keys go.  The strategy is handed the name behind its tag and the separator, and
gets no other key; malformed keys are refused, for what is wrong with their form; all
other keys go to the backend, whole.  No destination is shared by two keys. -/
theorem route_exact :
    (∀ key name, r.route key = .ok (.strategy name) ↔
      name ≠ "" ∧ key = r.strategyTag ++ "_" ++ name) ∧
    (∀ key fault, r.route key = .error fault ↔
      ∃ flaw, fault = .invalidOption key flaw ∧ r.Malformed key flaw) ∧
    (∀ key whole, r.route key = .ok (.backend whole) ↔
      whole = key ∧ (∀ flaw, ¬r.Malformed key flaw) ∧
        ∀ name, key ≠ r.strategyTag ++ "_" ++ name) ∧
    (∀ key other route, r.route key = .ok route → r.route other = .ok route → key = other) ∧
    ∀ rest, rest ≠ "" → (∀ name, rest ≠ "_" ++ name) →
      r.route (r.strategyTag ++ rest) = .ok (.backend (r.strategyTag ++ rest)) :=
  ⟨fun _ _ => route_eq_strategy_iff hsep htag, fun _ _ => route_eq_error_iff hsep htag,
    fun _ _ => route_eq_backend_iff hsep htag, fun _ _ _ => route_inj hsep htag,
    fun _ => route_of_longer_tag hsep htag⟩

end Grammar

/-- With the tag of the bundled strategy: a name may open with a separator, and a key that
opens with the letters of the tag alone is the backend's. -/
theorem route_exact_cond :
    separator ∉ "cond".toList ∧ "cond" ≠ "" ∧
      (⟨"cond"⟩ : Router).route "cond__tol" = .ok (.strategy "_tol") ∧
      (⟨"cond"⟩ : Router).route "_" = .error (.invalidOption "_" .emptyModuleTag) ∧
      (⟨"cond"⟩ : Router).route "condx_tol" = .ok (.backend "condx_tol") := by
  have hsep : separator ∉ "cond".toList := by decide
  have htag : "cond" ≠ "" := by decide
  obtain ⟨hstrategy, herror, -, -, hlonger⟩ := route_exact (r := ⟨"cond"⟩) hsep htag
  have hopen (name : String) : "x_tol" ≠ "_" ++ name := by simp [← String.toList_inj]
  exact ⟨hsep, htag, (hstrategy _ _).2 ⟨by decide, rfl⟩, (herror _ _).2 ⟨_, rfl, .opening ""⟩,
    hlonger "x_tol" (by decide) hopen⟩

end Router

end StageQp
