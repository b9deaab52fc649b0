import StageQp.Options.Value
import StageQp.Proofs.Options.Router

/-!
# StageQp.Proofs.Options.Setting

The settings of the bundled modules, with their keys and the kinds of values they take,
and what becomes of a key and a value on their account (`settle`): the setting and the
word it is to hold, or the fault.  `settle` says nothing of routes; the rules below say
what it makes of each form that a key can have.
-/

namespace StageQp

/-! ## Values -/

namespace OptionValue

/-- The word that a value is kept as where a kind of value is expected, if it is of that
kind. -/
def word? (value : OptionValue) : ValueKind → Option UInt64
  | .number => (value.toFloat "").toOption.map Binary64.bits
  | .nonNegativeInteger => (value.toWord "").toOption
  | .flag => (value.toFlag "").toOption.map Bool.toUInt64

/-- The fault of a value of another kind is that, under the key of the option. -/
theorem toFloat_eq (key : String) (value : OptionValue) : value.toFloat key =
    match value.word? .number with
    | none => .error (.optionType key .number)
    | some word => .ok ⟨word⟩ := by
  cases value <;> rfl

/-- A value is read as a word if it has one, and else is of the wrong type. -/
theorem toWord_eq (key : String) (value : OptionValue) : value.toWord key =
    match value.word? .nonNegativeInteger with
    | none => .error (.optionType key .nonNegativeInteger)
    | some word => .ok word := by
  cases value with
  | int i => by_cases h : 0 ≤ i <;> simp [toWord, word?, h, Except.toOption]
  | float x => cases h : x.toNat? <;> simp [toWord, word?, h, Except.toOption]
  | bool b => rfl

end OptionValue

/-! ## Settings and their keys -/

/-- What can be set in the options of the bundled modules. -/
inductive Setting where
  | n2
  | expandDuals
  | staticReg
  | refineTol
  | refineIters
  | warmStart
deriving DecidableEq, Repr

namespace Setting

def all : List Setting := [n2, expandDuals, staticReg, refineTol, refineIters, warmStart]

def keys : Setting → List String
  | n2 => ["cond_n2"]
  | expandDuals => ["cond_expand_dual_sol"]
  | staticReg => ["static_reg"]
  | refineTol => ["refine_tol"]
  | refineIters => ["iter_max", "maxiter"]
  | warmStart => ["warm_start"]

/-- What the setting expects of its value. -/
def kind : Setting → ValueKind
  | n2 | refineIters => .nonNegativeInteger
  | expandDuals | warmStart => .flag
  | staticReg | refineTol => .number

/-- The setting with a key. -/
def ofKey? (key : String) : Option Setting := all.find? fun s => s.keys.contains key

end Setting

/-- What is wrong with the form of a key. -/
def keyFlaw? (key : String) : Option OptionFlaw :=
  if key = "" then some .emptyKey
  else if key.toList.head? = some '_' then some .emptyModuleTag
  else if key = "cond" ∨ key = "cond_" then some .missingOptionName
  else none

/-- The name by which the module that a key belongs to knows the option: without the tag
of the strategy, and else the whole key. -/
def optionName (key : String) : String :=
  if "cond_".toList.isPrefixOf key.toList then String.ofList (key.toList.drop 5) else key

/-- What becomes of a value for a setting, if there is one under the name. -/
def settleAs (found : Option Setting) (name : String) (value : OptionValue) :
    Except Fault (Setting × UInt64) :=
  match found with
  | none => .error (.unknownOption name)
  | some s =>
    match value.word? s.kind with
    | none => .error (.optionType name s.kind)
    | some word => .ok (s, word)

/-- The setting that a key and a value are for, with the word that it is to hold; or why
there is none. -/
def settle (key : String) (value : OptionValue) : Except Fault (Setting × UInt64) :=
  match keyFlaw? key with
  | some flaw => .error (.invalidOption key flaw)
  | none => settleAs (Setting.ofKey? key) (optionName key) value

/-- A key names the setting that lists it. -/
theorem Setting.ofKey?_eq_some_iff {key : String} {s : Setting} :
    Setting.ofKey? key = some s ↔ key ∈ s.keys := by
  constructor
  · intro h
    simpa using List.find?_some h
  · intro h
    cases s with
    | refineIters =>
        simp only [keys, List.mem_cons, List.not_mem_nil, or_false] at h
        rcases h with rfl | rfl <;> rfl
    | _ =>
        simp only [keys, List.mem_singleton] at h
        subst h
        rfl

/-- A setting is settled if it is found and its value has a word. -/
theorem settleAs_eq_ok_iff {found : Option Setting} {name : String} {value : OptionValue}
    {s : Setting} {word : UInt64} : settleAs found name value = .ok (s, word) ↔
      found = some s ∧ value.word? s.kind = some word := by
  cases found with
  | none => simp [settleAs]
  | some t =>
      cases hword : value.word? t.kind with
      | none =>
          simp only [settleAs, hword]
          constructor
          · exact nofun
          · rintro ⟨⟨⟩, hother⟩
            exact nomatch hword.symm.trans hother
      | some v =>
          simp only [settleAs, hword, Except.ok.injEq, Prod.mk.injEq, Option.some.injEq]
          constructor
          · rintro ⟨rfl, rfl⟩
            exact ⟨rfl, hword⟩
          · rintro ⟨rfl, hother⟩
            exact ⟨rfl, Option.some.inj (hword.symm.trans hother)⟩

/-- A value is accepted for a setting under one of its keys, if it is of the kind that the
setting expects. -/
theorem settle_eq_ok_iff {key : String} {value : OptionValue} {s : Setting} {word : UInt64} :
    settle key value = .ok (s, word) ↔ key ∈ s.keys ∧ value.word? s.kind = some word := by
  have hflaw (hkey : key ∈ s.keys) : keyFlaw? key = none := by
    revert key
    cases s <;> decide
  rw [← Setting.ofKey?_eq_some_iff]
  constructor
  · intro h
    cases hform : keyFlaw? key with
    | some flaw =>
        rw [settle, hform] at h
        cases h
    | none =>
        rw [settle, hform] at h
        exact settleAs_eq_ok_iff.1 h
  · intro h
    rw [settle, hflaw (Setting.ofKey?_eq_some_iff.1 h.1)]
    exact settleAs_eq_ok_iff.2 h

/-! ## What becomes of each form of a key -/

theorem settle_empty (value : OptionValue) :
    settle "" value = .error (.invalidOption "" .emptyKey) := rfl

/-- A key with nothing in front of its separator has an empty tag. -/
theorem settle_of_separator (rest : String) (value : OptionValue) :
    settle ("_" ++ rest) value = .error (.invalidOption ("_" ++ rest) .emptyModuleTag) := by
  have hflaw : keyFlaw? ("_" ++ rest) = some .emptyModuleTag := by simp [keyFlaw?]
  rw [settle, hflaw]

/-- The settings of the strategy by their names. -/
theorem Setting.ofKey?_strategy (name : String) : Setting.ofKey? ("cond_" ++ name) =
    if name = "n2" then some .n2
    else if name = "expand_dual_sol" then some .expandDuals
    else none := by
  have hsame (other : String) : "cond_" ++ name = "cond_" ++ other ↔ name = other := by simp
  have hn2 : "cond_" ++ name = "cond_n2" ↔ name = "n2" := hsame "n2"
  have hduals : "cond_" ++ name = "cond_expand_dual_sol" ↔ name = "expand_dual_sol" :=
    hsame "expand_dual_sol"
  -- The keys of the backend open with other letters.
  have hother {key : String} (h : key.toList.head? ≠ some 'c') : "cond_" ++ name ≠ key := by
    rintro rfl
    simp at h
  have hkeys : ∀ key ∈ ["static_reg", "refine_tol", "iter_max", "maxiter", "warm_start"],
      "cond_" ++ name ≠ key := fun key hkey => hother (by revert key; decide)
  simp only [List.forall_mem_cons, List.not_mem_nil] at hkeys
  obtain ⟨hreg, htol, hiter, hmax, hwarm, -⟩ := hkeys
  by_cases h2 : name = "n2"
  · rw [h2]
    rfl
  · by_cases hd : name = "expand_dual_sol"
    · rw [hd]
      rfl
    · simp [Setting.ofKey?, Setting.all, Setting.keys, hn2, hduals, h2, hd, hreg, htol, hiter,
        hmax, hwarm]

/-- The strategy knows its options by what stands behind the tag. -/
theorem settle_strategy {name : String} (hname : name ≠ "") (value : OptionValue) :
    settle ("cond_" ++ name) value = settleAs (Setting.ofKey? ("cond_" ++ name)) name value := by
  have htag : "cond_" ++ name ≠ "cond" := by simp [← String.toList_inj]
  have hflaw : keyFlaw? ("cond_" ++ name) = none := by simp [keyFlaw?, hname, htag]
  have hown : optionName ("cond_" ++ name) = name := by simp [optionName]
  rw [settle, hflaw, hown]

section Other

variable {key : String} (hname : ∀ name, key ≠ "cond_" ++ name)

include hname

/-- The settings of the backend by their keys. -/
theorem Setting.ofKey?_backend : Setting.ofKey? key =
    if key = "static_reg" then some .staticReg
    else if key = "refine_tol" then some .refineTol
    else if key = "iter_max" ∨ key = "maxiter" then some .refineIters
    else if key = "warm_start" then some .warmStart
    else none := by
  have hn2 : key ≠ "cond_n2" := hname "n2"
  have hduals : key ≠ "cond_expand_dual_sol" := hname "expand_dual_sol"
  by_cases hreg : key = "static_reg"
  · rw [hreg]
    rfl
  by_cases htol : key = "refine_tol"
  · rw [htol]
    rfl
  by_cases hiter : key = "iter_max" ∨ key = "maxiter"
  · rcases hiter with rfl | rfl <;> rfl
  by_cases hwarm : key = "warm_start"
  · rw [hwarm]
    rfl
  simp [Setting.ofKey?, Setting.all, Setting.keys, hn2, hduals, hreg, htol, hiter, hwarm]

/-- The backend knows its options by the whole key. -/
theorem settle_backend (hempty : key ≠ "") (hopen : ∀ rest, key ≠ "_" ++ rest)
    (htag : key ≠ "cond") (value : OptionValue) :
    settle key value = settleAs (Setting.ofKey? key) key value := by
  have hhead : key.toList.head? ≠ some '_' := by
    intro h
    obtain ⟨rest, hrest⟩ := List.head?_eq_some_iff.1 h
    exact hopen (String.ofList rest) (by simp [← String.toList_inj, hrest])
  have hseparator : key ≠ "cond_" := hname ""
  have hflaw : keyFlaw? key = none := by simp [keyFlaw?, hempty, hhead, htag, hseparator]
  have hprefix : "cond_".toList.isPrefixOf key.toList = false := by
    rw [Bool.eq_false_iff, ne_eq, List.isPrefixOf_iff_prefix]
    rintro ⟨rest, hrest⟩
    exact hname (String.ofList rest) (by rw [← String.toList_inj, ← hrest]; simp)
  have hown : optionName key = key := by rw [optionName, hprefix, if_neg Bool.false_ne_true]
  rw [settle, hflaw, hown]

end Other

end StageQp
