import StageQp.Proofs.Options.Setting
import StageQp.Proofs.Solver.OptionStore

/-!
# StageQp.Proofs.Solver.OptionSettings

The options of the bundled solver as a record of its settings, each in a word of its own
behind the header.  A call either puts one word into one setting or is refused, and then
no word has changed (`Bundled.outcome_set`); a refresh changes no word either
(`Bundled.outcome_refresh`).  So after any calls every setting has the value that was
accepted for it last (`settings_follow_calls`).
-/

namespace StageQp

open Procedure

/-- The word of stored options that holds the setting. -/
def Setting.place : Setting → Nat
  | n2 => 12
  | expandDuals => 13
  | staticReg => 14
  | refineTol => 15
  | refineIters => 16
  | warmStart => 17

theorem Setting.place_inj {s t : Setting} : s.place = t.place ↔ s = t := by
  cases s <;> cases t <;> decide

/-! ## The options of either module -/

/-- The options with another word for a setting, if it is one of the strategy. -/
def IdentityOptions.withSetting (o : IdentityOptions) : Setting → UInt64 → IdentityOptions
  | .n2, n2 => { o with n2 }
  | .expandDuals, expandDuals => { o with expandDuals }
  | _, _ => o

/-- The options with another word for a setting, if it is one of the backend. -/
def DenseOptions.withSetting (o : DenseOptions) : Setting → UInt64 → DenseOptions
  | .staticReg, word => { o with staticReg := ⟨word⟩ }
  | .refineTol, word => { o with refineTol := ⟨word⟩ }
  | .refineIters, refineIters => { o with refineIters }
  | .warmStart, warmStart => { o with warmStart }
  | _, _ => o

/-- Why a refresh refuses the options for these shapes, if it does. -/
def IdentityOptions.flaw? (o : IdentityOptions) (shapes : ShapePair) : Option Fault :=
  if shapes.full ≠ shapes.condensed then
    some (.invalidDimension (.shapesDiffer .update shapes.full shapes.condensed))
  else if o.n2 ≠ UInt64.ofNat shapes.full.horizon then some (.invalidOption "n2" .droppedStages)
  else none

/-- Why a refresh refuses the options, if it does. -/
def DenseOptions.flaw? (o : DenseOptions) : Option Fault :=
  if ¬(o.staticReg.isFinite ∧ Scalar.le 0 o.staticReg) then
    some (.invalidOption "static_reg" .notFiniteNonNegative)
  else if ¬(o.refineTol.isFinite ∧ Scalar.lt 0 o.refineTol) then
    some (.invalidOption "refine_tol" .notFinitePositive)
  else none

/-- The strategy accepts its options exactly if nothing is to be condensed. -/
theorem IdentityOptions.flaw?_eq_none_iff {o : IdentityOptions} {shapes : ShapePair} :
    o.flaw? shapes = none ↔
      shapes.full = shapes.condensed ∧ o.n2 = UInt64.ofNat shapes.full.horizon := by
  by_cases hshape : shapes.full = shapes.condensed <;> simp [flaw?, hshape]

/-- The backend accepts its options exactly if the shift and the tolerance are in range. -/
theorem DenseOptions.flaw?_eq_none_iff {o : DenseOptions} :
    o.flaw? = none ↔ (o.staticReg.isFinite ∧ Scalar.le 0 o.staticReg) ∧
      o.refineTol.isFinite ∧ Scalar.lt 0 o.refineTol := by
  by_cases hreg : o.staticReg.isFinite ∧ Scalar.le 0 o.staticReg <;> simp [flaw?, hreg]

/-- The answer of a check that found this flaw, or none. -/
def answerTo : Option Fault → Except Stop Unit
  | none => .ok ()
  | some f => .error (.fault f)

@[simp] theorem answerTo_eq_ok_iff {flaw : Option Fault} :
    answerTo flaw = .ok () ↔ flaw = none := by
  cases flaw <;> simp [answerTo]

namespace Identity

/-- The strategy settles the names it has, and refuses all others. -/
theorem outcome_optsSet (name : String) (value : OptionValue) (o : IdentityOptions)
    (j : Journal) :
    outcome (optsSet name value) o j =
      match settleAs (Setting.ofKey? ("cond_" ++ name)) name value with
      | .ok (s, word) => (.ok (), ⟨o.withSetting s word, j⟩)
      | .error f => (.error (.fault f), ⟨o, j⟩) := by
  rw [Setting.ofKey?_strategy]
  by_cases hn2 : name = "n2"
  · simp only [optsSet, if_pos hn2, settleAs, Setting.kind, OptionValue.toWord_eq]
    cases value.word? .nonNegativeInteger <;> rfl
  by_cases hduals : name = "expand_dual_sol"
  · simp only [optsSet, if_neg hn2, if_pos hduals, settleAs, Setting.kind]
    cases value <;> rfl
  simp only [optsSet, if_neg hn2, if_neg hduals, settleAs]
  rfl

/-- Options are checked and stay as they are. -/
theorem outcome_optsUpdate (shapes : ShapePair) (o : IdentityOptions) (j : Journal) :
    outcome (optsUpdate shapes) o j = (answerTo (o.flaw? shapes), ⟨o, j⟩) := by
  obtain ⟨full, condensed⟩ := shapes
  by_cases hshape : full = condensed
  · subst hshape
    by_cases hn2 : o.n2 = UInt64.ofNat full.horizon <;>
      simp [optsUpdate, sameShape, outcome_bind, IdentityOptions.flaw?, hn2, answerTo]
  · simp [optsUpdate, sameShape, outcome_bind, IdentityOptions.flaw?, hshape, answerTo]

end Identity

namespace Dense

/-- The backend settles the keys it has, and refuses all others. -/
theorem outcome_optsSet {key : String} (hname : ∀ name, key ≠ "cond_" ++ name)
    (value : OptionValue) (o : DenseOptions) (j : Journal) :
    outcome (optsSet key value) o j =
      match settleAs (Setting.ofKey? key) key value with
      | .ok (s, word) => (.ok (), ⟨o.withSetting s word, j⟩)
      | .error f => (.error (.fault f), ⟨o, j⟩) := by
  rw [Setting.ofKey?_backend hname]
  by_cases hreg : key = "static_reg"
  · simp only [optsSet, if_pos hreg, settleAs, Setting.kind, OptionValue.toFloat_eq]
    cases value.word? .number <;> rfl
  by_cases htol : key = "refine_tol"
  · simp only [optsSet, if_neg hreg, if_pos htol, settleAs, Setting.kind,
      OptionValue.toFloat_eq]
    cases value.word? .number <;> rfl
  by_cases hiter : key = "iter_max" ∨ key = "maxiter"
  · simp only [optsSet, if_neg hreg, if_neg htol, if_pos hiter, settleAs, Setting.kind,
      OptionValue.toWord_eq]
    cases value.word? .nonNegativeInteger <;> rfl
  by_cases hwarm : key = "warm_start"
  · simp only [optsSet, if_neg hreg, if_neg htol, if_neg hiter, if_pos hwarm, settleAs,
      Setting.kind]
    cases value <;> rfl
  simp only [optsSet, if_neg hreg, if_neg htol, if_neg hiter, if_neg hwarm, settleAs]
  rfl

/-- Options are checked and stay as they are. -/
theorem outcome_optsUpdate (o : DenseOptions) (j : Journal) :
    outcome optsUpdate o j = (answerTo o.flaw?, ⟨o, j⟩) := by
  simp only [optsUpdate, DenseOptions.flaw?, outcome_bind, outcome_fetch, outcome_ite,
    ← Bool.and_eq_true]
  by_cases hreg : o.staticReg.isFinite && Scalar.le 0 o.staticReg
  · by_cases htol : o.refineTol.isFinite && Scalar.lt 0 o.refineTol <;>
      simp only [hreg, htol] <;> rfl
  · simp only [hreg]
    rfl

end Dense

namespace OptionStore

/-! ## The stored words -/

def wordOf (o : OptionStore) (s : Setting) : UInt64 := o.words.getD s.place 0

/-- The store with another word for a setting. -/
def withWord (o : OptionStore) (s : Setting) (word : UInt64) : OptionStore :=
  { o with words := o.words.setIfInBounds s.place word }

def strategyRecord (o : OptionStore) : IdentityOptions := ⟨o.wordOf .n2, o.wordOf .expandDuals⟩

def backendRecord (o : OptionStore) : DenseOptions :=
  ⟨⟨o.wordOf .staticReg⟩, ⟨o.wordOf .refineTol⟩, o.wordOf .refineIters, o.wordOf .warmStart⟩

/-- What becomes of a call that settles on a word for a setting, or on a fault. -/
def answer (o : OptionStore) (settled : Except Fault (Setting × UInt64)) (j : Journal) :
    Except Stop Unit × Noted OptionStore :=
  match settled with
  | .ok (s, word) => (.ok (), ⟨o.withWord s word, j⟩)
  | .error f => (.error (.fault f), ⟨o, j⟩)

/-! ## Blocks that hold a record -/

/-- The block holds the words of a record, and nothing else. -/
structure Stores {ρ : Type} [Record ρ] (o : OptionStore) (b : Block) (write : ρ → List UInt64)
    (record : ρ) : Prop where
  fits : b.Fits o.words
  len_eq : b.len = Record.bytes ρ
  get_eq : Record.get (b.part o.words) 0 = record
  part_eq : b.part o.words = (write record).toArray
  setRecords_eq (other : ρ) :
    b.setRecords o.words #[other] = b.put o.words (write other).toArray

namespace Stores

variable {ρ : Type} [Record ρ] {o : OptionStore} {b : Block} {write : ρ → List UInt64} {record : ρ}

/-- Putting back the record changes nothing. -/
theorem setRecords_self (h : o.Stores b write record) :
    b.setRecords o.words #[record] = o.words := by
  rw [h.setRecords_eq, ← h.part_eq, Block.put_part]

/-- Putting back the record with another word changes that word. -/
theorem setRecords_word (h : o.Stores b write record) {other : ρ} {i : Nat} {word : UInt64}
    (hi : i < b.span / 8)
    (hother : (write other).toArray = (write record).toArray.setIfInBounds i word) :
    b.setRecords o.words #[other] = o.words.setIfInBounds (b.firstWord + i) word := by
  rw [h.setRecords_eq, hother, ← h.part_eq, Block.put_setIfInBounds h.fits hi]

/-- A procedure runs on the record, which is put back as the procedure leaves it. -/
theorem outcome_edit {α : Type} (h : o.Stores b write record) (act : Procedure ρ α) (j : Journal) :
    outcome (edit ρ b act) o j =
      let r := outcome act record j
      (r.1, ⟨{ o with words := b.setRecords o.words #[r.2.value] }, r.2.journal⟩) := by
  simp only [edit, outcome_bind, outcome_fetch, readAt_eq_ok h.fits h.len_eq, outcome_check_ok,
    outcome_focus, h.get_eq]

/-- A procedure that leaves the record as it is leaves the store as it is. -/
theorem outcome_edit_self {α : Type} (h : o.Stores b write record) {act : Procedure ρ α}
    {r : Except Stop α} {j k : Journal} (hact : outcome act record j = (r, ⟨record, k⟩)) :
    outcome (edit ρ b act) o j = (r, ⟨o, k⟩) := by
  simp only [h.outcome_edit, hact, h.setRecords_self]

/-- A procedure that settles on a word for a setting, or on a fault. -/
theorem outcome_edit_settled (h : o.Stores b write record) {act : Procedure ρ Unit}
    {settled : Except Fault (Setting × UInt64)} {withSetting : Setting → UInt64 → ρ} {j : Journal}
    (hact : outcome act record j =
      match settled with
      | .ok (s, word) => (.ok (), ⟨withSetting s word, j⟩)
      | .error f => (.error (.fault f), ⟨record, j⟩))
    (hset : ∀ s word, settled = .ok (s, word) →
      b.setRecords o.words #[withSetting s word] = o.words.setIfInBounds s.place word) :
    outcome (edit ρ b act) o j = o.answer settled j := by
  cases settled with
  | error f => exact h.outcome_edit_self hact
  | ok settled =>
      obtain ⟨s, word⟩ := settled
      simp only [h.outcome_edit, hact, hset s word rfl, answer, withWord]

end Stores

namespace Bundled

variable {o : OptionStore} (ho : o.Bundled)

include ho

theorem withWord_bundled (s : Setting) (word : UInt64) : (o.withWord s word).Bundled where
  strategy_eq := ho.strategy_eq
  backend_eq := ho.backend_eq
  size_eq := Eq.trans (by simp [withWord]) ho.size_eq

theorem stores_strategy : o.Stores o.strategy IdentityOptions.toWords o.strategyRecord := by
  have hpart : o.strategy.part o.words = o.strategyRecord.toWords.toArray := by
    rw [Block.part_eq_map ho.readable.strategy_fits, ho.strategy_eq]
    rfl
  exact {
    fits := ho.readable.strategy_fits
    len_eq := ho.readable.strategy_len
    get_eq := by
      rw [hpart]
      rfl
    part_eq := hpart
    setRecords_eq := fun _ => congrArg (o.strategy.put o.words) (Words.paste_zero (by
      rw [hpart]
      rfl)) }

theorem stores_backend : o.Stores o.backend DenseOptions.toWords o.backendRecord := by
  have hpart : o.backend.part o.words = o.backendRecord.toWords.toArray := by
    rw [Block.part_eq_map ho.readable.backend_fits, ho.backend_eq]
    rfl
  exact {
    fits := ho.readable.backend_fits
    len_eq := ho.readable.backend_len
    get_eq := by
      rw [hpart]
      rfl
    part_eq := hpart
    setRecords_eq := fun _ => congrArg (o.backend.put o.words) (Words.paste_zero (by
      rw [hpart]
      rfl)) }

/-- Another word for a setting of the strategy is another word of the store. -/
theorem setRecords_strategy {s : Setting} (hs : s = .n2 ∨ s = .expandDuals) (word : UInt64) :
    o.strategy.setRecords o.words #[o.strategyRecord.withSetting s word] =
      o.words.setIfInBounds s.place word := by
  have hi : s.place - 12 < o.strategy.span / 8 ∧
      o.strategy.firstWord + (s.place - 12) = s.place := by
    rw [ho.strategy_eq]
    rcases hs with rfl | rfl <;> decide
  rw [ho.stores_strategy.setRecords_word hi.1, hi.2]
  rcases hs with rfl | rfl <;> rfl

/-- Another word for a setting of the backend is another word of the store. -/
theorem setRecords_backend {s : Setting} (hs : ¬(s = .n2 ∨ s = .expandDuals)) (word : UInt64) :
    o.backend.setRecords o.words #[o.backendRecord.withSetting s word] =
      o.words.setIfInBounds s.place word := by
  have hi : s.place - 14 < o.backend.span / 8 ∧
      o.backend.firstWord + (s.place - 14) = s.place := by
    rw [ho.backend_eq]
    revert hs
    cases s <;> decide
  rw [ho.stores_backend.setRecords_word hi.1, hi.2]
  cases s with
  | n2 => exact absurd (.inl rfl) hs
  | expandDuals => exact absurd (.inr rfl) hs
  | _ => rfl

/-! ## Calls -/

/-- The strategy takes the options under its tag. -/
theorem outcome_set_strategy (env : Environment) {name : String} (hname : name ≠ "")
    (value : OptionValue) (j : Journal) :
    ∃ j', outcome (set (Solver.bundled env) ("cond_" ++ name) value) o j =
      o.answer (settleAs (Setting.ofKey? ("cond_" ++ name)) name value) j' := by
  have hroute : (Solver.bundled env).router.route ("cond_" ++ name) = .ok (.strategy name) :=
    Router.route_strategy (r := ⟨"cond"⟩) (by decide) (by decide) hname
  let noted := j.note (.optionRouted ("cond_" ++ name) value "cond" (.strategy name))
  have hset : outcome (set (Solver.bundled env) ("cond_" ++ name) value) o j =
      outcome (edit IdentityOptions o.strategy (Identity.optsSet name value)) o noted := by
    simp only [set, hroute, outcome_bind, outcome_check_ok, outcome_note, outcome_fetch]
    rfl
  refine ⟨noted, hset.trans ?_⟩
  apply ho.stores_strategy.outcome_edit_settled (Identity.outcome_optsSet name value _ noted)
  intro s word hsettled
  have hfound := (settleAs_eq_ok_iff.1 hsettled).1
  rw [Setting.ofKey?_strategy] at hfound
  have hs : s = .n2 ∨ s = .expandDuals := by
    split at hfound
    · exact .inl (Option.some.inj hfound).symm
    · split at hfound
      · exact .inr (Option.some.inj hfound).symm
      · cases hfound
  exact ho.setRecords_strategy hs word

/-- The backend takes the options under all keys that are well-formed and not the
strategy's. -/
theorem outcome_set_backend (env : Environment) {key : String} (hempty : key ≠ "")
    (hopen : ∀ rest, key ≠ "_" ++ rest) (htag : key ≠ "cond")
    (hname : ∀ name, key ≠ "cond_" ++ name) (value : OptionValue) (j : Journal) :
    ∃ j', outcome (set (Solver.bundled env) key value) o j =
      o.answer (settleAs (Setting.ofKey? key) key value) j' := by
  have hroute : (Solver.bundled env).router.route key = .ok (.backend key) :=
    Router.route_of_other hempty hopen htag hname
  let noted := j.note (.optionRouted key value "cond" (.backend key))
  have hset : outcome (set (Solver.bundled env) key value) o j =
      outcome (edit DenseOptions o.backend (Dense.optsSet key value)) o noted := by
    simp only [set, hroute, outcome_bind, outcome_check_ok, outcome_note, outcome_fetch]
    rfl
  refine ⟨noted, hset.trans ?_⟩
  apply ho.stores_backend.outcome_edit_settled (Dense.outcome_optsSet hname value _ noted)
  intro s word hsettled
  have hkey := Setting.ofKey?_eq_some_iff.1 (settleAs_eq_ok_iff.1 hsettled).1
  have hs : ¬(s = .n2 ∨ s = .expandDuals) := by
    rintro (rfl | rfl)
    · exact hname "n2" (List.mem_singleton.1 hkey)
    · exact hname "expand_dual_sol" (List.mem_singleton.1 hkey)
  exact ho.setRecords_backend hs word

/-- A call puts a word into a setting, or is refused and changes nothing. -/
theorem outcome_set (env : Environment) (key : String) (value : OptionValue) (j : Journal) :
    ∃ j', outcome (set (Solver.bundled env) key value) o j =
      o.answer (settle key value) j' := by
  -- A key of bad form does not get past the router.
  have hrefused {f : Fault} (hroute : Router.route ⟨"cond"⟩ key = .error f)
      (hsettle : settle key value = .error f) :
      ∃ j', outcome (set (Solver.bundled env) key value) o j = o.answer (settle key value) j' := by
    have hbundled : (Solver.bundled env).router.route key = .error f := hroute
    refine ⟨j, ?_⟩
    simp only [set, hbundled, outcome_bind, outcome_check_error, hsettle, answer]
  by_cases hempty : key = ""
  · subst hempty
    exact hrefused Router.route_empty (settle_empty value)
  by_cases hopen : ∃ rest, key = "_" ++ rest
  · obtain ⟨rest, rfl⟩ := hopen
    exact hrefused (Router.route_of_separator rest) (settle_of_separator rest value)
  by_cases htag : key = "cond"
  · subst htag
    exact hrefused (Router.route_tag (r := ⟨"cond"⟩) (by decide) (by decide)) rfl
  by_cases hname : ∃ name, key = "cond_" ++ name
  · obtain ⟨name, rfl⟩ := hname
    by_cases hname : name = ""
    · subst hname
      exact hrefused (Router.route_tag_separator (r := ⟨"cond"⟩) (by decide) (by decide)) rfl
    · rw [settle_strategy hname]
      exact ho.outcome_set_strategy env hname value j
  · rw [not_exists] at hopen hname
    rw [settle_backend hname hempty hopen htag]
    exact ho.outcome_set_backend env hempty hopen htag hname value j

/-- A refresh finds the first flaw of the settings, and changes no word. -/
theorem outcome_refresh (env : Environment) (shapes : ShapePair) (j : Journal) :
    outcome (refresh (Solver.bundled env) shapes) o j =
      (answerTo ((o.strategyRecord.flaw? shapes).or o.backendRecord.flaw?), ⟨o, j⟩) := by
  have hstrategy : outcome (edit IdentityOptions o.strategy (Identity.optsUpdate shapes)) o j =
      (answerTo (o.strategyRecord.flaw? shapes), ⟨o, j⟩) :=
    ho.stores_strategy.outcome_edit_self (Identity.outcome_optsUpdate shapes _ j)
  have hbackend : outcome (edit DenseOptions o.backend Dense.optsUpdate) o j =
      (answerTo o.backendRecord.flaw?, ⟨o, j⟩) :=
    ho.stores_backend.outcome_edit_self (Dense.outcome_optsUpdate _ j)
  simp only [refresh, outcome_bind, outcome_fetch]
  rw [show (Solver.bundled env).strategy.optsUpdate shapes = Identity.optsUpdate shapes from rfl,
    hstrategy]
  cases o.strategyRecord.flaw? shapes with
  | none => exact hbackend
  | some f => rfl

end Bundled

end OptionStore

/-! ## Sequences of calls -/

/-- A call that sets an option. -/
structure SetCall where
  key : String
  value : OptionValue
  journal : Journal := {}

namespace SetCall

open OptionStore

def run (env : Environment) (c : SetCall) (o : OptionStore) :
    Except Stop Unit × Noted OptionStore :=
  outcome (set (Solver.bundled env) c.key c.value) o c.journal

def after (env : Environment) (o : OptionStore) (c : SetCall) : OptionStore :=
  (c.run env o).2.value

/-- The word that the call is accepted with for a setting, if it is for that setting. -/
def wordFor? (c : SetCall) (s : Setting) : Option UInt64 :=
  match settle c.key c.value with
  | .ok (t, word) => if t = s then some word else none
  | .error _ => none

end SetCall

namespace OptionStore

/-- Two settings may be stored in either order. -/
theorem withWord_comm {s t : Setting} (h : s ≠ t) (o : OptionStore) (v w : UInt64) :
    (o.withWord s v).withWord t w = (o.withWord t w).withWord s v := by
  simp only [withWord, Array.setIfInBounds_comm v w (mt Setting.place_inj.1 h)]

namespace Bundled

variable {env : Environment} {o : OptionStore}

/-- A setting that is stored is read back, and no other has changed. -/
theorem wordOf_withWord (ho : o.Bundled) (s t : Setting) (word : UInt64) :
    (o.withWord s word).wordOf t = if s = t then word else o.wordOf t := by
  have hplace : t.place < o.words.size := by
    rw [ho.size_eq]
    cases t <;> decide
  simp only [wordOf, withWord, Array.getD_eq_getD_getElem?,
    Array.getElem?_setIfInBounds, Setting.place_inj]
  by_cases hst : s = t <;> simp [hst, hplace]

theorem run_eq (ho : o.Bundled) (env : Environment) (c : SetCall) :
    ∃ j, c.run env o = o.answer (settle c.key c.value) j :=
  ho.outcome_set env c.key c.value c.journal

/-- A call is accepted if its key is one of a setting, and its value of the kind that the
setting expects. -/
theorem run_eq_ok_iff (ho : o.Bundled) (env : Environment) (c : SetCall) :
    (c.run env o).1 = .ok () ↔ ∃ s : Setting, c.key ∈ s.keys ∧ (c.value.word? s.kind).isSome := by
  obtain ⟨j, hrun⟩ := ho.run_eq env c
  rw [hrun]
  constructor
  · intro h
    cases hsettled : settle c.key c.value with
    | error f =>
        rw [hsettled] at h
        cases h
    | ok settled =>
        obtain ⟨hkey, hword⟩ := settle_eq_ok_iff.1 hsettled
        exact ⟨settled.1, hkey, by simp [hword]⟩
  · rintro ⟨s, hkey, hword⟩
    obtain ⟨word, hword⟩ := Option.isSome_iff_exists.1 hword
    rw [settle_eq_ok_iff.2 ⟨hkey, hword⟩]
    rfl

/-- A call that settles stores its word; any other leaves the options. -/
theorem after_eq (ho : o.Bundled) (env : Environment) (c : SetCall) :
    SetCall.after env o c =
      match settle c.key c.value with
      | .ok (s, word) => o.withWord s word
      | .error _ => o := by
  obtain ⟨j, hrun⟩ := ho.run_eq env c
  rw [SetCall.after, hrun]
  cases settle c.key c.value <;> rfl

/-- A call changes the setting that it is for, and nothing else. -/
theorem settings_after (ho : o.Bundled) (env : Environment) (c : SetCall) :
    (SetCall.after env o c).Bundled ∧
      (∀ s, (SetCall.after env o c).wordOf s = (c.wordFor? s).getD (o.wordOf s)) ∧
      ∀ i < 12, (SetCall.after env o c).words[i]? = o.words[i]? := by
  rw [ho.after_eq]
  simp only [SetCall.wordFor?]
  cases settle c.key c.value with
  | error f => exact ⟨ho, fun s => rfl, fun i _ => rfl⟩
  | ok settled =>
      obtain ⟨t, word⟩ := settled
      have hplace : 12 ≤ t.place := by cases t <;> decide
      refine ⟨ho.withWord_bundled t word, fun s => ?_, fun i hi => ?_⟩
      · by_cases hts : t = s <;> simp [ho.wordOf_withWord, hts]
      · exact Array.getElem?_setIfInBounds_ne (by omega)

/-- Calls that are not accepted for the same setting may be made in either order. -/
theorem after_comm (ho : o.Bundled) (env : Environment) {b c : SetCall}
    (h : ∀ s, b.wordFor? s = none ∨ c.wordFor? s = none) :
    SetCall.after env (SetCall.after env o b) c = SetCall.after env (SetCall.after env o c) b := by
  rw [(ho.settings_after env b).1.after_eq, (ho.settings_after env c).1.after_eq, ho.after_eq,
    ho.after_eq]
  simp only [SetCall.wordFor?] at h
  cases hb : settle b.key b.value with
  | error f => rfl
  | ok first =>
      cases hc : settle c.key c.value with
      | error f => rfl
      | ok second =>
          obtain ⟨s, v⟩ := first
          obtain ⟨t, w⟩ := second
          have hst : s ≠ t := by
            rintro rfl
            simpa [hb, hc] using h s
          exact withWord_comm hst o v w

/-- After a run of calls a setting has the word that was accepted for it last. -/
theorem settings_run (ho : o.Bundled) (env : Environment) (calls : List SetCall) :
    (calls.foldl (SetCall.after env) o).Bundled ∧
      (∀ s, (calls.foldl (SetCall.after env) o).wordOf s =
        (calls.reverse.findSome? (·.wordFor? s)).getD (o.wordOf s)) ∧
      ∀ i < 12, (calls.foldl (SetCall.after env) o).words[i]? = o.words[i]? := by
  induction calls generalizing o with
  | nil => exact ⟨ho, fun s => rfl, fun i _ => rfl⟩
  | cons c calls ih =>
      obtain ⟨hafter, hword, hheader⟩ := ho.settings_after env c
      obtain ⟨hrun, hwords, hheaders⟩ := ih hafter
      refine ⟨hrun, fun s => ?_, fun i hi => (hheaders i hi).trans (hheader i hi)⟩
      rw [List.foldl_cons, hwords, hword, List.reverse_cons, List.findSome?_append]
      cases calls.reverse.findSome? (·.wordFor? s) <;> cases hc : c.wordFor? s <;> simp [hc]

end Bundled

/-- Whatever calls are made on stored options, every setting is the one that was accepted
last, and the words of the header are as they were.  A call is accepted exactly if its key
is one of a setting and its value of the kind expected there, and then puts a word into
that setting; every other call changes nothing.  Calls for different settings may be
exchanged.  A refresh changes nothing, and accepts the options of a shape exactly if they
ask for its horizon and the shift and the tolerance are in their ranges. -/
theorem settings_follow_calls {o : OptionStore} (ho : o.Bundled) (env : Environment)
    (calls : List SetCall) :
    let e := calls.foldl (SetCall.after env) o
    (e.strategyOptions IdentityOptions = .ok e.strategyRecord ∧
      e.backendOptions DenseOptions = .ok e.backendRecord ∧
      (∀ s, e.wordOf s = (calls.reverse.findSome? (·.wordFor? s)).getD (o.wordOf s)) ∧
      ∀ i < 12, e.words[i]? = o.words[i]?) ∧
    (∀ c : SetCall, ((c.run env e).1 = .ok () ↔
        ∃ s : Setting, c.key ∈ s.keys ∧ (c.value.word? s.kind).isSome) ∧
      ∃ j, c.run env e = e.answer (settle c.key c.value) j) ∧
    (∀ b c : SetCall, (∀ s, b.wordFor? s = none ∨ c.wordFor? s = none) →
      SetCall.after env (SetCall.after env e b) c =
        SetCall.after env (SetCall.after env e c) b) ∧
    (∀ shapes j, (outcome (refresh (Solver.bundled env) shapes) e j).2.value = e) ∧
    ∀ shape j, (outcome (refresh (Solver.bundled env) ⟨shape, shape⟩) e j).1 = .ok () ↔
      e.strategyRecord.n2 = UInt64.ofNat shape.horizon ∧
      (e.backendRecord.staticReg.isFinite ∧ Scalar.le 0 e.backendRecord.staticReg) ∧
      e.backendRecord.refineTol.isFinite ∧ Scalar.lt 0 e.backendRecord.refineTol := by
  intro e
  have he : e.Bundled := (ho.settings_run env calls).1
  obtain ⟨-, hwords, hheader⟩ := ho.settings_run env calls
  have hstrategy : e.strategyOptions IdentityOptions = .ok e.strategyRecord := by
    rw [he.readable.strategyOptions_eq, he.stores_strategy.get_eq]
  have hbackend : e.backendOptions DenseOptions = .ok e.backendRecord := by
    rw [he.readable.backendOptions_eq, he.stores_backend.get_eq]
  refine ⟨⟨hstrategy, hbackend, hwords, hheader⟩,
    fun c => ⟨he.run_eq_ok_iff env c, he.run_eq env c⟩, fun b c => he.after_comm env,
    fun shapes j => by rw [he.outcome_refresh], fun shape j => ?_⟩
  rw [he.outcome_refresh]
  simp [IdentityOptions.flaw?_eq_none_iff, DenseOptions.flaw?_eq_none_iff]

/-- Of two values for one setting, under either of its keys, the second counts; a value of
another kind and a key without a name do not. -/
theorem settings_follow_calls_twoKeys :
    ∃ o s, outcome (assign (.bundled {}) ⟨.lateState, .lateState⟩
        (.zeroed (size (.bundled {}) ⟨.lateState, .lateState⟩))) () {} = (.ok o, s) ∧
      let e := [⟨"maxiter", .int 7, {}⟩, ⟨"iter_max", .int 3, {}⟩, ⟨"maxiter", .bool true, {}⟩,
        ⟨"cond_", .int 5, {}⟩].foldl (SetCall.after {}) o
      e.wordOf .refineIters = 3 ∧ e.wordOf .n2 = o.wordOf .n2 ∧
        ∀ shapes j, (outcome (refresh (Solver.bundled {}) shapes) e j).2.value = e := by
  have hbytes : Words.byteSize (.zeroed (size (.bundled {}) ⟨.lateState, .lateState⟩)) =
      size (.bundled {}) ⟨.lateState, .lateState⟩ := by decide
  obtain ⟨o, ho, -⟩ := outcome_assign hbytes () {}
  obtain ⟨⟨-, -, hwords, -⟩, -, -, hrefresh, -⟩ :=
    settings_follow_calls (bundled_of_assign ho) {} [⟨"maxiter", .int 7, {}⟩,
      ⟨"iter_max", .int 3, {}⟩, ⟨"maxiter", .bool true, {}⟩, ⟨"cond_", .int 5, {}⟩]
  exact ⟨o, _, ho, (hwords _).trans rfl, (hwords _).trans rfl, hrefresh⟩

end OptionStore

end StageQp
