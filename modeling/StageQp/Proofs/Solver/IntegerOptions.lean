import StageQp.Proofs.Backend.Refined
import StageQp.Proofs.Options.Value
import StageQp.Proofs.Solver.OptionSettings

/-!
# StageQp.Proofs.Solver.IntegerOptions

The numbers that the integer settings are handed, and what is kept of them: the number of
stages, and the number of corrections.  A setting keeps the number that it was handed
last, as long as that number is one of a word; of a larger one it keeps the largest word
(`Bundled.wordOf_run_of_lastGiven`), and a refresh has nothing to say to it.

A warm start is allowed one correction more than the options say.  From the largest word
that count wraps to zero (`refineSteps_warm`), and then a warm solve gives out the solution
that it started from, whatever the program has become (`unrefined_of_outcome`).
`integers_kept` is both, for any calls on options that are laid out.
-/

namespace StageQp

open Procedure
open OptionValue (Denotes largestWord)

/-! ## Numbers that are handed to settings -/

namespace SetCall

/-- The call hands a natural number to the setting, under one of its keys. -/
def Gives (c : SetCall) (s : Setting) (n : Nat) : Prop := c.key ∈ s.keys ∧ c.value.Denotes n

/-- The natural number that the calls hand to the setting last. -/
def LastGiven (calls : List SetCall) (s : Setting) (n : Nat) : Prop :=
  ∃ before c after, calls = before ++ c :: after ∧ c.Gives s n ∧
    ∀ d ∈ after, ∀ m, ¬d.Gives s m

/-- A call has a word for a setting if it names it with a value of its kind. -/
theorem wordFor?_eq_some_iff {c : SetCall} {s : Setting} {word : UInt64} :
    c.wordFor? s = some word ↔ c.key ∈ s.keys ∧ c.value.word? s.kind = some word := by
  rw [← settle_eq_ok_iff, wordFor?]
  cases settle c.key c.value with
  | error f => simp
  | ok settled =>
      obtain ⟨t, v⟩ := settled
      by_cases hts : t = s <;> simp [hts]

section Integer

variable {c : SetCall} {s : Setting} (hs : s.kind = .nonNegativeInteger)

include hs

/-- A call that gives a number has that number for the setting, or the largest word. -/
theorem Gives.wordFor?_eq {n : Nat} (h : c.Gives s n) :
    c.wordFor? s = some (UInt64.ofNat (min n largestWord)) := by
  have hword := h.2.toWord_eq ""
  rw [wordFor?_eq_some_iff, hs]
  refine ⟨h.1, ?_⟩
  rw [OptionValue.word?, hword]
  rfl

theorem wordFor?_eq_none (h : ∀ n, ¬c.Gives s n) : c.wordFor? s = none := by
  refine Option.eq_none_iff_forall_ne_some.2 fun word hword => ?_
  rw [wordFor?_eq_some_iff, hs] at hword
  obtain ⟨hkey, hword⟩ := hword
  by_cases hn : ∃ n, c.value.Denotes n
  · obtain ⟨n, hn⟩ := hn
    exact h n ⟨hkey, hn⟩
  · have hrefused := OptionValue.toWord_of_not_denotes (not_exists.1 hn) ""
    rw [OptionValue.word?, hrefused] at hword
    cases hword

theorem findSome?_wordFor?_eq_none {calls : List SetCall}
    (h : ∀ c ∈ calls, ∀ n, ¬c.Gives s n) : calls.reverse.findSome? (·.wordFor? s) = none := by
  rw [List.findSome?_eq_none_iff]
  intro c hc
  exact wordFor?_eq_none hs (h c (List.mem_reverse.1 hc))

/-- The last call that gives a number has the last word. -/
theorem LastGiven.findSome?_wordFor?_eq {calls : List SetCall} {n : Nat}
    (h : LastGiven calls s n) :
    calls.reverse.findSome? (·.wordFor? s) = some (UInt64.ofNat (min n largestWord)) := by
  obtain ⟨before, c, after, rfl, hc, hafter⟩ := h
  rw [List.reverse_append, List.reverse_cons, List.append_assoc, List.findSome?_append,
    findSome?_wordFor?_eq_none hs hafter, Option.none_or, List.singleton_append,
    List.findSome?_cons, hc.wordFor?_eq hs]

end Integer

end SetCall

namespace Dense

/-! ## The corrections of a warm start -/

variable {qp : QpInput} {o : DenseOptions} {m : DenseMemory}

/-- A warm start is allowed one correction more, but from the largest word none at all. -/
theorem refineSteps_warm (o : DenseOptions) : (settings o true).refineSteps =
    if o.refineIters.toNat < largestWord then o.refineIters.toNat + 1 else 0 := by
  by_cases h : o.refineIters.toNat < largestWord
  · rw [if_pos h, refineSteps_settings h, if_pos rfl]
  · have hlast : o.refineIters.toNat = 2 ^ 64 - 1 := by
      have hlt := o.refineIters.toNat_lt
      unfold largestWord at h
      omega
    show (o.refineIters + 1).toNat = _
    rw [if_neg h, UInt64.toNat_add, hlast]
    rfl

/-- Without corrections a warm start gives out the solution that it started from. -/
theorem unrefined_of_outcome {shape : Shape} {clock : BackendReadings}
    {desk after : Desk QpOutput} {j j' : Journal} {status : Status}
    (hm : m = (carveMemory shape).1) (hv : desk.record.Valid)
    (hsteps : (settings o true).refineSteps = 0) (hwarm : startsWarm o m desk.region = true)
    (hrun : outcome (evaluate qp o m clock) desk j = (.ok status, ⟨after, j'⟩))
    (hs : status ≠ .qpFailure) :
    after.record.info.numIter = 0 ∧ kept m after.region = kept m desk.region := by
  obtain ⟨-, hq, hregion, -, it, record, hr, hscatter, hrecord, hafter, -⟩ :=
    of_outcome_evaluate hrun hs
  have hit : it = (systemOf qp m.order).iterate (kept m desk.region) 0 := by
    obtain ⟨-, href⟩ := of_attempted_result hr
    rw [firstIterate, hwarm, hsteps, if_pos rfl] at href
    exact href.eq_of_solves_eq (Nat.le_antisymm href.solves_le href.solves_ge)
  constructor
  · rw [hrecord, StageData.info_setInfo (getD_of_scatter? hv.clear hscatter).1, numIter_infoOf,
      hit]
    rfl
  · rw [hafter, kept_regionAfter (fitted_of_checkSplit hm hregion) hq hr, hit]
    rfl

end Dense

namespace OptionStore

open SetCall (LastGiven)

namespace Bundled

variable {o : OptionStore} {s : Setting} {calls : List SetCall}

/-- After a run of calls a setting has the word that the last call with one has for it. -/
theorem wordOf_run_of_found (ho : o.Bundled) (env : Environment) {word : UInt64}
    (h : calls.reverse.findSome? (·.wordFor? s) = some word) :
    (calls.foldl (SetCall.after env) o).wordOf s = word := by
  rw [(ho.settings_run env _).2.1 s, h]
  rfl

/-- A setting keeps the number that it was handed last, or the largest word. -/
theorem wordOf_run_of_lastGiven (ho : o.Bundled) (env : Environment)
    (hs : s.kind = .nonNegativeInteger) {n : Nat} (h : LastGiven calls s n) :
    ((calls.foldl (SetCall.after env) o).wordOf s).toNat = min n largestWord := by
  rw [ho.wordOf_run_of_found env (h.findSome?_wordFor?_eq hs)]
  exact UInt64.toNat_ofNat_of_lt' (OptionValue.min_largestWord_lt n)

/-- A setting that no number was handed to stays as it was. -/
theorem wordOf_run_of_not_given (ho : o.Bundled) (env : Environment)
    (hs : s.kind = .nonNegativeInteger) (h : ∀ c ∈ calls, ∀ n, ¬c.Gives s n) :
    (calls.foldl (SetCall.after env) o).wordOf s = o.wordOf s := by
  rw [(ho.settings_run env _).2.1 s, SetCall.findSome?_wordFor?_eq_none hs h]
  rfl

/-- A refresh does not look at the number of corrections. -/
theorem outcome_refresh_withWord (ho : o.Bundled) (env : Environment) (word : UInt64)
    (shapes : ShapePair) (j : Journal) :
    (outcome (refresh (Solver.bundled env) shapes) (o.withWord .refineIters word) j).1 =
      (outcome (refresh (Solver.bundled env) shapes) o j).1 := by
  have hother (t : Setting) (ht : t ≠ .refineIters) :
      (o.withWord .refineIters word).wordOf t = o.wordOf t := by
    rw [ho.wordOf_withWord, if_neg ht.symm]
  have hstrategy : (o.withWord .refineIters word).strategyRecord = o.strategyRecord := by
    rw [strategyRecord, strategyRecord, hother _ (by decide), hother _ (by decide)]
  have hbackend : (o.withWord .refineIters word).backendRecord =
      { o.backendRecord with
        refineIters := (o.withWord .refineIters word).wordOf .refineIters } := by
    simp only [backendRecord, hother .staticReg (by decide), hother .refineTol (by decide),
      hother .warmStart (by decide)]
  rw [(ho.withWord_bundled _ _).outcome_refresh, ho.outcome_refresh, hstrategy, hbackend]
  rfl

end Bundled

/-! ## What is kept of the numbers -/

/-- What the options `e` have kept of the numbers that the calls handed to `o`. -/
structure IntegersKept (env : Environment) (o : OptionStore) (calls : List SetCall)
    (e : OptionStore) : Prop where
  strategy_eq : e.strategyOptions IdentityOptions = .ok e.strategyRecord
  backend_eq : e.backendOptions DenseOptions = .ok e.backendRecord
  given (s : Setting) (hs : s.kind = .nonNegativeInteger) (n : Nat) (h : LastGiven calls s n) :
    (e.wordOf s).toNat = min n largestWord
  not_given (s : Setting) (hs : s.kind = .nonNegativeInteger)
    (h : ∀ c ∈ calls, ∀ n, ¬c.Gives s n) : e.wordOf s = o.wordOf s
  /-- A refresh answers the same, whatever the number of corrections is. -/
  refresh_eq (word : UInt64) (shapes : ShapePair) (j : Journal) :
    (outcome (refresh (Solver.bundled env) shapes) (e.withWord .refineIters word) j).1 =
      (outcome (refresh (Solver.bundled env) shapes) e j).1
  steps_eq (n : Nat) (h : LastGiven calls .refineIters n) :
    (Dense.settings e.backendRecord true).refineSteps = if n < largestWord then n + 1 else 0
  /-- After the largest word, or more, a warm solve leaves the solution as it was. -/
  unrefined (n : Nat) (h : LastGiven calls .refineIters n) (hn : largestWord ≤ n)
    (qp : QpInput) (shape : Shape) (clock : BackendReadings) (desk after : Desk QpOutput)
    (j j' : Journal) (status : Status) (hv : desk.record.Valid)
    (hwarm : Dense.startsWarm e.backendRecord (Dense.carveMemory shape).1 desk.region = true)
    (hrun : outcome (Dense.evaluate qp e.backendRecord (Dense.carveMemory shape).1 clock) desk j =
      (.ok status, ⟨after, j'⟩))
    (hs : status ≠ .qpFailure) :
    after.record.info.numIter = 0 ∧
      Dense.kept (Dense.carveMemory shape).1 after.region =
        Dense.kept (Dense.carveMemory shape).1 desk.region

/-- A word made a value is read back in the lower half of its range, and refused in the
upper.  A value is accepted for an integer exactly if it denotes a natural number, as that
number or the largest word; and this is what a setting keeps of the number that was handed
to it last, whatever calls are made. -/
theorem integers_kept {o : OptionStore} (ho : o.Bundled) (env : Environment) :
    (∀ key word, (OptionValue.ofWord word).toWord key =
      if word.toNat < 2 ^ 63 then .ok word
      else .error (.optionType key .nonNegativeInteger)) ∧
    (∀ (key : String) (value : OptionValue),
      (∀ word, value.toWord key = .ok word ↔
        ∃ n, value.Denotes n ∧ word.toNat = min n largestWord) ∧
      ∀ f, value.toWord key = .error f ↔
        (∀ n, ¬value.Denotes n) ∧ f = .optionType key .nonNegativeInteger) ∧
    ∀ calls : List SetCall, IntegersKept env o calls (calls.foldl (SetCall.after env) o) := by
  refine ⟨OptionValue.toWord_ofWord,
    fun _ _ => ⟨fun _ => OptionValue.toWord_eq_ok_iff, fun _ => OptionValue.toWord_eq_error_iff⟩,
    fun calls => ?_⟩
  have he := (ho.settings_run env calls).1
  generalize hrun : calls.foldl (SetCall.after env) o = e at he ⊢
  have hgiven (s : Setting) (hs : s.kind = .nonNegativeInteger) (n : Nat)
      (h : LastGiven calls s n) : (e.wordOf s).toNat = min n largestWord := by
    rw [← hrun]
    exact ho.wordOf_run_of_lastGiven env hs h
  have hsteps (n : Nat) (h : LastGiven calls .refineIters n) :
      (Dense.settings e.backendRecord true).refineSteps =
        if n < largestWord then n + 1 else 0 := by
    have hword : e.backendRecord.refineIters.toNat = min n largestWord := hgiven _ rfl n h
    rw [Dense.refineSteps_warm, hword]
    by_cases hn : n < largestWord
    · rw [Nat.min_eq_left (Nat.le_of_lt hn)]
    · rw [if_neg hn, if_neg (by omega)]
  constructor
  · rw [he.readable.strategyOptions_eq, he.stores_strategy.get_eq]
  · rw [he.readable.backendOptions_eq, he.stores_backend.get_eq]
  · exact hgiven
  · intro s hs h
    rw [← hrun]
    exact ho.wordOf_run_of_not_given env hs h
  · exact he.outcome_refresh_withWord env
  · exact hsteps
  · intro n h hn qp shape clock desk after j j' status hv hwarm hrun hs
    have hzero := (hsteps n h).trans (if_neg (Nat.not_lt.2 hn))
    exact Dense.unrefined_of_outcome rfl hv hzero hwarm hrun hs

/-- Options that are laid out for an empty stage and one with a state. -/
theorem exists_bundled_lateState :
    ∃ o s, outcome (assign (.bundled {}) ⟨.lateState, .lateState⟩
      (.zeroed (size (.bundled {}) ⟨.lateState, .lateState⟩))) () {} = (.ok o, s) ∧ o.Bundled := by
  have hbytes : Words.byteSize (.zeroed (size (.bundled {}) ⟨.lateState, .lateState⟩)) =
      size (.bundled {}) ⟨.lateState, .lateState⟩ := by decide
  obtain ⟨o, ho, -⟩ := outcome_assign hbytes () {}
  exact ⟨o, _, ho, bundled_of_assign ho⟩

/-- A float that is a whole number is kept, and a word that is refused changes nothing.  Of a
number past the words the largest word is kept, and a warm solve with it leaves a solution
as it was that does not meet the tolerance. -/
theorem integers_kept_wholeFloats :
    let seven : List SetCall := [⟨"maxiter", .float ⟨0x401C000000000000⟩, {}⟩,
      ⟨"iter_max", .ofWord 0x8000000000000000, {}⟩]
    let huge : List SetCall := [⟨"static_reg", .int 0, {}⟩,
      ⟨"refine_tol", .float ⟨0x3FE0000000000000⟩, {}⟩, ⟨"warm_start", .bool true, {}⟩,
      ⟨"maxiter", .float ⟨0x43F0000000000000⟩, {}⟩]
    let qp := StageData.blank InputField .lateState
    let m := (Dense.carveMemory .lateState).1
    let region := m.solution.setRecords (m.state.setRecords (.zeroed (Dense.memorySize .lateState))
      #[(⟨1, 0⟩ : DenseState)]) (#[1, 0] : Array Binary64)
    let desk : Desk QpOutput := ⟨StageData.blank OutputField .lateState, region,
      .zeroed (DenseScratch.ofOrder m.order).total⟩
    ∃ o s, outcome (assign (.bundled {}) ⟨.lateState, .lateState⟩
        (.zeroed (size (.bundled {}) ⟨.lateState, .lateState⟩))) () {} = (.ok o, s) ∧
      ((seven.foldl (SetCall.after {}) o).wordOf .refineIters).toNat = 7 ∧
      (seven.foldl (SetCall.after {}) o).wordOf .n2 = o.wordOf .n2 ∧
      (Dense.settings (seven.foldl (SetCall.after {}) o).backendRecord true).refineSteps = 8 ∧
      let e := huge.foldl (SetCall.after {}) o
      Dense.startsWarm e.backendRecord m desk.region = true ∧
      ∃ status after j', outcome (Dense.evaluate qp e.backendRecord m {}) desk {} =
          (.ok status, ⟨after, j'⟩) ∧ status ≠ .qpFailure ∧
        after.record.info.numIter = 0 ∧ Dense.kept m after.region = Dense.kept m desk.region ∧
        Scalar.lt e.backendRecord.refineTol
          ((Dense.systemOf qp m.order).residual (Dense.kept m after.region)).maxNorm = true := by
  intro seven huge qp m region desk
  obtain ⟨o, s, ho, hb⟩ := exists_bundled_lateState
  obtain ⟨-, -, hkept⟩ := integers_kept hb {}
  have hseven : LastGiven seven .refineIters 7 := by
    refine ⟨[], _, _, rfl, ⟨by decide, OptionValue.denotes_float_iff.2 (by decide +kernel)⟩, ?_⟩
    intro d hd n hn
    obtain rfl := List.mem_singleton.1 hd
    obtain ⟨rfl, hlt⟩ := OptionValue.denotes_ofWord_iff.1 hn.2
    exact absurd hlt (by decide)
  have hstages : ∀ c ∈ seven, ∀ n, ¬c.Gives .n2 n := by
    intro c hc n hn
    have hkey : ∀ c ∈ seven, c.key ∉ Setting.n2.keys := by decide
    exact hkey c hc hn.1
  have hhuge : LastGiven huge .refineIters (2 ^ 64) := by
    refine ⟨huge.take 3, _, [], rfl,
      ⟨by decide, OptionValue.denotes_float_iff.2 (by decide +kernel)⟩, nofun⟩
  have hrecord : (huge.foldl (SetCall.after {}) o).backendRecord =
      ⟨0, ⟨0x3FE0000000000000⟩, 0xFFFFFFFFFFFFFFFF, 1⟩ := by
    obtain ⟨-, hwords, -⟩ := hb.settings_run {} huge
    simp only [backendRecord, hwords]
    rfl
  refine ⟨o, s, ho, (hkept seven).given _ rfl 7 hseven, (hkept seven).not_given _ rfl hstages,
    (hkept seven).steps_eq 7 hseven, ?_⟩
  intro e
  have hwarm : Dense.startsWarm e.backendRecord m desk.region = true := by
    rw [hrecord]
    decide +kernel
  have hv : desk.record.Valid := StageData.valid_blank .lateState
  have hready : Dense.Ready qp m desk := by
    refine ⟨rfl, hv, rfl, ?_, ?_⟩
    · simp only [desk, region, Block.byteSize_setRecords, Words.byteSize_zeroed]
      exact Dense.alignUp_memorySize .lateState
    · rw [Words.byteSize_zeroed]
      exact le_alignUp _
  have hverdict : Dense.verdict qp e.backendRecord m desk.region ≠ .qpFailure := by
    rw [hrecord]
    decide +kernel
  obtain ⟨after, j', hrun, -⟩ := Dense.outcome_evaluate (o := e.backendRecord) hready {} {}
  obtain ⟨hzero, hsame⟩ := (hkept huge).unrefined _ hhuge (by decide) qp .lateState {} desk
    after {} j' _ hv hwarm hrun hverdict
  refine ⟨hwarm, _, after, j', hrun, hverdict, hzero, hsame, ?_⟩
  rw [hsame, hrecord]
  decide +kernel

/-- A word of the upper half is refused as a value.  Two to the 64th is accepted as another
number, and so are the options with it; a warm start is then allowed no correction. -/
theorem integers_altered :
    let calls : List SetCall := [⟨"static_reg", .int 0, {}⟩,
      ⟨"refine_tol", .float ⟨0x3FE0000000000000⟩, {}⟩, ⟨"warm_start", .bool true, {}⟩,
      ⟨"cond_n2", .int 1, {}⟩]
    let last : SetCall := ⟨"maxiter", .float ⟨0x43F0000000000000⟩, {}⟩
    (OptionValue.ofWord 0x8000000000000000).toWord "maxiter" =
        .error (.optionType "maxiter" .nonNegativeInteger) ∧
      last.value.Denotes (2 ^ 64) ∧ last.value.toWord "maxiter" = .ok 0xFFFFFFFFFFFFFFFF ∧
      ∃ o s, outcome (assign (.bundled {}) ⟨.lateState, .lateState⟩
          (.zeroed (size (.bundled {}) ⟨.lateState, .lateState⟩))) () {} = (.ok o, s) ∧
        (last.run {} (calls.foldl (SetCall.after {}) o)).1 = .ok () ∧
        let e := (calls ++ [last]).foldl (SetCall.after {}) o
        (outcome (refresh (Solver.bundled {}) ⟨.lateState, .lateState⟩) e {}).1 = .ok () ∧
          e.wordOf .refineIters = 0xFFFFFFFFFFFFFFFF ∧
          (Dense.settings e.backendRecord true).refineSteps = 0 := by
  intro calls last
  obtain ⟨o, s, ho, hb⟩ := exists_bundled_lateState
  refine ⟨by decide, OptionValue.denotes_float_iff.2 (by decide +kernel), by decide +kernel,
    o, s, ho, ?_, ?_⟩
  · obtain ⟨he, -, -⟩ := hb.settings_run {} calls
    exact (he.run_eq_ok_iff {} _).2 ⟨.refineIters, by decide, by decide +kernel⟩
  intro e
  obtain ⟨he, -, -⟩ := hb.settings_run {} (calls ++ [last])
  have hword (s : Setting) (word : UInt64)
      (h : (calls ++ [last]).reverse.findSome? (·.wordFor? s) = some word) :
      e.wordOf s = word := hb.wordOf_run_of_found {} h
  have hiters := hword .refineIters 0xFFFFFFFFFFFFFFFF (by decide +kernel)
  have hbackend : e.backendRecord = ⟨0, ⟨0x3FE0000000000000⟩, 0xFFFFFFFFFFFFFFFF, 1⟩ := by
    rw [backendRecord, hiters, hword .staticReg 0 (by decide +kernel),
      hword .refineTol 0x3FE0000000000000 (by decide +kernel),
      hword .warmStart 1 (by decide +kernel)]
    rfl
  have hn2 : e.strategyRecord.n2 = 1 := hword .n2 1 (by decide +kernel)
  have hstrategy : e.strategyRecord.flaw? ⟨.lateState, .lateState⟩ = none := by
    rw [IdentityOptions.flaw?_eq_none_iff, hn2]
    exact ⟨rfl, rfl⟩
  have hflaw : e.backendRecord.flaw? = none := by
    rw [DenseOptions.flaw?_eq_none_iff, hbackend]
    decide +kernel
  refine ⟨?_, hiters, ?_⟩
  · rw [he.outcome_refresh, hstrategy, hflaw]
    rfl
  · rw [Dense.refineSteps_warm, hbackend]
    decide

end OptionStore

end StageQp
