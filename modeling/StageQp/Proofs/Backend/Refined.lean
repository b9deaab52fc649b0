import StageQp.Proofs.Backend.Kept
import StageQp.Proofs.Backend.Scratch
import StageQp.Proofs.Linear.Corrections
import StageQp.Proofs.Shape.Record

/-!
# StageQp.Proofs.Backend.Refined

What a solve of the dense backend has done once it is past the factors, for any data
at all: not-a-numbers and infinities are scalars like others here.  The number of
solves it reports is bounded, and it stopped early only at a residual within the
tolerance; the state, the solution, the residual in the scratch and the fields that
it leaves all belong to one and the same iterate (`evaluate_refines`).
-/

namespace StageQp

open Procedure

/-- The doubles of a block, as a column, are its records. -/
theorem Block.toArray_coords {b : Block} {n : Nat} (h : b.count Binary64 = n) (w : Words) :
    (b.coords n w).toArray = b.records Binary64 w := by
  subst h
  apply Array.ext
  · simp
  · intro i h1 h2
    simp [coords, Coords.tabulate, records, Record.getAll]

namespace Dense

variable {qp : QpInput} {o : DenseOptions} {m : DenseMemory} {region : Words}

/-- The optimality conditions of a program, as a system of some order. -/
def systemOf (qp : QpInput) (n : Nat) : LinearSystem Binary64 n :=
  (Problem.ofInput qp).assemble (.tabulate fun _ => 0)

/-- The solution that a region keeps, as a column. -/
def kept (m : DenseMemory) (region : Words) : Coords Binary64 m.order :=
  m.solution.coords m.order region

/-- Whether a solve starts from the solution that the region keeps. -/
def startsWarm (o : DenseOptions) (m : DenseMemory) (region : Words) : Bool :=
  o.warmStart != 0 && (m.stateOf region).solves != 0

/-! ## The refinement of a solve -/

/-- The iterate that a solve refines: the solution that is kept, if it starts warm, and
the outcome of a first solve with the factors if not. -/
def firstIterate (qp : QpInput) (o : DenseOptions) (m : DenseMemory) (region : Words) :
    Iterate Binary64 m.order :=
  if startsWarm o m region then (systemOf qp m.order).iterate (kept m region) 0
  else (systemOf qp m.order).iterate
    ((attempted qp o m region).factors.solve (systemOf qp m.order).rhs) 1

/-- The factors do not depend on the region, and of the options on the shift only. -/
theorem factors_attempted (qp : QpInput) (o : DenseOptions) (m : DenseMemory) (region : Words) :
    (attempted qp o m region).factors =
      (Problem.regularize qp.shape.totalVariables o.staticReg
        (systemOf qp m.order).matrix).factor
          (pivotFraction * (systemOf qp m.order).matrix.maxEntry) := rfl

/-- With complete factors a solve refines its first iterate; without, it finds nothing. -/
theorem attempted_result (qp : QpInput) (o : DenseOptions) (m : DenseMemory) (region : Words) :
    (attempted qp o m region).result =
      if (attempted qp o m region).factors.complete then
        some ((systemOf qp m.order).refine (attempted qp o m region).factors o.refineTol
          (settings o (startsWarm o m region)).refineSteps (firstIterate qp o m region))
      else none := by
  rw [firstIterate]
  cases hw : startsWarm o m region with
  | true =>
      simp only [startsWarm] at hw
      simp only [attempted, attempt, hw, Problem.solve, systemOf, kept, settings, if_true]
  | false =>
      simp only [startsWarm] at hw
      simp only [attempted, attempt, hw, Problem.solve, systemOf, settings, Bool.false_eq_true,
        if_false]

/-- The first iterate has the residual of its solution. -/
theorem consistent_firstIterate (qp : QpInput) (o : DenseOptions) (m : DenseMemory)
    (region : Words) : (firstIterate qp o m region).Consistent (systemOf qp m.order) := by
  rw [firstIterate]
  split
  · exact LinearSystem.consistent_iterate _ _ _
  · exact LinearSystem.consistent_iterate _ _ _

/-- A solve that finds a solution has complete factors and refined its first iterate. -/
theorem of_attempted_result {it : Iterate Binary64 m.order}
    (hr : (attempted qp o m region).result = some it) :
    (attempted qp o m region).factors.complete = true ∧
      (systemOf qp m.order).Refines o.refineTol (settings o (startsWarm o m region)).refineSteps
        (firstIterate qp o m region) it := by
  rw [attempted_result] at hr
  split at hr
  · next hc =>
      have href := LinearSystem.refines_refine (attempted qp o m region).factors o.refineTol
        (settings o (startsWarm o m region)).refineSteps (consistent_firstIterate qp o m region)
      rw [Option.some.inj hr] at href
      exact ⟨hc, href⟩
  · cases hr

/-- A solution that was found is found again, without a solve, by a warm start with the
same shift from a region that keeps it, if its residual is within the tolerance. -/
theorem attempted_again {o' : DenseOptions} {region' : Words} {it : Iterate Binary64 m.order}
    (hr : (attempted qp o m region).result = some it) (hreg : o'.staticReg = o.staticReg)
    (hwarm : startsWarm o' m region' = true) (hkept : kept m region' = it.solution)
    (htol : Scalar.le it.norm o'.refineTol = true) :
    (attempted qp o' m region').result = some ((systemOf qp m.order).iterate it.solution 0) := by
  obtain ⟨hc, href⟩ := of_attempted_result hr
  have hc' : (attempted qp o' m region').factors.complete = true := by
    rw [factors_attempted, hreg, ← factors_attempted qp o m region]
    exact hc
  have hfirst : firstIterate qp o' m region' = (systemOf qp m.order).iterate it.solution 0 := by
    rw [firstIterate, if_pos hwarm, hkept]
  have hle : Scalar.le ((systemOf qp m.order).iterate it.solution 0).norm o'.refineTol = true := by
    rw [href.consistent.norm_eq] at htol
    exact htol
  rw [attempted_result, if_pos hc', hfirst, LinearSystem.refine_of_le _ hle]

/-- The corrections that a solve may make: one more when it starts warm. -/
theorem refineSteps_settings (h : o.refineIters.toNat < 2 ^ 64 - 1) (warm : Bool) :
    (settings o warm).refineSteps = o.refineIters.toNat + if warm then 1 else 0 := by
  cases warm with
  | false => exact congrArg UInt64.toNat (UInt64.add_zero o.refineIters)
  | true =>
      have hlt : o.refineIters.toNat + 1 < 2 ^ 64 := by omega
      show (o.refineIters + 1).toNat = o.refineIters.toNat + 1
      rw [UInt64.toNat_add]
      exact Nat.mod_eq_of_lt hlt

/-- The bounds that a solve keeps to, and the iterate that it ends with. -/
structure Bounded (qp : QpInput) (o : DenseOptions) (m : DenseMemory) (region : Words)
    (it : Iterate Binary64 m.order) : Prop where
  consistent : it.Consistent (systemOf qp m.order)
  solves_le : it.solves ≤ 1 + o.refineIters.toNat
  stops : Scalar.le it.norm o.refineTol = true ∨ it.solves = 1 + o.refineIters.toNat
  cold : startsWarm o m region = false → 1 ≤ it.solves
  warm : startsWarm o m region = true → it.solves = 0 →
    Scalar.le ((systemOf qp m.order).residual (kept m region)).maxNorm o.refineTol = true

/-- A solve that finds a solution stayed within its bounds. -/
theorem bounded_attempted (h : o.refineIters.toNat < 2 ^ 64 - 1) {it : Iterate Binary64 m.order}
    (hr : (attempted qp o m region).result = some it) : Bounded qp o m region it := by
  obtain ⟨-, href⟩ := of_attempted_result hr
  rw [refineSteps_settings h] at href
  cases hw : startsWarm o m region with
  | false =>
      have hfirst : (firstIterate qp o m region).solves = 1 := by
        rw [firstIterate, hw]
        rfl
      simp only [hw, Bool.false_eq_true, if_false, Nat.add_zero] at href
      exact ⟨href.consistent, hfirst ▸ href.solves_le, hfirst ▸ href.stops,
        fun _ => hfirst ▸ href.solves_ge,
        fun hwarm => absurd (hw.symm.trans hwarm) Bool.false_ne_true⟩
  | true =>
      have hfirst : firstIterate qp o m region =
          (systemOf qp m.order).iterate (kept m region) 0 := by
        rw [firstIterate, if_pos hw]
      simp only [hw, if_true, hfirst] at href
      have hsum : 0 + (o.refineIters.toNat + 1) = 1 + o.refineIters.toNat := by omega
      refine ⟨href.consistent, Nat.le_trans href.solves_le (Nat.le_of_eq hsum),
        href.stops.imp_right fun heq => heq.trans hsum,
        fun hcold => absurd (hcold.symm.trans hw) Bool.false_ne_true, fun _ hzero => ?_⟩
      -- No correction was made, and at least one would have been allowed.
      have hlast := href.eq_of_solves_eq hzero
      rcases href.stops with hle | hall
      · rwa [hlast] at hle
      · rw [hzero] at hall
        exact absurd (hall.trans hsum) (by omega)

/-! ## Past the factors -/

/-- The solution that was taken apart is in the fields of the stages. -/
theorem getD_of_scatter? {shape : Shape} {x : Array Binary64} {d e : QpOutput} (hv : d.Valid)
    (h : scatter? shape x d = some e) :
    e.Valid ∧ ∀ k < shape.horizon + 1,
      e.getD k .ux = x.extract (Problem.place shape k).z
        ((Problem.place shape k).z + (Problem.place shape k).nv) ∧
      e.getD k .pi = x.extract (Problem.place shape k).e
        ((Problem.place shape k).e + (Problem.place shape k).ne) := by
  rw [scatter?] at h
  generalize shape.horizon + 1 = n at h ⊢
  induction n generalizing e with
  | zero =>
      cases h
      exact ⟨hv, fun k hk => absurd hk (Nat.not_lt_zero k)⟩
  | succ n ih =>
      rw [List.range_succ, List.foldlM_append] at h
      obtain ⟨r, hr, h⟩ := Option.bind_eq_some_iff.1 h
      rw [List.foldlM_cons] at h
      obtain ⟨last, hstep, hlast⟩ := Option.bind_eq_some_iff.1 h
      obtain rfl : last = e := Option.some.inj hlast
      obtain ⟨w, hux, hpi⟩ := Option.bind_eq_some_iff.1 hstep
      obtain ⟨hrv, hdone⟩ := ih hr
      have hw := hrv.replaces_of_set? hux
      have hwv := hw.valid hrv
      have he := hwv.replaces_of_set? hpi
      refine ⟨he.valid hwv, fun k hk => ?_⟩
      rcases Nat.lt_or_eq_of_le (Nat.le_of_lt_succ hk) with hlt | rfl
      · have hne := Nat.ne_of_lt hlt
        rw [he.other k .ux (.inl hne), hw.other k .ux (.inl hne), he.other k .pi (.inl hne),
          hw.other k .pi (.inl hne)]
        exact hdone k hlt
      · exact ⟨(he.other k .ux (.inr OutputField.noConfusion)).trans hw.self, he.self⟩

section Outcome

variable {clock : BackendReadings} {desk after : Desk QpOutput} {j j' : Journal} {status : Status}

/-- A solve that does not fail has gone through all its steps. -/
theorem of_outcome_evaluate
    (hrun : outcome (evaluate qp o m clock) desk j = (.ok status, ⟨after, j'⟩))
    (hs : status ≠ .qpFailure) :
    m.order = qp.shape.order ∧ qp.shape.isConstrained = false ∧
      Words.checkSplit desk.region m.blocks = .ok () ∧
      Words.checkSplit desk.work (DenseScratch.ofOrder m.order).blocks = .ok () ∧
      ∃ it record, (attempted qp o m desk.region).result = some it ∧
        scatter? qp.shape it.solution.toArray desk.record.clear = some record ∧
        after.record = record.setInfo (infoOf it.solves clock.interface clock.solve clock.total) ∧
        after.region = regionAfter qp o m desk.region ∧
        after.work = (DenseScratch.ofOrder m.order).residual.setRecords
          (storeSystem (DenseScratch.ofOrder m.order) (systemOf qp m.order) desk.work)
          it.residual.toArray := by
  by_cases horder : qp.shape.order ≠ m.order
  · simp only [evaluate, if_pos horder, outcome_bind, outcome_fail] at hrun
    cases hrun
  · have hm : m.order = qp.shape.order := (Decidable.not_not.1 horder).symm
    cases hq : qp.shape.isConstrained with
    | true =>
        simp only [evaluate, if_neg horder, outcome_bind, outcome_pure, outcome_update, hq, if_true,
          outcome_note, account] at hrun
        cases hrun
        exact absurd rfl hs
    | false =>
        simp only [evaluate, if_neg horder, outcome_bind, outcome_update, hq, Bool.false_eq_true,
          if_false] at hrun
        rw [solve] at hrun
        obtain ⟨_, _, hfetch, hrun⟩ := of_outcome_bind hrun
        cases hfetch
        obtain ⟨_, _, hcheck, hrun⟩ := of_outcome_bind hrun
        obtain ⟨hregion, rfl⟩ := of_outcome_check hcheck
        obtain ⟨_, _, hcheck, hrun⟩ := of_outcome_bind hrun
        obtain ⟨hwork, rfl⟩ := of_outcome_check hcheck
        refine ⟨hm, rfl, hregion, hwork, ?_⟩
        simp only [attempt_eq hm] at hrun
        cases hr : (attempted qp o m desk.region).result with
        | none =>
            simp only [hr, outcome_bind, outcome_note, outcome_store, account, outcome_update,
              outcome_pure] at hrun
            cases hrun
            exact absurd rfl hs
        | some it =>
            simp only [hr] at hrun
            obtain ⟨record, _, hneed, hrun⟩ := of_outcome_bind hrun
            obtain ⟨hscatter, rfl⟩ := of_outcome_need hneed
            simp only [outcome_bind, outcome_store, account, outcome_update, outcome_pure] at hrun
            cases hrun
            exact ⟨it, record, rfl, hscatter, rfl, (regionAfter_of_some hq hr).symm, rfl⟩

/-- A region that can be split fits the memory. -/
theorem fitted_of_checkSplit {shape : Shape} (hm : m = (carveMemory shape).1)
    (h : Words.checkSplit region m.blocks = .ok ()) : Fitted shape m region where
  table_eq := hm
  region_le := (tiles_carveMemory shape).stop_le (Nat.zero_le _) fun _ hb =>
    (fits_of_checkSplit h (hm ▸ hb)).2

/-- Work that can be split is enough scratch. -/
theorem total_le_of_checkSplit {order : Nat} {work : Words}
    (h : Words.checkSplit work (DenseScratch.ofOrder order).blocks = .ok ()) :
    (DenseScratch.ofOrder order).total ≤ Words.byteSize work :=
  (tiles_scratch order).stop_le (Nat.zero_le _) fun _ hb => (fits_of_checkSplit h hb).2

/-- The solution that is kept is the one of the last iterate. -/
theorem kept_regionAfter {shape : Shape} (hfit : Fitted shape m region)
    (hq : qp.shape.isConstrained = false) {it : Iterate Binary64 m.order}
    (hr : (attempted qp o m region).result = some it) :
    kept m (regionAfter qp o m region) = it.solution := by
  apply Vector.toArray_inj.1
  rw [kept, Block.toArray_coords hfit.count_solution]
  exact solutionOf_regionAfter_of_some hfit hq hr

/-- What a solve leaves that does not fail: `before` and `after` are the desk before
and after it. -/
structure Refined (qp : QpInput) (o : DenseOptions) (m : DenseMemory)
    (before after : Desk QpOutput) : Prop where
  numIter_le : after.record.info.numIter.toNat ≤ 1 + o.refineIters.toNat
  stops : Scalar.le (m.stateOf after.region).residual o.refineTol = true ∨
    after.record.info.numIter.toNat = 1 + o.refineIters.toNat
  cold : startsWarm o m before.region = false → 1 ≤ after.record.info.numIter.toNat
  /-- A warm start without a solve was within the tolerance already. -/
  warm : startsWarm o m before.region = true → after.record.info.numIter = 0 →
    Scalar.le ((systemOf qp m.order).residual (kept m before.region)).maxNorm o.refineTol = true
  /-- The residual is that of the solution that is kept, for the system as it is. -/
  residual_eq : (m.stateOf after.region).residual =
    ((systemOf qp m.order).residual (kept m after.region)).maxNorm
  vector_eq : (DenseScratch.ofOrder m.order).residual.records Binary64 after.work =
    ((systemOf qp m.order).residual (kept m after.region)).toArray
  system_holds : (DenseScratch.ofOrder m.order).Holds after.work (systemOf qp m.order)
  /-- The fields of the stages, one behind the other, are the solution. -/
  stacked_eq :
    ((List.range (qp.shape.horizon + 1)).flatMap fun k => (after.record.getD k .ux).toList) ++
      ((List.range (qp.shape.horizon + 1)).flatMap fun k => (after.record.getD k .pi).toList) =
        (kept m after.region).toArray.toList

/-- A run past the factors refined its solution. -/
theorem refined_of_outcome {shape : Shape} (hm : m = (carveMemory shape).1)
    (hv : desk.record.Valid) (ho : o.refineIters.toNat < 2 ^ 64 - 1)
    (hrun : outcome (evaluate qp o m clock) desk j = (.ok status, ⟨after, j'⟩))
    (hs : status ≠ .qpFailure) : Refined qp o m desk after := by
  obtain ⟨horder, hq, hregion, hwork, it, record, hr, hscatter, hrecord, hafter, hscratch⟩ :=
    of_outcome_evaluate hrun hs
  have hfit := fitted_of_checkSplit hm hregion
  have htotal := total_le_of_checkSplit hwork
  have hbound := bounded_attempted ho hr
  obtain ⟨hrv, hfields⟩ := getD_of_scatter? hv.clear hscatter
  have hstate := stateOf_regionAfter_of_some hfit hq hr
  have hkept : kept m after.region = it.solution := by
    rw [hafter, kept_regionAfter hfit hq hr]
  have hnorm : (m.stateOf after.region).residual = it.norm := by rw [hafter, hstate]
  have hnum : after.record.info.numIter = UInt64.ofNat it.solves := by
    rw [hrecord, StageData.info_setInfo hrv, numIter_infoOf]
  have htoNat : after.record.info.numIter.toNat = it.solves := by
    have hle := hbound.solves_le
    rw [hnum]
    exact UInt64.toNat_ofNat_of_lt (show it.solves < 2 ^ 64 by omega)
  have hsystem := DenseScratch.holds_storeSystem htotal (systemOf qp m.order)
  have hroom : (DenseScratch.ofOrder m.order).total ≤ Words.byteSize
      (storeSystem (DenseScratch.ofOrder m.order) (systemOf qp m.order) desk.work) := by
    simpa [storeSystem] using htotal
  constructor
  · rw [htoNat]
    exact hbound.solves_le
  · rw [hnorm, htoNat]
    exact hbound.stops
  · rw [htoNat]
    exact hbound.cold
  · intro hw hzero
    exact hbound.warm hw (by rw [← htoNat, hzero]; rfl)
  · rw [hnorm, hkept, hbound.consistent.norm_eq]
  · rw [hkept, hscratch, ← hbound.consistent.residual_eq]
    exact Block.records_setRecords (DenseScratch.fits hroom (by simp [DenseScratch.blocks]))
      (by simp [DenseScratch.count_residual])
  · rw [hscratch]
    exact hsystem.setResidual hroom _
  · rw [hkept, ← flatMap_places horder it.solution]
    congr 1
    · refine List.flatMap_congr fun k hk => ?_
      rw [hrecord, StageData.setInfo_sameFields hrv, (hfields k (List.mem_range.1 hk)).1]
    · refine List.flatMap_congr fun k hk => ?_
      rw [hrecord, StageData.setInfo_sameFields hrv, (hfields k (List.mem_range.1 hk)).2]

/-- A solve that is past the factors has refined its solution, whatever the scalars: it
made no more solves than allowed, stopped early only within the tolerance, and left one
iterate in the state, the solution, the scratch and the record.  Handed what it asks
for, it does get past complete factors to a verdict that is no failure. -/
theorem evaluate_refines {shape : Shape} (hm : m = (carveMemory shape).1)
    (hv : desk.record.Valid) (ho : o.refineIters.toNat < 2 ^ 64 - 1) (clock : BackendReadings)
    (j : Journal) :
    (∀ status after j',
      outcome (evaluate qp o m clock) desk j = (.ok status, ⟨after, j'⟩) →
      status ≠ .qpFailure → Refined qp o m desk after) ∧
    (Ready qp m desk → qp.shape.isConstrained = false →
      (∃ before, (attempt qp o m desk.region before).factors.complete = true) →
      ∃ status after j', outcome (evaluate qp o m clock) desk j = (.ok status, ⟨after, j'⟩) ∧
        status ≠ .qpFailure) := by
  refine ⟨fun _ _ _ hrun hs => refined_of_outcome hm hv ho hrun hs, fun hready hq hc => ?_⟩
  obtain ⟨before, hc⟩ := hc
  rw [attempt_eq hready.order_eq] at hc
  obtain ⟨after, j', hrun, -⟩ := outcome_evaluate (o := o) hready clock j
  refine ⟨_, after, j', hrun, fun hfail => ?_⟩
  rw [verdict_eq_qpFailure_iff, iterate?_eq hq, attempted_result, if_pos hc] at hfail
  cases hfail

end Outcome

/-- The memory for a step, with one solve counted and a solution of ones kept. -/
def oneStepRegion : Words :=
  let m := (carveMemory oneStepShape).1
  m.solution.setRecords (m.state.setRecords (.zeroed (memorySize oneStepShape))
    #[(⟨1, 0⟩ : DenseState)]) (.replicate m.order (⟨0x3ff0000000000000⟩ : Binary64))

/-- A warm start for a step, from a solution that is none and so is corrected. -/
theorem evaluate_refines_oneStep :
    let o : DenseOptions := ⟨defaultReg, defaultTol, defaultIters, 1⟩
    let m := (carveMemory oneStepShape).1
    let desk : Desk QpOutput := ⟨StageData.blank OutputField oneStepShape, oneStepRegion,
      .zeroed (DenseScratch.ofOrder m.order).total⟩
    desk.record.Valid ∧ o.refineIters.toNat < 2 ^ 64 - 1 ∧ Ready oneStep m desk ∧
      startsWarm o m desk.region = true ∧ oneStep.shape.isConstrained = false ∧
      (attempt oneStep o m desk.region (.tabulate fun _ => 0)).factors.complete = true ∧
      ∃ status after j', outcome (evaluate oneStep o m {}) desk {} = (.ok status, ⟨after, j'⟩) ∧
        status ≠ .qpFailure ∧ Refined oneStep o m desk after ∧
        after.record.info.numIter ≠ 0 := by
  intro o m desk
  have hv : desk.record.Valid := StageData.valid_blank oneStepShape
  have ho : o.refineIters.toNat < 2 ^ 64 - 1 := by decide
  have hready : Ready oneStep m desk := by
    refine ⟨rfl, hv, rfl, ?_, ?_⟩
    · show Words.byteSize oneStepRegion = memorySize oneStepShape
      rw [oneStepRegion, Words.byteSize, Block.size_setRecords, Block.size_setRecords,
        ← Words.byteSize, Words.byteSize_zeroed]
      exact alignUp_memorySize oneStepShape
    · rw [Words.byteSize_zeroed]
      exact le_alignUp _
  have hwarm : startsWarm o m desk.region = true := by decide +kernel
  have hstart : Scalar.le ((systemOf oneStep m.order).residual (kept m desk.region)).maxNorm
      o.refineTol = false := by decide +kernel
  have hq : oneStep.shape.isConstrained = false := by decide +kernel
  have hc : (attempt oneStep o m desk.region (.tabulate fun _ => 0)).factors.complete = true := by
    decide +kernel
  have hm : m = (carveMemory oneStepShape).1 := rfl
  obtain ⟨hrefined, htotal⟩ := evaluate_refines hm hv ho {} {}
  obtain ⟨status, after, j', hrun, hs⟩ := htotal hready hq ⟨_, hc⟩
  have hafter := hrefined status after j' hrun hs
  refine ⟨hv, ho, hready, hwarm, hq, hc, status, after, j', hrun, hs, hafter, fun hzero => ?_⟩
  exact Bool.false_ne_true (hstart.symm.trans (hafter.warm hwarm hzero))

end Dense

end StageQp
