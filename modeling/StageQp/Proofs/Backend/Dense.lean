import StageQp.Backend.Dense
import StageQp.Proofs.Kkt.Place
import StageQp.Proofs.Procedure
import StageQp.Proofs.Qp.StageData

/-!
# StageQp.Proofs.Backend.Dense

What the dense backend does.  Its memory and its scratch are laid out exactly,
one block behind the other.  A solve always gives a verdict, and what it leaves is
a function of the program, the options and the region it was handed
(`outcome_evaluate`): neither the scratch nor the old solution has any part in it.
-/

namespace StageQp

open Procedure

instance : LawfulRecord DenseState :=
  Record.lawful_ofWords (fun _ => rfl)
    (fun f g h => by simp [DenseState.ofWords, h 0, h 1]) (fun _ => rfl)

instance : LawfulRecord DenseOptions :=
  Record.lawful_ofWords (fun _ => rfl)
    (fun f g h => by simp [DenseOptions.ofWords, h 0, h 1, h 2, h 3]) (fun _ => rfl)

namespace Dense

/-! ## Layouts -/

/-- The bytes of the blocks of the memory for a shape, in storage order. -/
def memoryLengths (shape : Shape) : List Nat :=
  [1 * Record.bytes DenseState, shape.order * shape.order * Record.bytes Binary64,
    shape.order * Record.bytes UInt32, shape.order * Record.bytes Binary64]

/-- Carving the memory ends at the size in closed form. -/
theorem cursor_carveMemory (shape : Shape) : (carveMemory shape).2.cursor = memorySize shape := by
  have h := Carver.cursor_takeAll {} (memoryLengths shape)
  have hsum : ((memoryLengths shape).map alignUp).sum = memorySize shape := by
    simp only [memoryLengths, memorySize, Record.paddedBytes, doubleBytes, indexBytes,
      List.map_cons, List.map_nil, List.sum_cons, List.sum_nil, Record.bytes]
    omega
  rw [hsum, Nat.zero_add] at h
  exact h

/-- The blocks of the memory tile it. -/
theorem tiles_carveMemory (shape : Shape) :
    Tiles 0 (carveMemory shape).1.blocks (memorySize shape) := by
  rw [← cursor_carveMemory]
  exact Carver.tiles_takeAll (c := {}) rfl (memoryLengths shape)

/-- The memory is whole words. -/
theorem alignUp_memorySize (shape : Shape) : alignUp (memorySize shape) = memorySize shape :=
  alignUp_of_mod ((tiles_carveMemory shape).stop_mod rfl)

/-- Laying out the memory leaves zero words as they are. -/
theorem outcome_memoryAssign (shape : Shape) (j : Journal) :
    ∃ j', outcome (memoryAssign shape) (.zeroed (memorySize shape)) j =
      (.ok (carveMemory shape).1, ⟨.zeroed (memorySize shape), j'⟩) := by
  have hs := (tiles_carveMemory shape).spaced
  rw [← alignUp_memorySize, ← Words.byteSize_zeroed] at hs
  have hc := Block.clearAll_zeroed fun b hb => hs.fits hb
  refine ⟨j.note (.denseMemoryCarved (carveMemory shape).1.order (carveMemory shape).1.nz
    (carveMemory shape).1.ne (carveMemory shape).2.cursor), ?_⟩
  simp only [memoryAssign, outcome_bind, outcome_finish (cursor_carveMemory shape), outcome_fetch,
    hc, outcome_check_ok, outcome_store, outcome_note, outcome_pure]

/-- The blocks of the scratch tile it. -/
theorem tiles_scratch (order : Nat) :
    Tiles 0 (DenseScratch.ofOrder order).blocks (DenseScratch.ofOrder order).total :=
  Carver.tiles_takeAll (c := {}) rfl [order * order * Record.bytes Binary64,
    order * Record.bytes Binary64, order * Record.bytes Binary64]

/-! ## What a solve leaves -/

section Solve

variable (qp : QpInput) (o : DenseOptions) (m : DenseMemory) (region : Words)

/-- The solve of the conditions, its right-hand side written over zeros. -/
def attempted : KktSolve Binary64 m.order := attempt qp o m region (.tabulate fun _ => 0)

/-- The refined solution, if the shape has no inequalities and every pivot was there. -/
def iterate? : Option (Iterate Binary64 m.order) :=
  if qp.shape.isConstrained then none else (attempted qp o m region).result

def verdict : Status :=
  match iterate? qp o m region with
  | none => .qpFailure
  | some it => if it.solution.isFinite then .success else .nanDetected

def regionAfter : Words :=
  if qp.shape.isConstrained then region
  else
    let solved := attempted qp o m region
    let state := m.stateOf region
    let factored := storeFactors m solved.factors region
    match solved.result with
    | none => m.state.setRecords factored #[{ state with solves := 0 }]
    | some it =>
      m.solution.setRecords
        (m.state.setRecords factored
          #[(⟨if it.solution.isFinite then state.solves + 1 else 0, it.norm⟩ : DenseState)])
        it.solution.toArray

def fieldAfter (k : Nat) (field : OutputField) : Array Binary64 :=
  match iterate? qp o m region, field with
  | some it, .ux => it.solution.toArray.extract (Problem.place qp.shape k).z
      ((Problem.place qp.shape k).z + (Problem.place qp.shape k).nv)
  | some it, .pi => it.solution.toArray.extract (Problem.place qp.shape k).e
      ((Problem.place qp.shape k).e + (Problem.place qp.shape k).ne)
  | _, field => .replicate (OutputField.count qp.shape k field) ⟨0⟩

/-- The solves with the factors that a solve reports. -/
def solvesAfter : Nat := ((iterate? qp o m region).map Iterate.solves).getD 0

end Solve

variable {qp : QpInput} {o : DenseOptions} {m : DenseMemory}

/-! ## What that depends on -/

section Congr

variable {other : QpInput} (hs : other.shape = qp.shape)
  (hf : ∀ k field, other.getD k field = qp.getD k field)

include hs hf

/-- Programs with the same fields have the same solve. -/
theorem attempted_congr (region : Words) :
    attempted other o m region = attempted qp o m region := by
  have hcolumn : ∀ field, Problem.column other field = Problem.column qp field := by
    intro field
    rw [Problem.column, Problem.column, hs]
    exact congrArg (Array.map · _) (funext fun k => hf k field)
  have hp : Problem.ofInput other = Problem.ofInput qp := by
    simp only [Problem.ofInput, hcolumn, hs]
  simp only [attempted, attempt, hp]

theorem iterate?_congr (region : Words) : iterate? other o m region = iterate? qp o m region := by
  rw [iterate?, iterate?, hs, attempted_congr hs hf]

theorem verdict_congr (region : Words) : verdict other o m region = verdict qp o m region := by
  rw [verdict, verdict, iterate?_congr hs hf]

theorem solvesAfter_congr (region : Words) :
    solvesAfter other o m region = solvesAfter qp o m region := by
  rw [solvesAfter, solvesAfter, iterate?_congr hs hf]

theorem regionAfter_congr (region : Words) :
    regionAfter other o m region = regionAfter qp o m region := by
  simp only [regionAfter, hs, attempted_congr hs hf]

theorem fieldAfter_congr (region : Words) (k : Nat) (field : OutputField) :
    fieldAfter other o m region k field = fieldAfter qp o m region k field := by
  simp only [fieldAfter, hs, iterate?_congr hs hf]

end Congr

/-- What the right-hand side is written over is of no account. -/
theorem attempt_eq (hm : m.order = qp.shape.order) (region : Words)
    (before : Coords Binary64 m.order) :
    attempt qp o m region before = attempted qp o m region := by
  have h := Problem.assemble_congr (Problem.ofInput qp) hm before (.tabulate fun _ => 0)
  simp only [attempted, attempt, Problem.solve, h]

/-- A solve that finds nothing leaves zero fields. -/
theorem fieldAfter_of_none {region : Words} (h : iterate? qp o m region = none) (k : Nat)
    (field : OutputField) :
    fieldAfter qp o m region k field =
      .replicate (OutputField.count qp.shape k field) (⟨0⟩ : Binary64) := by
  unfold fieldAfter
  rw [h]

/-- The multipliers and slacks of inequalities stay zero. -/
theorem fieldAfter_of_inequality (region : Words) (k : Nat) {field : OutputField}
    (h : field = .lam ∨ field = .t) :
    fieldAfter qp o m region k field =
      .replicate (OutputField.count qp.shape k field) (⟨0⟩ : Binary64) := by
  unfold fieldAfter
  rcases h with rfl | rfl <;> cases iterate? qp o m region <;> rfl

/-- The variables of a stage are their part of the solution. -/
theorem fieldAfter_ux {region : Words} {it : Iterate Binary64 m.order}
    (h : iterate? qp o m region = some it) (k : Nat) :
    fieldAfter qp o m region k .ux = it.solution.toArray.extract (Problem.place qp.shape k).z
      ((Problem.place qp.shape k).z + (Problem.place qp.shape k).nv) := by
  unfold fieldAfter
  rw [h]

/-- The multipliers of a stage are their part of the solution. -/
theorem fieldAfter_pi {region : Words} {it : Iterate Binary64 m.order}
    (h : iterate? qp o m region = some it) (k : Nat) :
    fieldAfter qp o m region k .pi = it.solution.toArray.extract (Problem.place qp.shape k).e
      ((Problem.place qp.shape k).e + (Problem.place qp.shape k).ne) := by
  unfold fieldAfter
  rw [h]

/-- What a solve leaves of the record and of the region. -/
structure Leaves (qp : QpInput) (o : DenseOptions) (m : DenseMemory)
    (before after : Desk QpOutput) : Prop where
  region_eq : after.region = regionAfter qp o m before.region
  layout_eq : after.record.layout = before.record.layout
  size_eq : after.record.words.size = before.record.words.size
  field_eq (k : Nat) (field : OutputField) (hk : k ≤ qp.shape.horizon) :
    after.record.getD k field = fieldAfter qp o m before.region k field
  numIter_eq :
    after.record.info.numIter = UInt64.ofNat (solvesAfter qp o m before.region)
  tComputed_eq : after.record.info.tComputed = 1

/-- What a field of a stage is once the solution of the system has been taken apart. -/
def scattered (x : Array Binary64) (d : QpOutput) (k : Nat) :
    (field : OutputField) → Array (StageFields.EntryOf field)
  | .ux => x.extract (Problem.place d.shape k).z
      ((Problem.place d.shape k).z + (Problem.place d.shape k).nv)
  | .pi => x.extract (Problem.place d.shape k).e
      ((Problem.place d.shape k).e + (Problem.place d.shape k).ne)
  | .lam => d.getD k .lam
  | .t => d.getD k .t

/-- Taking one stage from the solution writes its variables and multipliers. -/
theorem scatter_stage {x : Array Binary64} {d r : QpOutput} (hx : x.size = d.shape.order)
    (hf : d.SameFrame r) (hr : r.Valid) {k : Nat} (hk : k ≤ d.shape.horizon)
    (hsame : ∀ field, r.getD k field = d.getD k field) :
    ∃ e, (do
        let out ← r.set? k .ux (scattered x d k .ux)
        out.set? k .pi (scattered x d k .pi)) = some e ∧ r.SameFrame e ∧
      (∀ field, e.getD k field = scattered x d k field) ∧
      ∀ j field, j ≠ k → e.getD j field = r.getD j field := by
  have hin := Problem.place_inRange hk
  have hsize : ∀ f ∈ [OutputField.ux, .pi],
      (scattered x d k f).size = StageFields.count r.shape k f := by
    rw [hf.shape]
    intro f hf
    have hv := hin.variables_le
    have he := hin.dynamics_le
    have ho : d.shape.totalVariables ≤ d.shape.order := Nat.le_add_right _ _
    obtain rfl | rfl : f = .ux ∨ f = .pi := by simpa using hf
    · show _ = (Problem.place d.shape k).nv
      rw [scattered, Array.size_extract, hx]
      omega
    · show _ = (Problem.place d.shape k).ne
      rw [scattered, Array.size_extract, hx]
      omega
  obtain ⟨e, he, hframe, hdone, hkept⟩ := StageData.foldlM_fields hr (k := k) (by rwa [hf.shape])
    (fun r f => r.set? k f (scattered x d k f)) (scattered x d k) [.ux, .pi]
    (fun _ _ _ _ => rfl) hsize
  refine ⟨e, by simpa using he, hframe, fun field => ?_, fun j field hj => hkept j field (.inl hj)⟩
  cases field with
  | ux => exact hdone .ux (by simp)
  | pi => exact hdone .pi (by simp)
  | lam => exact (hkept k .lam (.inr (by simp))).trans (hsame .lam)
  | t => exact (hkept k .t (.inr (by simp))).trans (hsame .t)

/-- The variables and multipliers of every stage are taken from the solution of
the system; the other fields are left alone. -/
theorem scatter?_eq_some {x : Array Binary64} {d : QpOutput} (hx : x.size = d.shape.order)
    (hv : d.Valid) :
    ∃ e, scatter? d.shape x d = some e ∧ d.SameFrame e ∧
      ∀ k ≤ d.shape.horizon, ∀ field, e.getD k field = scattered x d k field := by
  obtain ⟨e, he, hframe, hdone, -⟩ := StageData.foldlM_stages hv
    (fun out k => do
      let out ← out.set? k .ux (scattered x d k .ux)
      out.set? k .pi (scattered x d k .pi))
    (scattered x d) (Nat.le_refl (d.shape.horizon + 1)) fun r k hk hf hr hsame =>
      scatter_stage hx hf hr (Nat.le_of_lt_succ hk) hsame
  exact ⟨e, he, hframe, fun k hk field => hdone k field (Nat.lt_succ_of_le hk)⟩

/-! ## Solving -/

section Outcome

theorem numIter_infoOf (n : Nat) (interface solve total : UInt64) :
    (infoOf n interface solve total).numIter = UInt64.ofNat n := rfl

theorem tComputed_infoOf (n : Nat) (interface solve total : UInt64) :
    (infoOf n interface solve total).tComputed = 1 := rfl

/-- A record of which only the fields and the account matter. -/
theorem Leaves.of_setInfo {before : Desk QpOutput} {record : QpOutput} (hv : record.Valid)
    {region work : Words} {n : Nat} {interface solve total : UInt64}
    (hregion : region = regionAfter qp o m before.region)
    (hlayout : record.layout = before.record.layout)
    (hsize : record.words.size = before.record.words.size)
    (hfield : ∀ k field, k ≤ qp.shape.horizon →
      record.getD k field = fieldAfter qp o m before.region k field)
    (hn : n = solvesAfter qp o m before.region) :
    Leaves qp o m before
      ⟨record.setInfo (infoOf n interface solve total), region, work⟩ where
  region_eq := hregion
  layout_eq := hlayout
  size_eq := (Block.size_setRecords ..).trans hsize
  field_eq k field hk := (StageData.setInfo_sameFields hv _ k field).trans (hfield k field hk)
  numIter_eq := by rw [StageData.info_setInfo hv, numIter_infoOf, hn]
  tComputed_eq := by rw [StageData.info_setInfo hv, tComputed_infoOf]

/-- What a solve is handed: the table for the shape, a record of the shape, and a
region and scratch of the sizes that were asked for. -/
structure Ready (qp : QpInput) (m : DenseMemory) (desk : Desk QpOutput) : Prop where
  table_eq : m = (carveMemory qp.shape).1
  valid : desk.record.Valid
  shape_eq : desk.record.shape = qp.shape
  region_eq : Words.byteSize desk.region = memorySize qp.shape
  work_le : (DenseScratch.ofOrder m.order).total ≤ Words.byteSize desk.work

namespace Ready

variable {desk : Desk QpOutput} (h : Ready qp m desk)

include h

theorem order_eq : m.order = qp.shape.order := by
  rw [h.table_eq]
  rfl

/-- The region can be split into the blocks of the memory. -/
theorem split_region : Words.checkSplit desk.region m.blocks = .ok () := by
  have ht := (tiles_carveMemory qp.shape).spaced
  rw [← h.region_eq, ← h.table_eq] at ht
  exact checkSplit_of_spaced ht

/-- The work can be split into the blocks of the scratch. -/
theorem split_work : Words.checkSplit desk.work (DenseScratch.ofOrder m.order).blocks = .ok () :=
  checkSplit_of_spaced ((tiles_scratch m.order).spaced.mono (Nat.le_refl 0) h.work_le)

/-- A record that is cleared has zero fields. -/
theorem getD_clear {k : Nat} (hk : k ≤ qp.shape.horizon) (field : OutputField) :
    desk.record.clear.getD k field =
      .replicate (OutputField.count qp.shape k field) (⟨0⟩ : Binary64) := by
  rw [← h.shape_eq] at hk ⊢
  exact StageData.getD_clear h.valid hk field

end Ready

/-- Without inequalities, what is found is what the solve found. -/
theorem iterate?_eq (hq : qp.shape.isConstrained = false) (region : Words) :
    iterate? qp o m region = (attempted qp o m region).result := by
  rw [iterate?, hq]
  rfl

/-- A solve that finds nothing leaves its factors, and no count. -/
theorem regionAfter_of_none (hq : qp.shape.isConstrained = false) {region : Words}
    (hr : (attempted qp o m region).result = none) :
    regionAfter qp o m region =
      m.state.setRecords (storeFactors m (attempted qp o m region).factors region)
        #[{ m.stateOf region with solves := 0 }] := by
  rw [regionAfter, hq]
  simp only [Bool.false_eq_true, if_false, hr]

/-- A solve that finds a solution leaves its factors, the solution, its residual, and one count
more if it is finite. -/
theorem regionAfter_of_some (hq : qp.shape.isConstrained = false) {region : Words}
    {it : Iterate Binary64 m.order} (hr : (attempted qp o m region).result = some it) :
    regionAfter qp o m region =
      m.solution.setRecords
        (m.state.setRecords (storeFactors m (attempted qp o m region).factors region)
          #[(⟨if it.solution.isFinite then (m.stateOf region).solves + 1 else 0, it.norm⟩ :
            DenseState)])
        it.solution.toArray := by
  rw [regionAfter, hq]
  simp only [Bool.false_eq_true, if_false, hr]

variable {desk : Desk QpOutput}

/-- A pivot that is not there ends the solve; the solution stays cleared. -/
theorem outcome_solve_of_none (h : Ready qp m desk) (hq : qp.shape.isConstrained = false)
    (hr : (attempted qp o m desk.region).result = none) (clock : BackendReadings) (j : Journal) :
    ∃ work, outcome (solve qp o m clock) { desk with record := desk.record.clear } j =
      (.ok .qpFailure,
        ⟨⟨desk.record.clear.setInfo (infoOf 0 clock.interface clock.solve clock.total),
          regionAfter qp o m desk.region, work⟩, j.note (.systemSingular m.order)⟩) := by
  refine ⟨storeSystem (DenseScratch.ofOrder m.order) (attempted qp o m desk.region).system
    desk.work, ?_⟩
  simp only [solve, outcome_bind, outcome_fetch, h.split_region, h.split_work, outcome_check_ok,
    attempt_eq h.order_eq, hr, outcome_note, outcome_store, account, outcome_update, outcome_pure,
    regionAfter_of_none hq hr]

/-- A solve with all its pivots takes the solution apart, stage by stage. -/
theorem outcome_solve_of_some (h : Ready qp m desk) (hq : qp.shape.isConstrained = false)
    {it : Iterate Binary64 m.order} (hr : (attempted qp o m desk.region).result = some it)
    {record : QpOutput}
    (hscatter : scatter? qp.shape it.solution.toArray desk.record.clear = some record)
    (clock : BackendReadings) (j : Journal) :
    ∃ work, outcome (solve qp o m clock) { desk with record := desk.record.clear } j =
      (.ok (if it.solution.isFinite then .success else .nanDetected),
        ⟨⟨record.setInfo (infoOf it.solves clock.interface clock.solve clock.total),
          regionAfter qp o m desk.region, work⟩, j⟩) := by
  refine ⟨(DenseScratch.ofOrder m.order).residual.setRecords
    (storeSystem (DenseScratch.ofOrder m.order) (attempted qp o m desk.region).system desk.work)
    it.residual.toArray, ?_⟩
  simp only [solve, outcome_bind, outcome_fetch, h.split_region, h.split_work, outcome_check_ok,
    attempt_eq h.order_eq, hr, hscatter, outcome_need_some, outcome_store, account, outcome_update,
    outcome_pure, regionAfter_of_some hq hr]

/-- A solve of a program without inequalities, on a solution that was cleared. -/
theorem outcome_solve (h : Ready qp m desk) (hq : qp.shape.isConstrained = false)
    (clock : BackendReadings) (j : Journal) :
    ∃ after j', outcome (solve qp o m clock) { desk with record := desk.record.clear } j =
        (.ok (verdict qp o m desk.region), ⟨after, j'⟩) ∧
      Leaves qp o m desk after := by
  cases hr : (attempted qp o m desk.region).result with
  | none =>
      have hiterate : iterate? qp o m desk.region = none := (iterate?_eq hq _).trans hr
      have hverdict : verdict qp o m desk.region = .qpFailure := by rw [verdict, hiterate]
      obtain ⟨work, hrun⟩ := outcome_solve_of_none h hq hr clock j
      refine ⟨_, _, by rw [hrun, hverdict], Leaves.of_setInfo h.valid.clear rfl rfl
        (Words.size_paste ..) (fun k field hk => ?_) ?_⟩
      · rw [h.getD_clear hk, fieldAfter_of_none hiterate]
      · rw [solvesAfter, hiterate]
        rfl
  | some it =>
      have hiterate : iterate? qp o m desk.region = some it := (iterate?_eq hq _).trans hr
      have hverdict : verdict qp o m desk.region =
          if it.solution.isFinite then .success else .nanDetected := by rw [verdict, hiterate]
      have hx : it.solution.toArray.size = desk.record.clear.shape.order := by
        show _ = desk.record.shape.order
        rw [h.shape_eq, ← h.order_eq]
        simp
      obtain ⟨record, hscatter, hframe, hfields⟩ := scatter?_eq_some hx h.valid.clear
      have hshape : desk.record.clear.shape = qp.shape := h.shape_eq
      rw [hshape] at hscatter hfields
      obtain ⟨work, hrun⟩ := outcome_solve_of_some h hq hr hscatter clock j
      refine ⟨_, _, by rw [hrun, hverdict], Leaves.of_setInfo (hframe.valid h.valid.clear) rfl
        hframe.layout (hframe.size.trans (Words.size_paste ..)) (fun k field hk => ?_) ?_⟩
      · rw [hfields k hk field]
        cases field with
        | ux => rw [fieldAfter_ux hiterate, scattered, hshape]
        | pi => rw [fieldAfter_pi hiterate, scattered, hshape]
        | lam => exact (h.getD_clear hk _).trans (fieldAfter_of_inequality _ _ (.inl rfl)).symm
        | t => exact (h.getD_clear hk _).trans (fieldAfter_of_inequality _ _ (.inr rfl)).symm
      · rw [solvesAfter, hiterate]
        rfl

/-- A program with inequalities is refused by a verdict; the region stays as it is. -/
theorem outcome_evaluate_of_constrained (h : Ready qp m desk)
    (hq : qp.shape.isConstrained = true) (clock : BackendReadings) (j : Journal) :
    outcome (evaluate qp o m clock) desk j =
      (.ok .qpFailure, ⟨⟨desk.record.clear.setInfo (infoOf 0 0 0 clock.total), desk.region,
        desk.work⟩, j.note .constraintsIgnored⟩) := by
  have horder : ¬qp.shape.order ≠ m.order := fun hne => hne h.order_eq.symm
  simp only [evaluate, if_neg horder, outcome_bind, outcome_pure, outcome_update, hq, if_true,
    outcome_note, account]

/-- A solve gives its verdict, whatever the scratch and the old solution hold. -/
theorem outcome_evaluate (h : Ready qp m desk) (clock : BackendReadings) (j : Journal) :
    ∃ after j', outcome (evaluate qp o m clock) desk j =
        (.ok (verdict qp o m desk.region), ⟨after, j'⟩) ∧ Leaves qp o m desk after := by
  cases hq : qp.shape.isConstrained with
  | false =>
      have horder : ¬qp.shape.order ≠ m.order := fun hne => hne h.order_eq.symm
      obtain ⟨after, j', hrun, hleaves⟩ := outcome_solve (o := o) h hq clock j
      refine ⟨after, j', ?_, hleaves⟩
      simp only [evaluate, if_neg horder, outcome_bind, outcome_update, hq, Bool.false_eq_true,
        if_false]
      exact hrun
  | true =>
      have hiterate : iterate? qp o m desk.region = none := by rw [iterate?, hq]; rfl
      have hverdict : verdict qp o m desk.region = .qpFailure := by rw [verdict, hiterate]
      refine ⟨_, _, by rw [outcome_evaluate_of_constrained h hq, hverdict],
        Leaves.of_setInfo h.valid.clear ?_ rfl (Words.size_paste ..) (fun k field hk => ?_) ?_⟩
      · rw [regionAfter, hq]
        rfl
      · rw [h.getD_clear hk, fieldAfter_of_none hiterate]
      · rw [solvesAfter, hiterate]
        rfl

end Outcome

/-! ## Sizes stay -/

theorem size_storeFactors {n : Nat} (m : DenseMemory) (f : Factors Binary64 n) (region : Words) :
    (storeFactors m f region).size = region.size := by
  simp [storeFactors]

/-- A solve changes no number of words of the region. -/
theorem size_regionAfter (qp : QpInput) (o : DenseOptions) (m : DenseMemory) (region : Words) :
    (regionAfter qp o m region).size = region.size := by
  unfold regionAfter
  split
  · rfl
  · dsimp only
    split
    · rw [Block.size_setRecords, size_storeFactors]
    · rw [Block.size_setRecords, Block.size_setRecords, size_storeFactors]

/-- Handing a solution out changes no number of words of the record. -/
theorem size_scatter? {shape : Shape} {x : Array Binary64} {d e : QpOutput}
    (h : scatter? shape x d = some e) : e.words.size = d.words.size := by
  have hP := StageData.writeKeeps_size (Φ := OutputField) d.words.size
  refine StageData.keeps_foldlM (P := fun r => r.words.size = d.words.size)
    (fun r k e hr he => ?_) rfl h
  obtain ⟨r₁, h₁, h₂⟩ := Option.bind_eq_some_iff.1 he
  exact hP.set? (hP.set? hr h₁) h₂

/-- The region and the record have so many words. -/
def Sizes (regionSize recordSize : Nat) (desk : Desk QpOutput) : Prop :=
  desk.region.size = regionSize ∧ desk.record.words.size = recordSize

variable {regionSize recordSize : Nat}

theorem keeps_account (info : SolveInfo) : Keeps (Sizes regionSize recordSize) (account info) :=
  .update fun _ h => ⟨h.1, (Block.size_setRecords ..).trans h.2⟩

/-- A solve changes no number of words. -/
theorem keeps_solve (qp : QpInput) (o : DenseOptions) (m : DenseMemory) (clock : BackendReadings) :
    Keeps (Sizes regionSize recordSize) (solve qp o m clock) := by
  refine .fetch_bind fun desk h => .bind (.check _) fun _ => .bind (.check _) fun _ => ?_
  dsimp only
  split
  · refine .bind (.note _) fun _ => .bind (.store ⟨?_, h.2⟩) fun _ =>
      .bind (keeps_account _) fun _ => .pure _
    rw [Block.size_setRecords, size_storeFactors, h.1]
  · refine .need_bind fun record hrecord => .bind (.store ⟨?_, ?_⟩) fun _ =>
      .bind (keeps_account _) fun _ => .pure _
    · rw [Block.size_setRecords, Block.size_setRecords, size_storeFactors, h.1]
    · exact (size_scatter? hrecord).trans h.2

/-- However a solve ends, the region and the record have as many words as before. -/
theorem keeps_evaluate (qp : QpInput) (o : DenseOptions) (m : DenseMemory)
    (clock : BackendReadings) : Keeps (Sizes regionSize recordSize) (evaluate qp o m clock) := by
  refine .ite (fun _ => .fail _) fun _ => ?_
  refine .bind (.update fun desk h => ⟨h.1, (Words.size_paste ..).trans h.2⟩) fun _ => ?_
  refine .ite (fun _ => ?_) fun _ => keeps_solve qp o m clock
  exact .bind (.note _) fun _ => .bind (keeps_account _) fun _ => .pure _

end Dense

end StageQp
