import StageQp.Proofs.Backend.Dense

/-!
# StageQp.Proofs.Backend.Kept

What the dense backend keeps from one solve to the next.  The state and the
solution that a solve writes to its region are read back (`stateOf_regionAfter_of_some`,
`solutionOf_regionAfter_of_some`), and a failure resets the count of solves
(`stateOf_regionAfter_of_none`).

Only a warm start reads the region: without one, all that a solve leaves but the
count is the same whatever the region held (`attempted_of_cold`).
-/

namespace StageQp

/-- Slices that lie one behind the other make up the whole. -/
theorem flatMap_slices {α : Type} (x : List α) (f : Nat → Nat) (first n : Nat) :
    (List.range n).flatMap (fun k => (x.drop (first + Shape.sumBefore f k)).take (f k)) =
      (x.drop first).take (Shape.sumBefore f n) := by
  induction n with
  | zero => rfl
  | succ n ih =>
      rw [List.range_succ, List.flatMap_append, ih, List.flatMap_singleton, Shape.sumBefore,
        List.take_add, List.drop_drop]

namespace DenseMemory

/-- The solution that a region holds. -/
def solutionOf (m : DenseMemory) (region : Words) : Array Binary64 :=
  m.solution.records Binary64 region

end DenseMemory

namespace Dense

variable {qp : QpInput} {o : DenseOptions} {m : DenseMemory} {region : Words}

/-! ## Reading back -/

/-- The table for a shape and a region that has room for its blocks. -/
structure Fitted (shape : Shape) (m : DenseMemory) (region : Words) : Prop where
  table_eq : m = (carveMemory shape).1
  region_le : memorySize shape ≤ Words.byteSize region

namespace Fitted

variable {shape : Shape} (h : Fitted shape m region)

include h

/-- The blocks of the memory are spaced within the region. -/
theorem spaced : Spaced 0 m.blocks (Words.byteSize region) := by
  rw [h.table_eq]
  exact (tiles_carveMemory shape).spaced.mono (Nat.le_refl 0) h.region_le

theorem fits {b : Block} (hb : b ∈ m.blocks) : b.Fits region := h.spaced.fits hb

theorem congr {other : Words} (hs : other.size = region.size) : Fitted shape m other where
  table_eq := h.table_eq
  region_le := by
    rw [Words.byteSize, hs]
    exact h.region_le

theorem order_eq : m.order = shape.order := by
  rw [h.table_eq]
  rfl

/-- The state and the solution do not share bytes. -/
theorem state_apart_solution : m.solution.Apart m.state :=
  h.spaced.apart (i := 3) (j := 0) rfl rfl (by decide)

theorem bytes_le_state : Record.bytes DenseState ≤ m.state.span := by
  rw [h.table_eq]
  exact Nat.le_trans (Nat.le_of_eq (Nat.one_mul _).symm) (le_alignUp (1 * Record.bytes DenseState))

/-- The solution has an entry for every row. -/
theorem count_solution : m.solution.count Binary64 = m.order := by
  rw [h.order_eq, h.table_eq]
  exact Nat.mul_div_cancel shape.order (by decide)

/-- The state is there to be read. -/
theorem readState_eq : m.readState region = .ok (m.stateOf region) := by
  have hf : m.state.Fits region := h.fits (by simp [DenseMemory.blocks])
  have hc : Record.check DenseState (m.state.part region) 1 = .ok () := by
    rw [Record.check_eq_ok_iff, Block.byteSize_part hf, Nat.one_mul]
    exact h.bytes_le_state
  rw [DenseMemory.readState, hf.slice]
  show (Record.check DenseState (m.state.part region) 1 >>= fun _ => pure _) = _
  rw [hc]
  rfl

/-- The state that is written is read back. -/
theorem stateOf_setRecords (s : DenseState) : m.stateOf (m.state.setRecords region #[s]) = s :=
  Block.get_setRecords_singleton (h.fits (by simp [DenseMemory.blocks])) h.bytes_le_state s

/-- Writing a solution leaves the state. -/
theorem stateOf_setSolution (x : Array Binary64) :
    m.stateOf (m.solution.setRecords region x) = m.stateOf region := by
  rw [DenseMemory.stateOf, Block.part_setRecords_of_apart
    (h.fits (by simp [DenseMemory.blocks])) (h.fits (by simp [DenseMemory.blocks]))
    h.state_apart_solution, DenseMemory.stateOf]

/-- The solution that is written is read back. -/
theorem solutionOf_setRecords {x : Array Binary64} (hx : x.size = m.order) :
    m.solutionOf (m.solution.setRecords region x) = x :=
  Block.records_setRecords (h.fits (by simp [DenseMemory.blocks])) (hx.trans h.count_solution.symm)

end Fitted

variable {shape : Shape} (h : Fitted shape m region)

include h

/-- Storing factors keeps the memory fitted. -/
theorem fitted_storeFactors {n : Nat} (f : Factors Binary64 n) :
    Fitted shape m (storeFactors m f region) := h.congr (size_storeFactors m f region)

/-- A pivot that is not there resets the count. -/
theorem stateOf_regionAfter_of_none (hq : qp.shape.isConstrained = false)
    (hr : (attempted qp o m region).result = none) :
    m.stateOf (regionAfter qp o m region) = { m.stateOf region with solves := 0 } := by
  rw [regionAfter_of_none hq hr]
  exact (fitted_storeFactors h _).stateOf_setRecords _

/-- A solution counts if it is finite, and resets the count if not. -/
theorem stateOf_regionAfter_of_some (hq : qp.shape.isConstrained = false)
    {it : Iterate Binary64 m.order} (hr : (attempted qp o m region).result = some it) :
    m.stateOf (regionAfter qp o m region) =
      ⟨if it.solution.isFinite then (m.stateOf region).solves + 1 else 0, it.norm⟩ := by
  have hf := fitted_storeFactors h (attempted qp o m region).factors
  rw [regionAfter_of_some hq hr, (hf.congr (Block.size_setRecords ..)).stateOf_setSolution,
    hf.stateOf_setRecords]

/-- The solution is kept. -/
theorem solutionOf_regionAfter_of_some (hq : qp.shape.isConstrained = false)
    {it : Iterate Binary64 m.order} (hr : (attempted qp o m region).result = some it) :
    m.solutionOf (regionAfter qp o m region) = it.solution.toArray := by
  have hf := fitted_storeFactors h (attempted qp o m region).factors
  rw [regionAfter_of_some hq hr]
  exact (hf.congr (Block.size_setRecords ..)).solutionOf_setRecords (by simp)

omit h

/-! ## Cold solves -/

/-- Without a warm start the region is not read. -/
theorem attempted_of_cold (hc : o.warmStart = 0 ∨ (m.stateOf region).solves = 0) :
    attempted qp o m region =
      (Problem.ofInput qp).solve (settings o false) none (.tabulate fun _ => 0) := by
  have hwarm : (o.warmStart != 0 && (m.stateOf region).solves != 0) = false := by
    rcases hc with hc | hc <;> simp [hc]
  simp only [attempted, attempt, hwarm, Bool.false_eq_true, if_false]

section Region

variable {other : Words} (hr : attempted qp o m other = attempted qp o m region)

include hr

/-- The same attempt finds the same. -/
theorem iterate?_of_attempted_eq : iterate? qp o m other = iterate? qp o m region := by
  rw [iterate?, iterate?, hr]

theorem verdict_of_attempted_eq : verdict qp o m other = verdict qp o m region := by
  rw [verdict, verdict, iterate?_of_attempted_eq hr]

theorem solvesAfter_of_attempted_eq : solvesAfter qp o m other = solvesAfter qp o m region := by
  rw [solvesAfter, solvesAfter, iterate?_of_attempted_eq hr]

theorem fieldAfter_of_attempted_eq (k : Nat) (field : OutputField) :
    fieldAfter qp o m other k field = fieldAfter qp o m region k field := by
  simp only [fieldAfter, iterate?_of_attempted_eq hr]

end Region

/-- A failure is a verdict without a solution. -/
theorem verdict_eq_qpFailure_iff :
    verdict qp o m region = .qpFailure ↔ iterate? qp o m region = none := by
  unfold verdict
  cases iterate? qp o m region with
  | none => simp
  | some it => cases hf : it.solution.isFinite <;> simp [hf]

/-- With inequalities the verdict is a failure. -/
theorem verdict_of_constrained (hc : qp.shape.isConstrained = true) :
    verdict qp o m region = .qpFailure := by
  rw [verdict_eq_qpFailure_iff, iterate?, hc]
  rfl

/-- The verdict is a success exactly if a finite solution is found. -/
theorem verdict_eq_success_iff :
    verdict qp o m region = .success ↔
      ∃ it, iterate? qp o m region = some it ∧ it.solution.isFinite = true := by
  unfold verdict
  cases iterate? qp o m region with
  | none => simp
  | some it => cases hf : it.solution.isFinite <;> simp [hf]

/-- A solution is there only for a program without inequalities. -/
theorem iterate?_eq_some_iff {it : Iterate Binary64 m.order} :
    iterate? qp o m region = some it ↔
      qp.shape.isConstrained = false ∧ (attempted qp o m region).result = some it := by
  rw [iterate?]
  cases qp.shape.isConstrained <;> simp

/-- The solves that a region counts, after one more. -/
theorem solves_regionAfter (h : Fitted shape m region) :
    (m.stateOf (regionAfter qp o m region)).solves =
      if qp.shape.isConstrained then (m.stateOf region).solves
      else if verdict qp o m region = .success then (m.stateOf region).solves + 1
      else 0 := by
  cases hq : qp.shape.isConstrained with
  | true => simp [regionAfter, hq]
  | false =>
      cases hr : (attempted qp o m region).result with
      | none =>
          have hv : verdict qp o m region = .qpFailure :=
            verdict_eq_qpFailure_iff.2 ((iterate?_eq hq _).trans hr)
          simp [stateOf_regionAfter_of_none h hq hr, hv]
      | some it =>
          have hit : iterate? qp o m region = some it := (iterate?_eq hq _).trans hr
          rw [stateOf_regionAfter_of_some h hq hr, verdict, hit]
          cases hf : it.solution.isFinite <;> simp [hf]

/-- The slices of a solution that a stage gets make up the solution: those of the
variables of all stages, and then those of the multipliers of all stages. -/
theorem flatMap_places {shape : Shape} {n : Nat} (hn : n = shape.order) (x : Coords Binary64 n) :
    ((List.range (shape.horizon + 1)).flatMap fun k =>
        (x.toArray.extract (Problem.place shape k).z
          ((Problem.place shape k).z + (Problem.place shape k).nv)).toList) ++
      ((List.range (shape.horizon + 1)).flatMap fun k =>
        (x.toArray.extract (Problem.place shape k).e
          ((Problem.place shape k).e + (Problem.place shape k).ne)).toList) = x.toArray.toList := by
  have hlen : x.toArray.toList.length = shape.order := by simp [hn]
  have hux := flatMap_slices x.toArray.toList shape.nv 0 (shape.horizon + 1)
  have hpi := flatMap_slices x.toArray.toList shape.dynamics shape.totalVariables
    (shape.horizon + 1)
  have hslice (a c : Nat) : (x.toArray.extract a (a + c)).toList =
      (x.toArray.toList.drop a).take c := by
    simp [Array.toList_extract, List.extract_eq_take_drop]
  simp only [Nat.zero_add, List.drop_zero] at hux
  simp only [hslice, Problem.place, Shape.variablesBefore, Shape.dynamicsBefore, hux, hpi]
  -- The last stage has no dynamics, so what is left past the variables is all of it.
  have hrest : (x.toArray.toList.drop shape.totalVariables).length =
      Shape.sumBefore shape.dynamics (shape.horizon + 1) := by
    have htotal : shape.totalDynamics =
        Shape.sumBefore shape.dynamics (shape.horizon + 1) := shape.totalDynamics_eq
    rw [List.length_drop, hlen, ← htotal]
    exact Nat.add_sub_cancel_left ..
  rw [← hrest, List.take_length]
  exact List.take_append_drop shape.totalVariables _

/-- The variables of all stages and then the multipliers of all stages are the solution. -/
theorem stacked_fieldAfter (horder : m.order = qp.shape.order) {it : Iterate Binary64 m.order}
    (hit : iterate? qp o m region = some it) :
    ((List.range (qp.shape.horizon + 1)).flatMap
        fun k => (fieldAfter qp o m region k .ux).toList) ++
      ((List.range (qp.shape.horizon + 1)).flatMap
        fun k => (fieldAfter qp o m region k .pi).toList) = it.solution.toArray.toList := by
  simp only [fieldAfter_ux hit, fieldAfter_pi hit]
  exact flatMap_places horder it.solution

end Dense

end StageQp
