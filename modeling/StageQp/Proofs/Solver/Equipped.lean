import StageQp.Proofs.Shape.Record
import StageQp.Proofs.Solver.Reach
import StageQp.Proofs.Solver.ShapeStore

/-!
# StageQp.Proofs.Solver.Equipped

What a solve of the bundled solver is handed: a shape, options and memory that calls led
to, records of that shape, and scratch enough (`Solver.Equipped`).  There is all that for
every shape that calls lead to and every program over it (`Solver.equipped_of_reached`).

Over one control it is all given in full (`Solver.equipped_oneControl`), so that a solve can
be computed.
-/

namespace StageQp

open Procedure

/-- One control in the first stage, and nothing in the others. -/
def Shape.firstControl (n : Nat) : Shape := (blank n).edit 0 .nu 1

theorem Shape.horizon_firstControl (n : Nat) : (firstControl n).horizon = n :=
  (horizon_edit ..).trans (horizon_blank n)

theorem Shape.nv_firstControl {n k : Nat} (hk : k ≤ n) :
    (firstControl n).nv k = if k = 0 then 1 else 0 := by
  rw [nv, firstControl, stage_edit _ (by rwa [horizon_blank]), stage_blank]
  by_cases h : k = 0
  · subst h
    rfl
  · rw [if_neg (Ne.symm h), if_neg h]
    rfl

namespace Solver

/-- Calls led to the shape, the options and the memory of a solve, the records have that
shape, and there is scratch enough. -/
structure Equipped (shape : Shape) (qp : QpInput) (options : OptionStore)
    (d : SolveDesk IdentityMemory DenseMemory) : Prop where
  dims : ∃ dims, ShapeStore.Reached shape.horizon dims ∧
    dims.shapes identity = .ok ⟨shape, shape⟩
  options : OptionStore.Reached ⟨shape, shape⟩ options
  memory : SolverMemory.Reached ⟨shape, shape⟩ d.memory
  qp_valid : qp.Valid
  qp_shape : qp.shape = shape
  output_valid : d.output.Valid
  output_shape : d.output.shape = shape
  work (env : Environment) (so : IdentityOptions) (bo : DenseOptions) :
    Overlay.size (.bundled env) ⟨shape, shape⟩ so bo ≤ Words.byteSize d.work

/-- Options and memory that calls led to, a record of zeros and as much scratch as is asked
for do for any program. -/
theorem equipped_of_reached {shape : Shape} {dims : ShapeStore IdentityDims}
    (hdims : ShapeStore.Reached shape.horizon dims)
    (hshapes : dims.shapes identity = .ok ⟨shape, shape⟩) {options : OptionStore}
    (hoptions : OptionStore.Reached ⟨shape, shape⟩ options)
    {memory : SolverMemory IdentityMemory DenseMemory}
    (hmemory : SolverMemory.Reached ⟨shape, shape⟩ memory) {qp : QpInput} (hq : qp.Valid)
    (hqs : qp.shape = shape) :
    Equipped shape qp options ⟨.blank OutputField shape, memory,
      .zeroed (Overlay.size (.bundled {}) ⟨shape, shape⟩ ⟨0, 0⟩ ⟨0, 0, 0, 0⟩)⟩ where
  dims := ⟨dims, hdims, hshapes⟩
  options := hoptions
  memory := hmemory
  qp_valid := hq
  qp_shape := hqs
  output_valid := StageData.valid_blank shape
  output_shape := rfl
  work env so bo := by
    -- the scratch that is asked for depends on the shape alone
    have hwork : Overlay.size (.bundled env) ⟨shape, shape⟩ so bo =
        Overlay.size (.bundled {}) ⟨shape, shape⟩ ⟨0, 0⟩ ⟨0, 0, 0, 0⟩ := rfl
    rw [hwork]
    exact Nat.le_of_eq (Overlay.divide_exact ..).byteSize_zeroed.symm

/-- Calls lead to a shape whose first stage has a control, and the others nothing. -/
theorem exists_reached_firstControl (n : Nat) :
    ∃ dims, ShapeStore.Reached (Shape.firstControl n).horizon dims ∧
      dims.shapes identity = .ok ⟨.firstControl n, .firstControl n⟩ := by
  obtain ⟨blank, j, hassign, hblank⟩ := ShapeStore.outcome_assign
    (ShapeStore.carve_exact identity n).byteSize_zeroed () {}
  obtain ⟨dims, hset, hholds⟩ := hblank.outcome_set (Nat.zero_le _) .nu 1 {}
  have hdims := (ShapeStore.Reached.assign hassign).set 0 .nu 1 {}
  rw [hset, ← Shape.horizon_firstControl n] at hdims
  exact ⟨dims, hdims, hholds.shapes_eq⟩

/-- So there is all that a solve asks for over such a shape, with fresh memory. -/
theorem exists_equipped_firstControl (n : Nat) :
    ∃ qp options d, Equipped (.firstControl n) qp options d ∧
      d.memory.Fresh ⟨.firstControl n, .firstControl n⟩ := by
  obtain ⟨dims, hdims, hshapes⟩ := exists_reached_firstControl n
  obtain ⟨options, hoptions, -⟩ := OptionStore.outcome_assign (OptionStore.carve_exact
    (.bundled {}) ⟨.firstControl n, .firstControl n⟩).byteSize_zeroed () {}
  obtain ⟨memory, j, hmemory⟩ := SolverMemory.exists_assign {} ⟨.firstControl n, .firstControl n⟩
    ⟨0, 0⟩ ⟨0, 0, 0, 0⟩
  exact ⟨.blank InputField (.firstControl n), options, _, equipped_of_reached hdims hshapes
    (.assign hoptions) (.assign hmemory) (StageData.valid_blank _) rfl,
    (SolverMemory.fresh_of_assign hmemory).2⟩

end Solver

/-! ## One control -/

/-- Options as they are laid out. -/
def OptionStore.fresh : OptionStore :=
  ⟨⟨96, 16⟩, ⟨112, 32⟩, (Block.mk 0 96).setRecords (.zeroed 144)
    #[RecordHeader.make tag 144 [⟨96, 16⟩, ⟨112, 32⟩]]⟩

/-- The options that a solve over one control starts from. -/
def OptionStore.oneControl : OptionStore :=
  (outcome (setDefaults (Solver.bundled {}) ⟨.firstControl 0, .firstControl 0⟩) fresh {}).2.value

/-- Memory over one control as it is laid out. -/
def SolverMemory.oneControl : SolverMemory IdentityMemory DenseMemory :=
  let layout := (carve (.bundled {}) ⟨.firstControl 0, .firstControl 0⟩ ⟨0, 0⟩ ⟨0, 0, 0, 0⟩).1
  onWords ⟨.firstControl 0, .firstControl 0⟩ layout (laidOut layout #[0])

/-- That memory, with a record of zeros and as much scratch as is asked for. -/
def SolveDesk.oneControl : SolveDesk IdentityMemory DenseMemory :=
  ⟨.blank OutputField (.firstControl 0), .oneControl, .zeroed (Overlay.size (.bundled {})
    ⟨.firstControl 0, .firstControl 0⟩ ⟨0, 0⟩ ⟨0, 0, 0, 0⟩)⟩

/-- The program `rsq u²/2 - u` over one control. -/
def QpInput.oneControl (rsq : Binary64) : QpInput :=
  ⟨.ofShape InputField (.firstControl 0), #[rsq.bits, 0xbff0000000000000]⟩

theorem QpInput.valid_oneControl (rsq : Binary64) : (oneControl rsq).Valid where
  layout_eq := rfl
  total_le := by
    show (Layout.ofShape InputField (.firstControl 0)).total ≤ 2 * 8
    decide +kernel

/-- All that a solve asks for over one control. -/
theorem Solver.equipped_oneControl (rsq : Binary64) :
    Equipped (.firstControl 0) (.oneControl rsq) .oneControl .oneControl := by
  obtain ⟨dims, hdims, hshapes⟩ := exists_reached_firstControl 0
  have hoptions : (outcome (OptionStore.assign (.bundled {}) ⟨.firstControl 0, .firstControl 0⟩
      (.zeroed 144)) () {}).1 = .ok .fresh := by decide +kernel
  have hmemory : (outcome (SolverMemory.assign (.bundled {}) ⟨.firstControl 0, .firstControl 0⟩
      ⟨0, 0⟩ ⟨0, 0, 0, 0⟩ (.zeroed (SolverMemory.size (.bundled {})
        ⟨.firstControl 0, .firstControl 0⟩ ⟨0, 0⟩ ⟨0, 0, 0, 0⟩))) () {}).1 =
      .ok .oneControl := by decide +kernel
  exact equipped_of_reached hdims hshapes (.setDefaults (.assign (Prod.ext hoptions rfl)) {} {})
    (.assign (Prod.ext hmemory rfl)) (QpInput.valid_oneControl rsq) rfl

end StageQp
