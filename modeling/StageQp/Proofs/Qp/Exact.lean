import StageQp.Proofs.Kkt.Place
import StageQp.Proofs.Procedure
import StageQp.Proofs.Qp.StageData

/-!
# StageQp.Proofs.Qp.Exact

The layout of a record is exact.  Its blocks stand stage by stage and in the order
of the fields, each of the bytes the field asks for, and leave no word of the record
out and none to two of them (`Layout.Exact`); the record ends on its size in closed
form, so a buffer of that size is taken and every other refused
(`record_layouts_exact`).

The entries of a solution are as many as the linear system has rows.
-/

namespace StageQp

open Procedure

namespace Layout

variable {Φ : Type} [StageFields Φ]

/-- The layout of a shape, without gaps and without overlap. -/
structure Exact (l : Layout Φ) (shape : Shape) : Prop where
  shape_eq : l.shape = shape
  total_eq : l.total = StageFields.size Φ shape
  lead_len : l.lead.len = StageFields.leadBytes Φ
  blocks_eq : l.blocks.map some = (List.range (shape.horizon + 1)).flatMap fun k =>
    (StageFields.all : List Φ).map (l.block? k)
  lengths_eq : l.blocks.map Block.len = StageFields.lengths Φ shape
  tiles : Tiles 0 (l.lead :: l.blocks) l.total

/-- The layout of a shape has every field of every stage, tiled and in order. -/
theorem exact_ofShape [LawfulStageFields Φ] (shape : Shape)
    (h : (StageFields.all : List Φ).map StageFields.index =
      List.range (StageFields.all : List Φ).length) : (ofShape Φ shape).Exact shape where
  shape_eq := rfl
  total_eq := total_eq_size shape
  lead_len := rfl
  blocks_eq := map_some_blocks shape h
  lengths_eq := map_len_blocks shape
  tiles := tiles_ofShape shape

end Layout

/-! ## Records of their own -/

namespace StageData

variable {Φ : Type} [StageFields Φ]

/-- A layout is made for the shape and is exact; a record of its own is made over it,
on any buffer of its size and on no other. -/
structure LaidExactly (Φ : Type) [StageFields Φ] (shape : Shape) : Prop where
  layout {σ : Type} (value : σ) (j : Journal) : ∃ l : Layout Φ,
    outcome (Layout.assign Φ shape) value j = (.ok l, ⟨value, j⟩) ∧ l.Exact shape
  made {σ : Type} (value : σ) (j : Journal) : ∃ d : StageData Φ,
    outcome (zeroed Φ shape) value j = (.ok d, ⟨value, j⟩) ∧ d.layout.Exact shape
  assigned : AssignsExactly (StageFields.size Φ shape) (assign Φ shape)
    fun d => d.layout.Exact shape

variable [LawfulStageFields Φ] {σ : Type} {shape : Shape} {words : Words}

/-- On words of the computed size, a record is assigned. -/
theorem outcome_assign (h : Words.byteSize words = StageFields.size Φ shape) (value : σ)
    (j : Journal) :
    outcome (assign Φ shape words) value j = (.ok ⟨.ofShape Φ shape, words⟩, ⟨value, j⟩) := by
  rw [← Layout.total_eq_size] at h
  simp only [assign, outcome_bind, Layout.outcome_assign, (Words.expectBytes_eq_ok_iff _ _).2 h,
    outcome_check_ok, outcome_pure]

/-- Words of any other size are refused with both sizes. -/
theorem outcome_assign_of_ne (h : Words.byteSize words ≠ StageFields.size Φ shape) (value : σ)
    (j : Journal) : outcome (assign Φ shape words) value j =
      (.error (.fault (.bufferSize (Words.byteSize words) (StageFields.size Φ shape))),
        ⟨value, j⟩) := by
  rw [← Layout.total_eq_size] at h ⊢
  simp only [assign, outcome_bind, Layout.outcome_assign, Words.expectBytes_of_ne h,
    outcome_check_error]

/-- A zero record of its own is the blank one. -/
theorem outcome_zeroed (shape : Shape) (value : σ) (j : Journal) :
    outcome (zeroed Φ shape) value j = (.ok (blank Φ shape), ⟨value, j⟩) :=
  outcome_assign ((Words.byteSize_zeroed _).trans (alignUp_of_mod (Layout.size_mod Φ shape)))
    value j

/-- Records of a shape are laid out exactly. -/
theorem laidExactly (shape : Shape)
    (h : (StageFields.all : List Φ).map StageFields.index =
      List.range (StageFields.all : List Φ).length) : LaidExactly Φ shape where
  layout value j := ⟨_, Layout.outcome_assign shape value j, Layout.exact_ofShape shape h⟩
  made value j := ⟨_, outcome_zeroed shape value j, Layout.exact_ofShape shape h⟩
  assigned := .of_outcomes
    (fun hw j => ⟨_, j, outcome_assign hw () j, Layout.exact_ofShape shape h⟩)
    fun hw j => outcome_assign_of_ne hw () j

end StageData

/-! ## Entries and rows -/

/-- A sum over the stages up to one. -/
theorem Shape.sum_map_range (f : Nat → Nat) (n : Nat) :
    ((List.range n).map f).sum = sumBefore f n := by
  induction n with
  | zero => rfl
  | succ n ih => simp [List.range_succ, sumBefore, ih]

/-- The entries of a field in all stages of a record. -/
def StageData.entries {Φ : Type} [StageFields Φ] (d : StageData Φ) (field : Φ) : Nat :=
  ((List.range (d.shape.horizon + 1)).map fun k => (d.getD k field).size).sum

/-- A field has the entries of all stages together. -/
theorem StageData.Valid.entries_eq {Φ : Type} [StageFields Φ] [LawfulStageFields Φ]
    {d : StageData Φ} (hv : d.Valid) (field : Φ) : d.entries field =
      Shape.sumBefore (fun k => StageFields.count d.shape k field) (d.shape.horizon + 1) := by
  rw [entries, ← Shape.sum_map_range]
  refine congrArg List.sum (List.map_congr_left fun k hk => ?_)
  exact hv.size_getD (Nat.le_of_lt_succ (List.mem_range.1 hk)) field

/-- The records of a program and of its solution are laid out exactly over every shape,
and a solution has an entry for each row of the linear system: the variables of all
stages, and a multiplier for each equation. -/
theorem record_layouts_exact (shape : Shape) :
    StageData.LaidExactly InputField shape ∧ StageData.LaidExactly OutputField shape ∧
    ∀ j, ∃ d : QpOutput, outcome (StageData.zeroed OutputField shape) () j = (.ok d, ⟨(), j⟩) ∧
      d.entries .ux = shape.totalVariables ∧ d.entries .pi = shape.totalDynamics := by
  refine ⟨StageData.laidExactly shape rfl, StageData.laidExactly shape rfl, fun j => ?_⟩
  have hv := StageData.valid_blank (Φ := OutputField) shape
  refine ⟨.blank OutputField shape, StageData.outcome_zeroed shape () j, ?_, ?_⟩
  · exact hv.entries_eq .ux
  · rw [hv.entries_eq, Shape.totalDynamics_eq]
    rfl

end StageQp
