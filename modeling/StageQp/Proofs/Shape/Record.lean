import StageQp.Proofs.Storage.Record
import StageQp.Shape.Record

/-!
# StageQp.Proofs.Shape.Record

Shapes that are held in words.  Zero words hold the shape of empty stages
(`getRecord_replicate`), and setting a dimension in the words sets it in the
shape they hold (`setField_eq_ok`).
-/

namespace StageQp

instance : LawfulRecord StageDims :=
  Record.lawful_ofWords (fun _ => rfl)
    (fun f g h => by simp [StageDims.ofWords, h 0, h 1, h 2, h 3, h 4]) (fun _ => rfl)

namespace Shape

/-- The shape with horizon `n` and empty stages. -/
def blank (n : Nat) : Shape := ⟨.replicate (n + 1) {}, by simp⟩

/-- The shape with one dimension of one stage replaced. -/
def edit (s : Shape) (stage : Nat) (field : DimField) (value : UInt64) : Shape :=
  ⟨s.stages.modify stage fun dims => dims.set field value, by simpa using s.size_pos⟩

/-- Two stages, the first of them empty and the second with one state. -/
def lateState : Shape := (blank 1).edit 1 .nx 1

theorem ext {s t : Shape} (h : s.stages = t.stages) : s = t := by
  cases s
  cases t
  cases h
  rfl

/-- All stages of a blank shape are empty. -/
theorem stage_blank (n k : Nat) : (blank n).stage k = {} := by
  by_cases hk : k < n + 1
  · simp [stage, blank, hk]
  · simp [stage, blank, hk]
    rfl

/-- A stage of a shape with one dimension replaced. -/
theorem stage_edit (s : Shape) {k : Nat} (hk : k ≤ s.horizon) (stage : Nat) (field : DimField)
    (value : UInt64) : (s.edit stage field value).stage k =
      if stage = k then (s.stage k).set field value else s.stage k := by
  have hsize : k < s.stages.size := by
    have := s.size_pos
    unfold horizon at hk
    omega
  by_cases h : stage = k <;> simp [edit, Shape.stage, hsize, Array.getElem_modify, h]

theorem horizon_blank (n : Nat) : (blank n).horizon = n := by
  simp [horizon, blank]

/-- Replacing a dimension keeps the horizon. -/
theorem horizon_edit (s : Shape) (stage : Nat) (field : DimField) (value : UInt64) :
    (s.edit stage field value).horizon = s.horizon := by
  simp [horizon, edit]

/-- Zero words are a shape of empty stages. -/
theorem getRecord_replicate (n words : Nat) : getRecord n (.replicate words 0) = blank n := by
  apply ext
  apply Array.ext
  · simp [getRecord, blank, Record.size_getAll]
  · intro i h1 h2
    have hz : ∀ k, (Array.replicate words (0 : UInt64)).getD k 0 = 0 := by
      intro k
      rw [Array.getD_eq_getD_getElem?, Array.getElem?_replicate]
      split <;> rfl
    simp [getRecord, blank, Record.getAll, Record.get, StageDims.ofWords, hz]

/-- A record of a shape has room for its stages. -/
theorem bytes_le_recordBytes (n : Nat) : (n + 1) * Record.bytes StageDims ≤ recordBytes n :=
  le_alignUp _

/-- Words that are enough for a shape hold one. -/
theorem ofWords_eq_ok {n : Nat} {w : Words} (h : recordBytes n ≤ Words.byteSize w) :
    ofWords n w = .ok (getRecord n w) := by
  have hc := (Record.check_eq_ok_iff (α := StageDims) w (n + 1)).2
    (Nat.le_trans (bytes_le_recordBytes n) h)
  rw [ofWords, hc]
  rfl

/-- Setting a dimension of a stage in words that hold a shape. -/
theorem setField_eq_ok {n : Nat} {w : Words} (h : recordBytes n ≤ Words.byteSize w) {stage : Nat}
    (hs : stage ≤ n) (field : DimField) (value : UInt64) :
    ∃ v, setField n w stage field value = .ok v ∧ v.size = w.size ∧
      getRecord n v = (getRecord n w).edit stage field value := by
  have hbytes := Nat.le_trans (bytes_le_recordBytes n) h
  have hc := (Record.check_eq_ok_iff (α := StageDims) w (n + 1)).2 hbytes
  refine ⟨Record.set w stage ((Record.get w stage : StageDims).set field value), ?_,
    LawfulRecord.size_set .., ?_⟩
  · rw [setField, if_neg (by omega), hc]
    rfl
  · apply ext
    apply Array.ext
    · simp [getRecord, edit, Record.size_getAll]
    · intro i h1 h2
      have hi : (stage + 1) * Record.bytes StageDims ≤ Words.byteSize w :=
        Nat.le_trans (Nat.mul_le_mul_right _ (by omega)) hbytes
      by_cases hik : stage = i
      · subst hik
        simp [getRecord, edit, Record.getAll, Array.getElem_modify_self,
          LawfulRecord.get_set_self _ _ _ hi]
      · simp [getRecord, edit, Record.getAll, Array.getElem_modify, hik,
          LawfulRecord.get_set_of_ne _ _ _ _ hik]

/-- There is no stage past the horizon to set. -/
theorem setField_of_lt {n stage : Nat} (h : n < stage) (w : Words) (field : DimField)
    (value : UInt64) : setField n w stage field value =
      .error (.invalidDimension (.stageOutOfRange stage n)) := by
  rw [setField, if_pos h]
  rfl

end Shape

end StageQp
