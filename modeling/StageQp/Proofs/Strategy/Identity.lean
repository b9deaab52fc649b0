import StageQp.Proofs.Procedure
import StageQp.Proofs.Qp.StageData
import StageQp.Proofs.Shape.Record
import StageQp.Strategy.Identity

/-!
# StageQp.Proofs.Strategy.Identity

What the strategy that keeps every stage does.  Its regions are laid out exactly,
its map of stages names every stage in order, condensing makes every field that
of the program (`outcome_condense`), and expanding makes every field that of the
condensed solution, with the multipliers zero unless asked for
(`outcome_expand`).

Stages are named by 32-bit indices, so the map names them all only up to a
horizon below `2 ^ 32`.
-/

namespace StageQp

open Procedure
open StageFields (EntryOf)

instance : LawfulRecord IdentityOptions :=
  Record.lawful_ofWords (fun _ => rfl)
    (fun f g h => by simp [IdentityOptions.ofWords, h 0, h 1]) (fun _ => rfl)

namespace Identity

/-! ## Layouts -/

/-- The bytes of a shape record are whole words. -/
theorem alignUp_recordBytes (n : Nat) : alignUp (Shape.recordBytes n) = Shape.recordBytes n :=
  alignUp_alignUp _

/-- The two shapes tile their region. -/
theorem tiles_carveDims (n : Nat) :
    Tiles 0 [(carveDims n).1.full, (carveDims n).1.condensed] (dimsSize n) := by
  have h := Carver.tiles_takeAll (c := {}) rfl [Shape.recordBytes n, Shape.recordBytes n]
  rw [Carver.cursor_takeAll] at h
  have hs := alignUp_recordBytes n
  simp only [List.map_cons, List.map_nil, List.sum_cons, List.sum_nil, hs, Nat.zero_add,
    Nat.add_zero, ← Nat.two_mul] at h
  exact h

theorem cursor_carveDims (n : Nat) : (carveDims n).2.cursor = dimsSize n := by
  have hs := alignUp_recordBytes n
  show 0 + alignUp (Shape.recordBytes n) + alignUp (Shape.recordBytes n) =
    2 * Shape.recordBytes n
  omega

theorem alignUp_dimsSize (n : Nat) : alignUp (dimsSize n) = dimsSize n :=
  alignUp_of_mod ((tiles_carveDims n).stop_mod rfl)

/-- Laying out the two shapes leaves zero words as they are. -/
theorem outcome_dimsAssign (n : Nat) (j : Journal) :
    outcome (dimsAssign n) (.zeroed (dimsSize n)) j =
      (.ok (carveDims n).1, ⟨.zeroed (dimsSize n), j⟩) := by
  have hs := (tiles_carveDims n).spaced
  rw [← alignUp_dimsSize, ← Words.byteSize_zeroed] at hs
  have hc := Block.clearAll_zeroed fun b hb => hs.fits hb
  simp only [dimsAssign, outcome_bind, outcome_finish (cursor_carveDims n), outcome_fetch, hc,
    outcome_check_ok, outcome_store, outcome_pure]

/-- The two shapes are spaced within a region of their size. -/
theorem dims_spaced {n : Nat} {region : Words} (h : Words.byteSize region = dimsSize n) :
    Spaced 0 [(carveDims n).1.full, (carveDims n).1.condensed] (Words.byteSize region) := by
  rw [h]
  exact (tiles_carveDims n).spaced

/-- Setting a dimension in one block of the record. -/
theorem outcome_setIn {n : Nat} {b : Block} {region : Words} (hf : b.Fits region)
    (hb : b.len = Shape.recordBytes n) {stage : Nat} (hs : stage ≤ n) (field : DimField)
    (value : UInt64) (j : Journal) :
    ∃ own, outcome (setIn n b stage field value) region j = (.ok (), ⟨b.put region own, j⟩) ∧
      own.size = b.span / 8 ∧
      Shape.getRecord n own = (Shape.getRecord n (b.part region)).edit stage field value := by
  have hbytes : Shape.recordBytes n ≤ Words.byteSize (b.part region) := by
    rw [Block.byteSize_part hf, ← hb]
    exact le_alignUp _
  obtain ⟨own, hset, hsize, hshape⟩ := Shape.setField_eq_ok hbytes hs field value
  refine ⟨own, ?_, by rw [hsize, Block.size_part hf], hshape⟩
  simp only [setIn, outcome_bind, outcome_fetch, hf.slice, hset, outcome_check_ok, outcome_store]

/-- Setting a dimension sets it in both shapes. -/
theorem outcome_dimsSet {n : Nat} {region : Words} (h : Words.byteSize region = dimsSize n)
    {stage : Nat} (hs : stage ≤ n) (field : DimField) (value : UInt64) (j : Journal) :
    ∃ v, outcome (dimsSet (carveDims n).1 stage field value) region j = (.ok (), ⟨v, j⟩) ∧
      v.size = region.size ∧
      Shape.getRecord n ((carveDims n).1.full.part v) =
        (Shape.getRecord n ((carveDims n).1.full.part region)).edit stage field value ∧
      Shape.getRecord n ((carveDims n).1.condensed.part v) =
        (Shape.getRecord n ((carveDims n).1.condensed.part region)).edit stage field value := by
  have hspaced := dims_spaced h
  have hfull : (carveDims n).1.full.Fits region := hspaced.fits (by simp)
  have hcond : (carveDims n).1.condensed.Fits region := hspaced.fits (by simp)
  have hapart : (carveDims n).1.full.Apart (carveDims n).1.condensed :=
    hspaced.apart (i := 0) (j := 1) rfl rfl (by decide)
  obtain ⟨p, hp, hps, hpshape⟩ := outcome_setIn hfull rfl hs field value j
  obtain ⟨q, hq, hqs, hqshape⟩ := outcome_setIn (hcond.put (b := (carveDims n).1.full) (p := p))
    rfl hs field value j
  refine ⟨(carveDims n).1.condensed.put ((carveDims n).1.full.put region p) q, ?_, ?_, ?_, ?_⟩
  · exact (outcome_bind_ok hp _).trans hq
  · rw [Block.size_put, Block.size_put]
  · rw [Block.part_put_of_apart hcond.1 hfull.put hapart.symm (Nat.le_of_eq hqs),
      Block.part_put hfull hps, hpshape]
  · rw [Block.part_put hcond.put hqs, hqshape,
      Block.part_put_of_apart hfull.1 hcond hapart (Nat.le_of_eq hps)]

/-- The memory of the strategy is the map of stages. -/
theorem cursor_carveMemory (stages : Nat) :
    (carveMemory stages).2.cursor = indexBytes stages := by
  show 0 + alignUp _ = alignUp _
  rw [Nat.zero_add]
  rfl

/-- The map of stages fills a region of its size. -/
theorem stageMap_fits {stages : Nat} {region : Words}
    (h : Words.byteSize region = indexBytes stages) :
    (carveMemory stages).1.stageMap.Fits region := by
  refine ⟨rfl, ?_⟩
  rw [h]
  show 0 + alignUp _ ≤ alignUp _
  rw [Nat.zero_add]
  exact Nat.le_refl _

/-- The map has a number for every stage. -/
theorem count_stageMap (stages : Nat) :
    (carveMemory stages).1.stageMap.count UInt32 = stages :=
  Nat.mul_div_cancel stages (by decide)

/-- The map of stages is laid out in a region that holds it, and names every stage in order. -/
theorem outcome_memoryAssign_of_fits {shapes : ShapePair} {region : Words}
    (hf : (carveMemory (shapes.condensed.horizon + 1)).1.stageMap.Fits region) (j : Journal) :
    ∃ v, outcome (memoryAssign shapes) region j =
        (.ok (carveMemory (shapes.condensed.horizon + 1)).1, ⟨v, j⟩) ∧
      v.size = region.size ∧
      (carveMemory (shapes.condensed.horizon + 1)).1.stages v = .ok
        ((List.range (shapes.condensed.horizon + 1)).map fun k => (UInt32.ofNat k).toNat) := by
  have hc := hf.clear
  let map := (carveMemory (shapes.condensed.horizon + 1)).1.stageMap
  have hcur : (carveMemory (shapes.condensed.horizon + 1)).2.cursor = memorySize shapes :=
    cursor_carveMemory _
  refine ⟨map.setRecords (map.put region (.replicate (map.span / 8) 0))
    ((Array.range (shapes.condensed.horizon + 1)).map UInt32.ofNat), ?_, ?_, ?_⟩
  · simp only [memoryAssign, outcome_bind, outcome_finish hcur, outcome_fetch, hc,
      outcome_check_ok, outcome_store, outcome_pure]
    rfl
  · rw [Block.size_setRecords, Block.size_put]
  · rw [IdentityMemory.stages, (hf.put.setRecords).check]
    show Except.ok _ = Except.ok _
    rw [Block.records_setRecords hf.put (by simp [count_stageMap])]
    simp [Array.toList_range]

/-- A region of the size of the map holds it. -/
theorem outcome_memoryAssign {shapes : ShapePair} {region : Words}
    (h : Words.byteSize region = memorySize shapes) (j : Journal) :
    ∃ v, outcome (memoryAssign shapes) region j =
        (.ok (carveMemory (shapes.condensed.horizon + 1)).1, ⟨v, j⟩) ∧
      v.size = region.size ∧
      (carveMemory (shapes.condensed.horizon + 1)).1.stages v = .ok
        ((List.range (shapes.condensed.horizon + 1)).map fun k => (UInt32.ofNat k).toNat) :=
  outcome_memoryAssign_of_fits (stageMap_fits h) j

/-- Where the map could be laid out, it names every stage in order. -/
theorem stages_of_memoryAssign {shapes : ShapePair} {region : Words} {j : Journal}
    {m : IdentityMemory} {t : Noted Words}
    (h : outcome (memoryAssign shapes) region j = (.ok m, t)) : m.stages t.value = .ok
      ((List.range (shapes.condensed.horizon + 1)).map fun k => (UInt32.ofNat k).toNat) := by
  have hcur : (carveMemory (shapes.condensed.horizon + 1)).2.cursor = memorySize shapes :=
    cursor_carveMemory _
  cases hclear : (carveMemory (shapes.condensed.horizon + 1)).1.stageMap.clear region with
  | error f =>
      simp only [memoryAssign, outcome_bind, outcome_finish hcur, outcome_fetch, hclear,
        outcome_check_error] at h
      cases h
  | ok cleared =>
      obtain ⟨v, hv, -, hstages⟩ := outcome_memoryAssign_of_fits (Block.fits_of_clear hclear) j
      rw [hv] at h
      cases h
      exact hstages

/-- The numbers that a map holds have 32 bits. -/
theorem lt_of_stages_eq_ok {m : IdentityMemory} {region : Words} {numbers : List Nat}
    (h : m.stages region = .ok numbers) {k : Nat} (hk : k ∈ numbers) : k < 2 ^ 32 := by
  rw [IdentityMemory.stages] at h
  cases hcheck : m.stageMap.check (Words.byteSize region) with
  | error f =>
      rw [hcheck] at h
      cases h
  | ok =>
      rw [hcheck] at h
      cases h
      obtain ⟨n, -, rfl⟩ := List.mem_map.1 hk
      exact n.toNat_lt

/-! ## Data -/

/-- Numbers of 32 bits name all stages up to a horizon that fits in them, and no further. -/
theorem map_toNat_ofNat_iff (n : Nat) :
    ((List.range (n + 1)).map fun k => (UInt32.ofNat k).toNat) = List.range (n + 1) ↔
      n < 2 ^ 32 := by
  constructor
  · intro h
    have hk := congrArg (·[n]?) h
    simp only [List.getElem?_map, List.getElem?_range (Nat.lt_succ_self n), Option.map_some,
      Option.some.injEq, UInt32.toNat_ofNat'] at hk
    omega
  · intro h
    refine (List.map_congr_left fun k hk => ?_).trans (List.map_id _)
    rw [UInt32.toNat_ofNat']
    exact Nat.mod_eq_of_lt (Nat.lt_of_lt_of_le (List.mem_range.1 hk) h)

theorem zipIdx_range (n : Nat) :
    (List.range n).zipIdx = (List.range n).map fun k => (k, k) := by
  apply List.ext_getElem
  · simp
  · intro i h1 h2
    simp

/-- Condensing makes every field of the record that of the program. -/
theorem outcome_condense {qp : QpInput} {m : IdentityMemory} (desk : Desk QpInput)
    (hq : qp.Valid) (hr : desk.record.Valid) (hs : qp.shape = desk.record.shape)
    (hm : m.stages desk.region = .ok (List.range (qp.shape.horizon + 1))) (j : Journal) :
    ∃ r, outcome (condense qp m) desk j = (.ok (), ⟨{ desk with record := r }, j⟩) ∧
      desk.record.SameFrame r ∧ ∀ k field, r.getD k field = qp.getD k field := by
  have hsame : sameShape qp.shape desk.record.shape .condense = .ok () := by
    rw [sameShape, if_neg (by simpa using hs)]
  obtain ⟨r, hfold, hframe, hdone, -⟩ := StageData.foldlM_stages hr
    (fun r k => copyStage? qp r k k) (fun k g => qp.getD k g)
    (n := qp.shape.horizon + 1) (Nat.le_of_eq (by rw [hs])) (by
      intro r k hk hf hv _
      have hk' : k ≤ qp.shape.horizon := Nat.le_of_lt_succ hk
      have hrs : r.shape = qp.shape := hf.shape.trans hs.symm
      obtain ⟨e, he, hre, hcopied, hkept⟩ := StageData.foldlM_fields (k := k) hv (by rwa [hrs])
        (fun r f => r.copyField? k qp k f) (qp.getD k) InputField.all
        (fun r f _ _ => StageData.copyField?_eq_set? hq hk' r k f)
        (fun f _ => by rw [hq.size_getD hk', hrs])
      exact ⟨e, he, hre, fun g => hcopied g (LawfulStageFields.mem_all g),
        fun j g hj => hkept j g (.inl hj)⟩)
  refine ⟨r, ?_, hframe, ?_⟩
  · simp only [condense, outcome_bind, outcome_fetch, hsame, hm, outcome_check_ok, zipIdx_range,
      List.foldlM_map, hfold, outcome_need_some, outcome_store]
  · intro k field
    rcases Nat.lt_or_ge qp.shape.horizon k with hk | hk
    · rw [StageData.getD_of_horizon_lt hk, StageData.getD_of_horizon_lt]
      rwa [hframe.shape, ← hs]
    · exact hdone k field (Nat.lt_succ_of_le hk)

/-- What expanding writes to a field of a stage. -/
def expanded (duals : Bool) (condensed : QpOutput) (k : Nat) :
    (field : OutputField) → Array (EntryOf field)
  | .ux => condensed.getD k .ux
  | .t => condensed.getD k .t
  | .pi =>
    if duals then condensed.getD k .pi
    else .replicate (OutputField.count condensed.shape k .pi) (⟨0⟩ : Binary64)
  | .lam =>
    if duals then condensed.getD k .lam
    else .replicate (OutputField.count condensed.shape k .lam) (⟨0⟩ : Binary64)

/-- A field is handed on with as many entries as it has. -/
theorem size_expanded (duals : Bool) {condensed : QpOutput} (hv : condensed.Valid) {k : Nat}
    (hk : k ≤ condensed.shape.horizon) (field : OutputField) :
    (expanded duals condensed k field).size = OutputField.count condensed.shape k field := by
  cases field <;> cases duals <;> simp [expanded, hv.size_getD hk] <;> rfl

/-- The entries of a field of the condensed solution as they are handed on: the
multipliers are zero unless asked for. -/
def handedOn (duals : Bool) (shape : Shape) (k : Nat) (field : OutputField)
    (entries : Array Binary64) : Array Binary64 :=
  match field with
  | .ux | .t => entries
  | .pi | .lam => if duals then entries else .replicate (OutputField.count shape k field) ⟨0⟩

/-- What is handed on depends on the condensed field only. -/
theorem expanded_eq_handedOn (duals : Bool) (condensed : QpOutput) (k : Nat)
    (field : OutputField) : expanded duals condensed k field =
      handedOn duals condensed.shape k field (condensed.getD k field) := by
  cases field <;> rfl

/-- The part of expanding a stage that writes one field. -/
def expandField? (duals : Bool) (condensed : QpOutput) (k : Nat) (r : QpOutput)
    (field : OutputField) : Option QpOutput :=
  match field with
  | .ux | .t => r.copyField? k condensed k field
  | .pi | .lam =>
    if duals then r.copyField? k condensed k field else r.fill? k field (⟨0⟩ : Binary64)

/-- A stage is expanded field by field. -/
theorem expandStage?_eq_foldlM (duals : Bool) (condensed r : QpOutput) (k : Nat) :
    expandStage? duals condensed r k k =
      [OutputField.ux, .t, .pi, .lam].foldlM (expandField? duals condensed k) r := by
  cases duals with
  | true => simp [expandStage?, expandField?]
  | false =>
      simp only [expandStage?, expandField?, List.foldlM_cons, List.foldlM_nil, bind_pure,
        Bool.false_eq_true, if_false]
      rfl

/-- A field is expanded by writing what is handed on. -/
theorem expandField?_eq_set? (duals : Bool) {condensed r : QpOutput} (hc : condensed.Valid)
    (hr : r.Valid) (hs : r.shape = condensed.shape) {k : Nat} (hk : k ≤ condensed.shape.horizon)
    (field : OutputField) :
    expandField? duals condensed k r field = r.set? k field (expanded duals condensed k field) := by
  have hcopy : r.copyField? k condensed k field = r.set? k field (condensed.getD k field) :=
    StageData.copyField?_eq_set? hc hk r k field
  have hfill := StageData.fill?_eq_set? hr (by rwa [hs]) field (k := k)
  rw [hs] at hfill
  cases field with
  | ux => exact hcopy
  | t => exact hcopy
  | pi => cases duals with
    | true => exact hcopy
    | false => exact hfill _
  | lam => cases duals with
    | true => exact hcopy
    | false => exact hfill _

/-- Expanding one stage writes its four fields and no other stage. -/
theorem expandStage?_eq_some (duals : Bool) {condensed r : QpOutput} (hc : condensed.Valid)
    (hr : r.Valid) (hs : r.shape = condensed.shape) {k : Nat}
    (hk : k ≤ condensed.shape.horizon) :
    ∃ e, expandStage? duals condensed r k k = some e ∧ r.SameFrame e ∧
      (∀ g, e.getD k g = expanded duals condensed k g) ∧
      ∀ j g, j ≠ k → e.getD j g = r.getD j g := by
  obtain ⟨e, he, hframe, hdone, hkept⟩ := StageData.foldlM_fields hr (k := k) (by rwa [hs])
    (expandField? duals condensed k) (expanded duals condensed k) [.ux, .t, .pi, .lam]
    (fun _ f hf hv => expandField?_eq_set? duals hc hv (hf.shape.trans hs) hk f)
    (fun f _ => by rw [size_expanded duals hc hk, hs]; rfl)
  refine ⟨e, (expandStage?_eq_foldlM duals condensed r k).trans he, hframe, fun g => ?_,
    fun j g hj => hkept j g (.inl hj)⟩
  exact hdone g (by cases g <;> simp)

/-- Expanding makes every field what the condensed solution has there, but
multipliers that are not asked for are zero. -/
theorem outcome_expand {condensed : QpOutput} {o : IdentityOptions} {m : IdentityMemory}
    (desk : Desk QpOutput) (hc : condensed.Valid) (hr : desk.record.Valid)
    (hs : condensed.shape = desk.record.shape)
    (hm : m.stages desk.region = .ok (List.range (condensed.shape.horizon + 1))) (j : Journal) :
    ∃ r, outcome (expand condensed o m) desk j = (.ok (), ⟨{ desk with record := r }, j⟩) ∧
      desk.record.SameFrame r ∧ ∀ k field, k ≤ condensed.shape.horizon →
        r.getD k field = expanded (o.expandDuals != 0) condensed k field := by
  have hsame : sameShape condensed.shape desk.record.shape .expand = .ok () := by
    rw [sameShape, if_neg (by simpa using hs)]
  obtain ⟨r, hfold, hframe, hdone, -⟩ := StageData.foldlM_stages hr
    (fun r k => expandStage? (o.expandDuals != 0) condensed r k k)
    (fun k g => expanded (o.expandDuals != 0) condensed k g)
    (n := condensed.shape.horizon + 1) (Nat.le_of_eq (by rw [hs])) (by
      intro r k hk hf hv _
      exact expandStage?_eq_some _ hc hv (hf.shape.trans hs.symm) (Nat.le_of_lt_succ hk))
  refine ⟨r, ?_, hframe, fun k field hk => hdone k field (Nat.lt_succ_of_le hk)⟩
  simp only [expand, outcome_bind, outcome_fetch, hsame, hm, outcome_check_ok, zipIdx_range,
    List.foldlM_map, hfold, outcome_need_some, outcome_store]

/-! ## What stays -/

/-- The region is this one, and the record has so many words. -/
def Stays {Φ : Type} (region : Words) (recordSize : Nat) (desk : Desk (StageData Φ)) : Prop :=
  desk.region = region ∧ desk.record.words.size = recordSize

variable {region : Words} {recordSize : Nat}

/-- Copying a stage keeps what every write keeps. -/
theorem keeps_copyStage? {P : QpInput → Prop} (hP : StageData.WriteKeeps P) {qp r e : QpInput}
    {source k : Nat} (hr : P r) (h : copyStage? qp r source k = some e) : P e :=
  StageData.keeps_foldlM (fun _ _ _ hd he => hP.copyField? hd he) hr h

/-- Expanding a stage keeps what every write keeps. -/
theorem keeps_expandStage? {P : QpOutput → Prop} (hP : StageData.WriteKeeps P) {duals : Bool}
    {condensed r e : QpOutput} {target k : Nat} (hr : P r)
    (h : expandStage? duals condensed r target k = some e) : P e := by
  obtain ⟨r₁, h₁, h⟩ := Option.bind_eq_some_iff.1 h
  obtain ⟨r₂, h₂, h⟩ := Option.bind_eq_some_iff.1 h
  have hr₂ : P r₂ := hP.copyField? (hP.copyField? hr h₁) h₂
  cases duals with
  | true =>
      obtain ⟨r₃, h₃, h₄⟩ := Option.bind_eq_some_iff.1 h
      exact hP.copyField? (hP.copyField? hr₂ h₃) h₄
  | false =>
      obtain ⟨r₃, h₃, h₄⟩ := Option.bind_eq_some_iff.1 h
      exact hP.fill? (hP.fill? hr₂ h₃) h₄

/-- However condensing ends, nothing on the desk is another but the record, which has what
no write of a field breaks. -/
theorem keeps_condense_of {P : QpInput → Prop} (hP : StageData.WriteKeeps P) (qp : QpInput)
    (m : IdentityMemory) (base : Desk QpInput) :
    Keeps (fun desk => ∃ r, P r ∧ desk = { base with record := r }) (condense qp m) := by
  refine .fetch_bind fun desk h => .bind (.check _) fun _ => .bind (.check _) fun stages =>
    .need_bind fun record hrecord => .store ?_
  obtain ⟨r, hr, rfl⟩ := h
  exact ⟨record, StageData.keeps_foldlM (fun _ _ _ hr he => keeps_copyStage? hP hr he) hr hrecord,
    rfl⟩

/-- However expanding ends, nothing on the desk is another but the record, which has what
no write of a field breaks. -/
theorem keeps_expand_of {P : QpOutput → Prop} (hP : StageData.WriteKeeps P)
    (condensed : QpOutput) (o : IdentityOptions) (m : IdentityMemory) (base : Desk QpOutput) :
    Keeps (fun desk => ∃ r, P r ∧ desk = { base with record := r }) (expand condensed o m) := by
  refine .fetch_bind fun desk h => .bind (.check _) fun _ => .bind (.check _) fun stages =>
    .need_bind fun record hrecord => .store ?_
  obtain ⟨r, hr, rfl⟩ := h
  exact ⟨record,
    StageData.keeps_foldlM (fun _ _ _ hr he => keeps_expandStage? hP hr he) hr hrecord, rfl⟩

/-- Condensing leaves the region and the number of words. -/
theorem keeps_condense (qp : QpInput) (m : IdentityMemory) :
    Keeps (Stays region recordSize) (condense qp m) := by
  intro desk j h
  obtain ⟨r, hr, hdesk⟩ := keeps_condense_of (StageData.writeKeeps_size recordSize) qp m desk desk j
    ⟨desk.record, h.2, rfl⟩
  rw [hdesk]
  exact ⟨h.1, hr⟩

theorem keeps_expand (condensed : QpOutput) (o : IdentityOptions) (m : IdentityMemory) :
    Keeps (Stays region recordSize) (expand condensed o m) := by
  intro desk j h
  obtain ⟨r, hr, hdesk⟩ := keeps_expand_of (StageData.writeKeeps_size recordSize) condensed o m desk
    desk j ⟨desk.record, h.2, rfl⟩
  rw [hdesk]
  exact ⟨h.1, hr⟩

/-! ## What is refused -/

/-- The map of stages is there in a region of its size, whatever the region holds. -/
theorem stages_eq_ok {stages : Nat} {region : Words}
    (h : Words.byteSize region = indexBytes stages) :
    ∃ numbers, (carveMemory stages).1.stages region = .ok numbers := by
  rw [IdentityMemory.stages, (stageMap_fits h).check]
  exact ⟨_, rfl⟩

/-- The record has this shape, and the region the size of the map of stages. -/
def Handed {Φ : Type} (shape : Shape) (stages : Nat) (desk : Desk (StageData Φ)) : Prop :=
  desk.record.shape = shape ∧ Words.byteSize desk.region = indexBytes stages

theorem sameShape_self {a b : Shape} (h : a = b) (demand : ShapeDemand) :
    sameShape a b demand = .ok () := if_neg (by simpa using h)

/-- A record of the shape of the program is not refused. -/
theorem onlyFaults_condense (F : Fault → Prop) (qp : QpInput) (stages : Nat) :
    OnlyFaults F (Handed qp.shape stages) (condense qp (carveMemory stages).1) := by
  refine .fetch_bind fun desk h => ?_
  obtain ⟨numbers, hnumbers⟩ := stages_eq_ok h.2
  exact .bind (.check (sameShape_self h.1.symm _)) (Keeps.check _) fun _ =>
    .bind (.check hnumbers) (Keeps.check _) fun _ =>
    .bind (.need _) (Keeps.need _) fun _ => .store _

/-- A record of the shape of the condensed solution is not refused. -/
theorem onlyFaults_expand (F : Fault → Prop) (condensed : QpOutput) (o : IdentityOptions)
    (stages : Nat) :
    OnlyFaults F (Handed condensed.shape stages) (expand condensed o (carveMemory stages).1) := by
  refine .fetch_bind fun desk h => ?_
  obtain ⟨numbers, hnumbers⟩ := stages_eq_ok h.2
  exact .bind (.check (sameShape_self h.1.symm _)) (Keeps.check _) fun _ =>
    .bind (.check hnumbers) (Keeps.check _) fun _ =>
    .bind (.need _) (Keeps.need _) fun _ => .store _

end Identity

end StageQp
