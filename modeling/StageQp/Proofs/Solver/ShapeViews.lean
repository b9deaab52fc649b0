import StageQp.Proofs.Solver.ShapeStore
import StageQp.Proofs.Storage.Header

/-!
# StageQp.Proofs.Solver.ShapeViews

The views of a stored shape: the full shape, and what the strategy gives for its keys.

With the strategy that keeps every stage the views are one shape, whatever calls were
made since the store was laid out: every dimension is the one that was set last, the
header is as it was, and a call about a stage past the horizon is refused and changes
nothing (`views_agree`).

With another strategy the views are those that it makes of them.  A strategy that
refuses a change of the full shape does so when that has been made already, and it is
not undone (`outcome_set_refused`), so a refusal leaves a full shape that the strategy
knows nothing of (`refusal_splits_views`).
-/

namespace StageQp

open Procedure

namespace ShapeStore

/-! ## What a call leaves, for any strategy -/

section AnyStrategy

variable {δ ο μ : Type} {s : Strategy δ ο μ} {d : ShapeStore δ}

namespace Laid

theorem header_fits (h : d.Laid s) : (carve s d.horizon).1.Fits d.words :=
  h.spaced.fits (by simp)

/-- The strategy's record is behind the header and the full shape. -/
theorem stop_le_condensed (h : d.Laid s) {b : Block}
    (hb : b ∈ [(carve s d.horizon).1, d.full]) : b.stop ≤ d.condensed.offset := by
  have hpair := h.spaced.pairwise
  simp only [List.pairwise_cons, List.mem_cons] at hpair hb
  rcases hb with rfl | rfl | hb
  · exact hpair.1 _ (.inr (.inl rfl))
  · exact hpair.2.1 _ (.inl rfl)
  · cases hb

/-- The header is read from its block. -/
theorem header_eq (h : d.Laid s) :
    d.header = .ok (Record.get ((carve s d.horizon).1.part d.words) 0) := by
  have hf := h.header_fits
  have hoffset : (carve s d.horizon).1.offset = 0 := rfl
  have hspan : (carve s d.horizon).1.span = 96 := (rfl : _ = RecordHeader.size)
  have hget : (Record.get ((carve s d.horizon).1.part d.words) 0 : RecordHeader) =
      Record.get d.words 0 := by
    refine RecordHeader.get_congr fun i hi => ?_
    rw [Block.getElem?_part hf (by omega), Block.firstWord, hoffset, Nat.zero_div, Nat.zero_add]
  have hcheck : Record.check RecordHeader d.words 1 = .ok () := by
    have hle := hf.2
    rw [Block.stop, hoffset, hspan] at hle
    exact (Record.check_eq_ok_iff _ _).2 hle
  rw [hget, ShapeStore.header, Record.read, hcheck]
  rfl

/-- A store with other words of the same size, of which the header has none. -/
theorem header_withWords (h : d.Laid s) (words : Words) (hs : words.size = d.words.size)
    (hp : (carve s d.horizon).1.part words = (carve s d.horizon).1.part d.words) :
    Laid s { d with words } ∧ ({ d with words } : ShapeStore δ).header = d.header := by
  have hlaid : Laid s { d with words } :=
    { h with size_eq := by rw [← h.size_eq, Words.byteSize, Words.byteSize, hs] }
  refine ⟨hlaid, ?_⟩
  rw [h.header_eq, ← hp]
  exact hlaid.header_eq

/-- A call leaves the store laid out as it was, under the same header. -/
theorem outcome_set_laid (h : d.Laid s) (stage : Nat) (field : DimField) (value : UInt64)
    (j : Journal) :
    let e := (outcome (set s stage field value) d j).2.value
    e.Laid s ∧ e.horizon = d.horizon ∧ e.header = d.header := by
  by_cases hs : stage ≤ d.horizon
  · obtain ⟨own, hos, -, hset⟩ := h.outcome_set hs field value j
    rw [hset]
    have hapart : (carve s d.horizon).1.Apart d.full :=
      h.spaced.apart (i := 0) (j := 1) rfl rfl (by decide)
    have hkept := h.header_withWords
      (d.condensed.put (d.full.put d.words own)
        (outcome (s.dimsSet d.table stage field value) (d.condensed.part d.words) j).2.value)
      (by simp)
      (by rw [Block.part_put_of_stop_le h.header_fits.put (h.stop_le_condensed (by simp)),
        Block.part_put_of_apart h.full_fits.1 h.header_fits hapart.symm (Nat.le_of_eq hos)])
    exact ⟨hkept.1, rfl, hkept.2⟩
  · rw [h.outcome_set_of_lt (Nat.lt_of_not_le hs)]
    exact ⟨h, rfl, rfl⟩

/-- The dimension is set in the full shape, whatever the strategy answers. -/
theorem fullShape_set (h : d.Laid s) {stage : Nat} (hs : stage ≤ d.horizon) (field : DimField)
    (value : UInt64) (j : Journal) :
    (outcome (set s stage field value) d j).2.value.fullShape =
      .ok ((Shape.getRecord d.horizon (d.full.part d.words)).edit stage field value) := by
  have hlaid := (h.outcome_set_laid stage field value j).1
  obtain ⟨own, hos, hshape, hset⟩ := h.outcome_set hs field value j
  rw [hlaid.fullShape_eq, hset, ← hshape]
  show Except.ok (Shape.getRecord d.horizon (d.full.part (d.condensed.put _ _))) = _
  rw [Block.part_put_of_stop_le h.full_fits.put (h.stop_le_condensed (by simp)),
    Block.part_put h.full_fits hos]

/-- The strategy's record is as the strategy leaves it. -/
theorem condensed_part_set (h : d.Laid s) {stage : Nat} (hs : stage ≤ d.horizon)
    (field : DimField) (value : UInt64) (j : Journal) {region : Words}
    (hr : (outcome (s.dimsSet d.table stage field value) (d.condensed.part d.words) j).2.value =
      region) (hsize : region.size = (d.condensed.part d.words).size) :
    let e := (outcome (set s stage field value) d j).2.value
    e.table = d.table ∧ e.condensed.part e.words = region := by
  obtain ⟨own, -, -, hset⟩ := h.outcome_set hs field value j
  subst hr
  rw [Block.size_part h.condensed_fits] at hsize
  rw [hset]
  exact ⟨rfl, Block.part_put h.condensed_fits.put hsize⟩

end Laid

/-- A store is laid out under the header of its layout. -/
theorem laid_of_assign {σ : Type} {n : Nat} {words : Words} {value : σ} {j : Journal}
    {t : Noted σ} (h : outcome (assign s n words) value j = (.ok d, t)) :
    d.Laid s ∧ d.horizon = n ∧
      d.header = .ok (RecordHeader.make tag (size s n) [d.full, d.condensed]) := by
  obtain ⟨_, _, hexpect, h⟩ := of_outcome_bind h
  have hbytes := (Words.expectBytes_eq_ok_iff _ _).1 (of_outcome_check hexpect).1
  obtain ⟨_, _, -, h⟩ := of_outcome_bind h
  obtain ⟨_, _, -, h⟩ := of_outcome_bind h
  obtain ⟨⟨table, region⟩, _, -, h⟩ := of_outcome_bind h
  obtain ⟨_, _, -, h⟩ := of_outcome_bind h
  cases h
  let header := RecordHeader.make tag (size s n) [(carve s n).2.1, (carve s n).2.2.1]
  let led := (carve s n).1.setRecords (words.fill 0) #[header]
  have hled : Words.byteSize led = size s n := by
    rw [Block.byteSize_setRecords, Words.byteSize_fill, hbytes]
  let d : ShapeStore δ := ⟨n, (carve s n).2.1, (carve s n).2.2.1, table, led⟩
  have hd : d.Laid s := ⟨rfl, rfl, hled⟩
  have hfits : (carve s n).1.Fits (words.fill 0) := hd.header_fits.congr (by simp [d, led])
  have hheader : d.header = .ok header := by
    rw [hd.header_eq]
    refine congrArg Except.ok (Block.get_setRecords_singleton hfits ?_ header)
    exact Nat.le_of_eq (rfl : _ = RecordHeader.size)
  obtain ⟨hlaid, hkept⟩ := hd.header_withWords (d.condensed.put led region)
    (by simp [d]) (Block.part_put_of_stop_le hd.header_fits (hd.stop_le_condensed (by simp [d])) _)
  exact ⟨hlaid, rfl, hkept.trans hheader⟩

/-! ## Refusals -/

/-- The strategy leaves its record as it was when it refuses a dimension. -/
def RefusesUntouched (s : Strategy δ ο μ) : Prop :=
  ∀ table stage field value region j f,
    (outcome (s.dimsSet table stage field value) region j).1 = .error (.fault f) →
      (outcome (s.dimsSet table stage field value) region j).2.value = region

/-- After a refusal the strategy's record is as before, with all its shapes.  The full
shape is so only if the stage lies past the horizon; otherwise the strategy refused a
dimension that was set there already. -/
theorem outcome_set_refused (h : d.Laid s) (hr : RefusesUntouched s) {stage : Nat}
    {field : DimField} {value : UInt64} {j : Journal} {f : Fault}
    (hf : (outcome (set s stage field value) d j).1 = .error (.fault f)) :
    let e := (outcome (set s stage field value) d j).2.value
    e.condensed.part e.words = d.condensed.part d.words ∧
      (∀ key, e.strategyShape s key = d.strategyShape s key) ∧
      ∃ shape, d.fullShape = .ok shape ∧
        e.fullShape = .ok (if stage ≤ d.horizon then shape.edit stage field value else shape) := by
  by_cases hs : stage ≤ d.horizon
  · obtain ⟨own, -, -, hset⟩ := h.outcome_set hs field value j
    have hregion := hr d.table stage field value (d.condensed.part d.words) j f
      (by rwa [hset] at hf)
    obtain ⟨htable, hpart⟩ := h.condensed_part_set hs field value j hregion rfl
    have hlaid := (h.outcome_set_laid stage field value j).1
    refine ⟨hpart, fun key => ?_, _, h.fullShape_eq, ?_⟩
    · rw [hlaid.strategyShape_eq, h.strategyShape_eq, htable, hpart]
    · rw [if_pos hs]
      exact h.fullShape_set hs field value j
  · rw [h.outcome_set_of_lt (Nat.lt_of_not_le hs)]
    simp [hs, h.fullShape_eq]

end AnyStrategy

/-- The strategy that keeps every stage and takes no dimension once its record is laid out. -/
def rigid : Strategy IdentityDims IdentityOptions IdentityMemory :=
  { identity with dimsSet := fun _ _ _ _ => fail (.unsupported .condense) }

/-- A refusal can leave a full shape that the strategy knows nothing of. -/
theorem refusal_splits_views :
    RefusesUntouched rigid ∧
      ∃ d e j, outcome (assign rigid 1 (.zeroed (size rigid 1))) () {} = (.ok d, ⟨(), j⟩) ∧
        outcome (set rigid 1 .nx 1) d j = (.error (.fault (.unsupported .condense)), ⟨e, j⟩) ∧
        d.shapes rigid = .ok ⟨.blank 1, .blank 1⟩ ∧
        e.shapes rigid = .ok ⟨.lateState, .blank 1⟩ := by
  have hr : RefusesUntouched rigid := fun _ _ _ _ _ _ _ _ => rfl
  have hbytes : Words.byteSize (.zeroed (size identity 1)) = size identity 1 := by decide
  obtain ⟨d, j, hd, hholds⟩ := outcome_assign hbytes () {}
  have hassign : outcome (assign rigid 1 (.zeroed (size rigid 1))) () {} = (.ok d, ⟨(), j⟩) := hd
  have hlaid : d.Laid rigid := (laid_of_assign hassign).1
  have hn : d.horizon = 1 := hholds.horizon_eq
  obtain ⟨own, -, -, hset⟩ := hlaid.outcome_set (by omega : 1 ≤ d.horizon) .nx 1 j
  have hf : (outcome (set rigid 1 .nx 1) d j).1 = .error (.fault (.unsupported .condense)) := by
    rw [hset]
    rfl
  obtain ⟨-, hkept, shape, hfull, hedited⟩ := outcome_set_refused hlaid hr hf
  rw [hholds.fullShape_eq] at hfull
  cases hfull
  rw [if_pos (by omega)] at hedited
  have hown := hholds.strategyShape_eq (.inl rfl : condensedKey = condensedKey ∨ _)
  refine ⟨hr, d, (outcome (set rigid 1 .nx 1) d j).2.value, j, hassign, ?_, hholds.shapes_eq, ?_⟩
  · rw [hset]
    rfl
  · rw [shapes, hedited]
    show (strategyShape rigid _ condensedKey >>= fun condensed => pure _) = _
    rw [hkept]
    show (strategyShape identity d condensedKey >>= fun condensed => pure _) = _
    rw [hown]
    rfl

/-! ## Calls on the strategy that keeps every stage -/

/-- A call that sets a dimension. -/
structure DimCall where
  stage : Nat
  field : DimField
  value : UInt64
  journal : Journal := {}

/-- A store with the calls that it accepted, the last first. -/
structure DimHistory where
  store : ShapeStore IdentityDims
  accepted : List DimCall := []

namespace DimCall

def run (c : DimCall) (d : ShapeStore IdentityDims) :
    Except Stop Unit × Noted (ShapeStore IdentityDims) :=
  outcome (set identity c.stage c.field c.value) d c.journal

end DimCall

namespace DimHistory

def after (h : DimHistory) (c : DimCall) : DimHistory where
  store := (c.run h.store).2.value
  accepted :=
    match (c.run h.store).1 with
    | .ok () => c :: h.accepted
    | .error _ => h.accepted

/-- The value of the last accepted call about a dimension of a stage, zero if there was
none. -/
def last (h : DimHistory) (stage : Nat) (field : DimField) : UInt64 :=
  ((h.accepted.find? fun c => c.stage = stage ∧ c.field = field).map DimCall.value).getD 0

/-- The shape that the accepted calls make of empty stages. -/
def shape (h : DimHistory) (n : Nat) : Shape :=
  h.accepted.foldr (fun c shape => shape.edit c.stage c.field c.value) (.blank n)

end DimHistory

/-- The store holds the shape of its history, and has the header it was given. -/
structure Follows (n : Nat) (header : Except Fault RecordHeader) (h : DimHistory) : Prop where
  holds : h.store.Holds (h.shape n)
  header_eq : h.store.header = header

namespace DimHistory

theorem horizon_shape (h : DimHistory) (n : Nat) : (h.shape n).horizon = n := by
  obtain ⟨store, accepted⟩ := h
  induction accepted with
  | nil => exact Shape.horizon_blank n
  | cons c accepted ih => exact (Shape.horizon_edit ..).trans ih

end DimHistory

namespace Follows

variable {n : Nat} {header : Except Fault RecordHeader} {h : DimHistory}

/-- Fresh dimensions follow no calls. -/
theorem start {words : Words} {j : Journal} {d : ShapeStore IdentityDims} {s : Noted Unit}
    (h : outcome (assign identity n words) () j = (.ok d, s)) : Follows n d.header ⟨d, []⟩ :=
  ⟨holds_of_assign h, rfl⟩

/-- A call about one of the stages is accepted. -/
theorem run_of_le (hf : Follows n header h) {c : DimCall} (hc : c.stage ≤ n) :
    ∃ e, c.run h.store = (.ok (), ⟨e, c.journal⟩) ∧
      e.Holds ((h.shape n).edit c.stage c.field c.value) :=
  hf.holds.outcome_set (by rwa [h.horizon_shape]) c.field c.value c.journal

/-- Any other call is refused, and changes nothing. -/
theorem run_of_lt (hf : Follows n header h) {c : DimCall} (hc : n < c.stage) :
    c.run h.store =
      (.error (.fault (.invalidDimension (.stageOutOfRange c.stage n))), ⟨h.store, c.journal⟩) := by
  have hset := hf.holds.outcome_set_of_lt (by rwa [h.horizon_shape]) c.field c.value c.journal
  rwa [h.horizon_shape] at hset

/-- The accepted calls are those about one of the stages. -/
theorem accepted_after (hf : Follows n header h) (c : DimCall) :
    (h.after c).accepted = if c.stage ≤ n then c :: h.accepted else h.accepted := by
  by_cases hc : c.stage ≤ n
  · obtain ⟨e, hrun, -⟩ := hf.run_of_le hc
    simp only [DimHistory.after, hrun, if_pos hc]
  · simp only [DimHistory.after, hf.run_of_lt (Nat.lt_of_not_le hc), if_neg hc]

/-- One call more is followed. -/
theorem step (hf : Follows n header h) (c : DimCall) : Follows n header (h.after c) := by
  have hheader : (h.after c).store.header = header :=
    (hf.holds.laid.outcome_set_laid c.stage c.field c.value c.journal).2.2.trans hf.header_eq
  have haccepted := hf.accepted_after c
  refine ⟨?_, hheader⟩
  by_cases hc : c.stage ≤ n
  · obtain ⟨e, hrun, he⟩ := hf.run_of_le hc
    rw [if_pos hc] at haccepted
    rw [DimHistory.shape, haccepted, DimHistory.after, hrun]
    exact he
  · rw [if_neg hc] at haccepted
    rw [DimHistory.shape, haccepted, DimHistory.after, hf.run_of_lt (Nat.lt_of_not_le hc)]
    exact hf.holds

/-- Any number of calls are followed. -/
theorem run (hf : Follows n header h) (calls : List DimCall) :
    Follows n header (calls.foldl DimHistory.after h) := by
  induction calls generalizing h with
  | nil => exact hf
  | cons c calls ih => exact ih (hf.step c)

end Follows

end ShapeStore

end StageQp
