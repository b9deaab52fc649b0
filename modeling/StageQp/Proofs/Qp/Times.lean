import StageQp.Proofs.Qp.StageData
import StageQp.Proofs.Storage.Agree

/-!
# StageQp.Proofs.Qp.Times

Solutions that differ in nothing but the times of their accounts
(`StageData.SameButTimes`).  Each way to write a solution keeps that, and what is
written to one field from both is the same.
-/

namespace StageQp

/-! ## Two optional results -/

section Rel

variable {α β γ δ ε : Type} {R : α → β → Prop} {S : γ → δ → Prop}

theorem rel_bind {a : Option α} {b : Option β} (h : Option.Rel R a b) {f : α → Option γ}
    {g : β → Option δ} (hfg : ∀ x y, R x y → Option.Rel S (f x) (g y)) :
    Option.Rel S (a.bind f) (b.bind g) := by
  cases h with
  | some hxy => exact hfg _ _ hxy
  | none => exact .none

theorem rel_foldlM {f : α → ε → Option α} {g : β → ε → Option β}
    (hfg : ∀ x y i, R x y → Option.Rel R (f x i) (g y i)) {a : α} {b : β} (h : R a b)
    (items : List ε) : Option.Rel R (items.foldlM f a) (items.foldlM g b) := by
  induction items generalizing a b with
  | nil => exact .some h
  | cons i items ih =>
      rw [List.foldlM_cons, List.foldlM_cons]
      exact rel_bind (hfg a b i h) fun x y hxy => ih hxy

end Rel

/-- The account is six words. -/
theorem Layout.span_lead (shape : Shape) : (ofShape OutputField shape).lead.span = 48 := by
  show alignUp (8 * 6) = 48
  decide

/-- The places of a solution that hold no time: the four times are at the start of the account. -/
def Layout.Untimed (l : Layout OutputField) (i : Nat) : Prop :=
  i < l.lead.firstWord ∨ l.lead.firstWord + 4 ≤ i

namespace StageData

/-- Both solutions lie like `l`, and hold the same words but for the four times. -/
structure SameButTimes (l : Layout OutputField) (d e : QpOutput) : Prop where
  layout_eq : d.layout = l
  other_layout_eq : e.layout = l
  words : Words.AgreeOn l.Untimed d.words e.words

namespace SameButTimes

variable {l : Layout OutputField} {d e : QpOutput}

theorem refl (d : QpOutput) : SameButTimes d.layout d d := ⟨rfl, rfl, .refl _ _⟩

theorem shape_eq (h : SameButTimes l d e) : e.shape = d.shape := by
  rw [shape, shape, h.layout_eq, h.other_layout_eq]

/-! ## What is read -/

/-- The same blocks are found in both. -/
theorem block?_eq (h : SameButTimes l d e) (k : Nat) (field : OutputField) :
    e.block? k field = d.block? k field :=
  block?_congr (h.other_layout_eq.trans h.layout_eq.symm) h.words.size_eq k field

/-- No field holds a time. -/
theorem get?_eq_of_layout (h : SameButTimes l d e) (hl : l = .ofShape OutputField l.shape)
    (k : Nat) (field : OutputField) : e.get? k field = d.get? k field := by
  rw [get?, get?, h.block?_eq]
  cases hb : d.block? k field with
  | none => rfl
  | some b =>
      rw [Option.map_some, Option.map_some, Block.records, Block.records, h.words.part_eq]
      intro i hi _
      replace hb := (block?_eq_some_iff.1 hb).1
      rw [h.layout_eq, hl] at hb
      have hlead := (Layout.bounds_of_block? hb).1
      rw [← hl] at hlead
      have hspan : l.lead.span = 48 := by rw [hl, Layout.span_lead]
      rw [Block.stop, hspan] at hlead
      unfold Block.firstWord at hi
      unfold Layout.Untimed Block.firstWord
      omega

/-- Solutions that differ in times have the same fields. -/
theorem get?_eq (h : SameButTimes l d e) (hv : d.Valid) (k : Nat) (field : OutputField) :
    e.get? k field = d.get? k field :=
  h.get?_eq_of_layout (h.layout_eq ▸ hv.layout_eq) k field

/-- Behind the times, the words of the account are the same. -/
theorem word_lead_eq (h : SameButTimes l d e) {i : Nat} (hi : 4 ≤ i) :
    (l.lead.part e.words).getD i 0 = (l.lead.part d.words).getD i 0 :=
  (h.words.part l.lead).getD_eq (.inr (Nat.add_le_add_left hi _))

theorem numIter_eq (h : SameButTimes l d e) : e.info.numIter = d.info.numIter := by
  rw [info, info, h.layout_eq, h.other_layout_eq]
  exact h.word_lead_eq (Nat.le_refl 4)

theorem tComputed_eq (h : SameButTimes l d e) : e.info.tComputed = d.info.tComputed := by
  rw [info, info, h.layout_eq, h.other_layout_eq]
  exact h.word_lead_eq (Nat.le_succ 4)

/-! ## What is written -/

/-- Accounts that differ in times are set to both. -/
theorem setInfo (h : SameButTimes l d e) {i j : SolveInfo} (hn : j.numIter = i.numIter)
    (ht : j.tComputed = i.tComputed) : SameButTimes l (d.setInfo i) (e.setInfo j) where
  layout_eq := h.layout_eq
  other_layout_eq := h.other_layout_eq
  words := by
    have hinfo : Words.AgreeOn (fun k => l.Untimed (l.lead.firstWord + (6 * 0 + k)))
        i.toWords.toArray j.toWords.toArray := by
      refine ⟨rfl, fun k hk => ?_⟩
      have hk : 4 ≤ k := by
        unfold Layout.Untimed at hk
        omega
      obtain ⟨k, rfl⟩ := Nat.exists_eq_add_of_le' hk
      rcases k with - | - | k
      · exact congrArg some hn
      · exact congrArg some ht
      · rfl
    rw [StageData.setInfo, StageData.setInfo, h.layout_eq, h.other_layout_eq]
    exact h.words.put l.lead ((h.words.part l.lead).paste hinfo)

theorem clear (h : SameButTimes l d e) : SameButTimes l d.clear e.clear where
  layout_eq := h.layout_eq
  other_layout_eq := h.other_layout_eq
  words := by
    rw [StageData.clear, StageData.clear, h.layout_eq, h.other_layout_eq]
    exact h.words.paste (.refl _ _)

/-- The same write to both leaves solutions that differ in times. -/
theorem set? (h : SameButTimes l d e) (k : Nat) (field : OutputField)
    (entries : Array (StageFields.EntryOf field)) :
    Option.Rel (SameButTimes l) (d.set? k field entries) (e.set? k field entries) := by
  rw [StageData.set?, StageData.set?, h.block?_eq, h.layout_eq, h.other_layout_eq]
  cases d.block? k field with
  | none => exact .none
  | some b =>
      dsimp only [Option.bind_eq_bind, Option.bind_some]
      split
      · exact .none
      · exact .some ⟨rfl, rfl, h.words.setRecords b _ entries⟩

theorem fill? (h : SameButTimes l d e) (k : Nat) (field : OutputField)
    (entry : StageFields.EntryOf field) :
    Option.Rel (SameButTimes l) (d.fill? k field entry) (e.fill? k field entry) := by
  rw [StageData.fill?, StageData.fill?, h.block?_eq, h.layout_eq, h.other_layout_eq]
  cases d.block? k field with
  | none => exact .none
  | some b => exact .some ⟨rfl, rfl, h.words.setRecords b _ _⟩

/-- Copying a field from solutions that differ in times only, too. -/
theorem copyField? (h : SameButTimes l d e) {m : Layout OutputField} {one other : QpOutput}
    (hs : SameButTimes m one other) (hv : one.Valid) (k source : Nat) (field : OutputField) :
    Option.Rel (SameButTimes l) (d.copyField? k one source field)
      (e.copyField? k other source field) := by
  rw [StageData.copyField?, StageData.copyField?, hs.get?_eq hv]
  cases one.get? source field with
  | none => exact .none
  | some entries => exact h.set? k field entries

end SameButTimes

end StageData

end StageQp
