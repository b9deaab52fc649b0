import StageQp.Storage.Split

/-!
# StageQp.Proofs.Storage.Block

What reading and writing a block does to a region.  A block that fits its region
is read back as it was written (`part_put`), and no write of a block changes what
a block apart from it holds (`part_put_of_apart`).
-/

namespace StageQp

/-! ## Words -/

namespace Words

@[simp] theorem byteSize_paste (w part : Words) (start : Nat) :
    byteSize (w.paste start part) = byteSize w := by
  simp [byteSize]

@[simp] theorem size_fill (w : Words) (word : UInt64) : (w.fill word).size = w.size := by
  simp [fill]

@[simp] theorem byteSize_fill (w : Words) (word : UInt64) :
    byteSize (w.fill word) = byteSize w := by
  simp [byteSize]

theorem fill_zero (w : Words) : w.fill 0 = zeroed (byteSize w) := by
  have hs : alignUp (byteSize w) / 8 = w.size := by
    simp only [alignUp, byteSize]
    omega
  rw [zeroed, filled, hs]
  apply Array.ext
  · simp
  · intro i h1 h2
    simp [fill]

theorem byteSize_filled (bytes : Nat) (word : UInt64) :
    byteSize (filled bytes word) = alignUp bytes := by
  simp only [byteSize, filled, Array.size_replicate, alignUp]
  omega

theorem byteSize_zeroed (bytes : Nat) : byteSize (zeroed bytes) = alignUp bytes :=
  byteSize_filled bytes 0

/-- Only the size that is required is accepted. -/
theorem expectBytes_eq_ok_iff (w : Words) (required : Nat) :
    w.expectBytes required = .ok () ↔ byteSize w = required := by
  unfold expectBytes
  split
  · next h => simp [h]
  · next h => simpa using h

theorem expectBytes_of_ne {w : Words} {required : Nat} (h : byteSize w ≠ required) :
    w.expectBytes required = .error (.bufferSize (byteSize w) required) := if_pos h

/-- Which word stands where after a paste. -/
theorem getElem?_paste (w part : Words) (start i : Nat) (hi : i < w.size) :
    (w.paste start part)[i]? =
      if start ≤ i ∧ i < start + part.size then part[i - start]? else w[i]? := by
  by_cases h : start ≤ i ∧ i < start + part.size
  · obtain ⟨k, rfl⟩ : ∃ k, i = start + k := ⟨i - start, by omega⟩
    rw [if_pos h, getElem?_paste_add w part start k hi (by omega)]
    congr 1
    omega
  · rw [if_neg h, getElem?_paste_of_outside w part start i (by omega)]

/-- Pasting back what stands there changes nothing. -/
theorem paste_extract (w : Words) (start stop : Nat) :
    w.paste start (w.extract start stop) = w := by
  apply Array.ext_getElem?
  intro i
  by_cases hi : i < w.size
  · rw [getElem?_paste _ _ _ _ hi]
    split
    · next h =>
        rw [Array.getElem?_extract, if_pos (by have := h.2; simp at this; omega)]
        congr 1
        omega
    · rfl
  · rw [Array.getElem?_eq_none (by simpa using hi), Array.getElem?_eq_none (by simpa using hi)]

/-- A part of the whole size replaces everything. -/
theorem paste_zero {w part : Words} (h : part.size = w.size) : w.paste 0 part = part := by
  apply Array.ext_getElem?
  intro i
  by_cases hi : i < w.size
  · rw [getElem?_paste _ _ _ _ hi, if_pos ⟨Nat.zero_le i, by omega⟩, Nat.sub_zero]
  · rw [Array.getElem?_eq_none (by simpa using hi), Array.getElem?_eq_none (by omega)]

end Words

/-! ## Sizes that are counted in words -/

/-- Whole words need no padding. -/
theorem alignUp_of_mod {bytes : Nat} (h : bytes % 8 = 0) : alignUp bytes = bytes := by
  unfold alignUp
  omega

@[simp] theorem alignUp_alignUp (bytes : Nat) : alignUp (alignUp bytes) = alignUp bytes :=
  alignUp_of_mod (alignUp_mod bytes)

namespace Block

/-- The block starts on a word and ends inside the region. -/
def Fits (b : Block) (w : Words) : Prop := b.offset % 8 = 0 ∧ b.stop ≤ Words.byteSize w

instance (b : Block) (w : Words) : Decidable (b.Fits w) := by unfold Fits; infer_instance

/-- No word belongs to both blocks. -/
def Apart (b c : Block) : Prop := b.stop ≤ c.offset ∨ c.stop ≤ b.offset

theorem Apart.symm {b c : Block} (h : b.Apart c) : c.Apart b := Or.symm h

/-- A block takes whole words. -/
theorem span_mod (b : Block) : b.span % 8 = 0 := alignUp_mod b.len

/-- An aligned block has the words of its span. -/
theorem pastWord_eq {b : Block} (h : b.offset % 8 = 0) :
    b.pastWord = b.firstWord + b.span / 8 := by
  have hs := b.span_mod
  unfold pastWord firstWord stop
  omega

/-- A block passes its check if it is aligned and ends within the capacity. -/
theorem check_eq_ok_iff (b : Block) (capacity : Nat) :
    b.check capacity = .ok () ↔ b.offset % 8 = 0 ∧ b.stop ≤ capacity := by
  unfold check
  split
  · next h => simp [h]
  · split
    · next h => simp; omega
    · next h => simp; omega

theorem Fits.check {b : Block} {w : Words} (h : b.Fits w) :
    b.check (Words.byteSize w) = .ok () := (check_eq_ok_iff _ _).2 h

/-- A block that fits has a part. -/
theorem Fits.slice {b : Block} {w : Words} (h : b.Fits w) : b.slice w = .ok (b.part w) := by
  unfold Block.slice
  rw [h.check]
  rfl

/-- Whether a block fits depends on the number of words only. -/
theorem Fits.congr {b : Block} {w v : Words} (h : b.Fits w) (hs : v.size = w.size) : b.Fits v := by
  unfold Fits Words.byteSize at *
  rwa [hs]

/-- The words of a block that fits lie inside the region. -/
theorem Fits.words_le {b : Block} {w : Words} (h : b.Fits w) :
    b.firstWord + b.span / 8 ≤ w.size := by
  obtain ⟨ho, hs⟩ := h
  have := b.span_mod
  unfold firstWord
  unfold stop Words.byteSize at hs
  omega

/-- The part of a block that fits has the words of its span. -/
theorem size_part {b : Block} {w : Words} (h : b.Fits w) : (b.part w).size = b.span / 8 := by
  have hw := h.words_le
  simp only [part, Array.size_extract, pastWord_eq h.1]
  omega

/-- The part of a block that fits has the bytes of its span. -/
theorem byteSize_part {b : Block} {w : Words} (h : b.Fits w) :
    Words.byteSize (b.part w) = b.span := by
  have := b.span_mod
  simp only [Words.byteSize, size_part h]
  omega

@[simp] theorem size_put (b : Block) (w p : Words) : (b.put w p).size = w.size := by
  simp [put]

theorem Fits.put {b c : Block} {w p : Words} (h : c.Fits w) : c.Fits (b.put w p) :=
  h.congr (size_put b w p)

/-- The words of a part are those of the region behind the start of the block. -/
theorem getElem?_part {b : Block} {w : Words} (h : b.Fits w) {i : Nat} (hi : i < b.span / 8) :
    (b.part w)[i]? = w[b.firstWord + i]? := by
  have hw := h.words_le
  rw [part, Array.getElem?_extract, pastWord_eq h.1, if_pos (by omega)]

/-- The words of a block, one by one. -/
theorem part_eq_map {b : Block} {w : Words} (h : b.Fits w) :
    b.part w = ((List.range (b.span / 8)).map fun i => w.getD (b.firstWord + i) 0).toArray := by
  have hw := h.words_le
  apply Array.ext_getElem?
  intro i
  by_cases hi : i < b.span / 8
  · have hin : b.firstWord + i < w.size := by omega
    simp [getElem?_part h hi, hi, hin]
  · rw [Array.getElem?_eq_none (by rw [size_part h]; omega),
      Array.getElem?_eq_none (by simp; omega)]

/-- What is put into a block is what the block then holds. -/
theorem part_put {b : Block} {w p : Words} (h : b.Fits w) (hp : p.size = b.span / 8) :
    b.part (b.put w p) = p := by
  have hw := h.words_le
  apply Array.ext_getElem?
  intro i
  by_cases hi : i < b.span / 8
  · rw [getElem?_part h.put hi, put, Words.getElem?_paste_add _ _ _ _ (by omega) (by omega)]
  · rw [Array.getElem?_eq_none (by rw [size_part h.put]; omega),
      Array.getElem?_eq_none (by omega)]

/-- A block apart from one that is written keeps its words. -/
theorem part_put_of_apart {b c : Block} {w p : Words} (hb : b.offset % 8 = 0) (hc : c.Fits w)
    (h : b.Apart c) (hp : p.size ≤ b.span / 8) : c.part (b.put w p) = c.part w := by
  have hbs := b.span_mod
  have hcs := c.span_mod
  apply Array.ext_getElem?
  intro i
  by_cases hi : i < c.span / 8
  · rw [getElem?_part hc.put hi, getElem?_part hc hi, put, Words.getElem?_paste_of_outside]
    have := hc.1
    simp only [Apart, stop, firstWord] at *
    omega
  · rw [Array.getElem?_eq_none (by rw [size_part hc.put]; omega),
      Array.getElem?_eq_none (by rw [size_part hc]; omega)]

/-- Regions with the same words in the span of a block hold the same there. -/
theorem part_congr {b : Block} {w v : Words} (hw : b.Fits w) (hv : b.Fits v)
    (h : ∀ i, i < b.pastWord → v[i]? = w[i]?) : b.part v = b.part w := by
  have hpast := pastWord_eq hw.1
  apply Array.ext_getElem?
  intro i
  by_cases hi : i < b.span / 8
  · rw [getElem?_part hv hi, getElem?_part hw hi, h _ (by omega)]
  · rw [Array.getElem?_eq_none (by rw [size_part hv]; omega),
      Array.getElem?_eq_none (by rw [size_part hw]; omega)]

/-- Nothing that is put into a block reaches what lies before it, however long it is. -/
theorem part_put_of_stop_le {b c : Block} {w : Words} (hc : c.Fits w) (h : c.stop ≤ b.offset)
    (p : Words) : c.part (b.put w p) = c.part w :=
  part_congr hc hc.put fun i hi =>
    Words.getElem?_paste_of_outside _ _ _ _ (.inl (by unfold pastWord firstWord at *; omega))

/-- Putting back what a block holds changes nothing. -/
@[simp] theorem put_part (b : Block) (w : Words) : b.put w (b.part w) = w :=
  Words.paste_extract w _ _

/-- Changing one word of a block is changing that word of the region. -/
theorem put_modify {b : Block} {w : Words} (h : b.Fits w) {i : Nat} (hi : i < b.span / 8)
    (f : UInt64 → UInt64) : b.put w ((b.part w).modify i f) = w.modify (b.firstWord + i) f := by
  have hw := h.words_le
  apply Array.ext_getElem?
  intro k
  by_cases hk : k < w.size
  · rw [put, Words.getElem?_paste _ _ _ _ hk, Array.size_modify, size_part h]
    split
    · next hin =>
        have hpart := getElem?_part h (i := k - b.firstWord) (by omega)
        rw [Array.getElem?_modify, Array.getElem?_modify, hpart,
          show b.firstWord + (k - b.firstWord) = k by omega]
        by_cases hik : b.firstWord + i = k
        · rw [if_pos hik, if_pos (by omega)]
        · rw [if_neg hik, if_neg (by omega)]
    · next hout => rw [Array.getElem?_modify, if_neg (by omega)]
  · rw [Array.getElem?_eq_none (by simpa using hk), Array.getElem?_eq_none (by simpa using hk)]

/-- Putting one word into a block is putting it into the region. -/
theorem put_setIfInBounds {b : Block} {w : Words} (h : b.Fits w) {i : Nat}
    (hi : i < b.span / 8) (word : UInt64) :
    b.put w ((b.part w).setIfInBounds i word) = w.setIfInBounds (b.firstWord + i) word := by
  have hmodify (v : Words) (k : Nat) : v.setIfInBounds k word = v.modify k fun _ => word := by
    apply Array.ext
    · simp
    · intro l h1 h2
      rw [Array.getElem_setIfInBounds (by simpa using h1), Array.getElem_modify]
  rw [hmodify, hmodify, put_modify h hi]

/-- A block that fits can be cleared, which puts zeros to it. -/
theorem Fits.clear {b : Block} {w : Words} (h : b.Fits w) :
    b.clear w = .ok (b.put w (.replicate (b.span / 8) 0)) := by
  unfold Block.clear
  rw [h.check]
  rfl

/-- Only a block that fits can be cleared. -/
theorem fits_of_clear {b : Block} {w v : Words} (h : b.clear w = .ok v) : b.Fits w := by
  unfold Block.clear at h
  cases hc : b.check (Words.byteSize w) with
  | ok u => exact (check_eq_ok_iff _ _).1 hc
  | error f =>
      rw [hc] at h
      cases h

/-- A part of zeroed words is zeroed words. -/
theorem part_zeroed {b : Block} {bytes : Nat} (h : b.Fits (.zeroed bytes)) :
    b.part (.zeroed bytes) = .zeroed b.len := by
  have hs := size_part h
  apply Array.ext
  · rw [hs]
    simp [Words.zeroed, Words.filled, span]
  · intro i h1 h2
    simp [part, Words.zeroed, Words.filled]

/-- Zeros put to zeroed words leave them zeroed. -/
theorem put_zeroed (b : Block) (bytes count : Nat) :
    b.put (.zeroed bytes) (.replicate count 0) = .zeroed bytes := by
  apply Array.ext_getElem?
  intro i
  by_cases hi : i < (Words.zeroed bytes).size
  · rw [put, Words.getElem?_paste _ _ _ _ hi]
    split
    · next hin =>
        rw [Array.size_replicate] at hin
        have hz : i < alignUp bytes / 8 := by simpa [Words.zeroed, Words.filled] using hi
        rw [Array.getElem?_replicate, if_pos (by omega), Words.zeroed, Words.filled,
          Array.getElem?_replicate, if_pos hz]
    · rfl
  · rw [Array.getElem?_eq_none (by simpa using hi), Array.getElem?_eq_none (by simpa using hi)]

/-- Clearing blocks of zero words changes nothing. -/
theorem clearAll_zeroed {bs : List Block} {bytes : Nat} (h : ∀ b ∈ bs, b.Fits (.zeroed bytes)) :
    clearAll bs (.zeroed bytes) = .ok (.zeroed bytes) := by
  induction bs with
  | nil => rfl
  | cons b bs ih =>
      have hb := (h b (List.mem_cons_self ..)).clear
      rw [put_zeroed] at hb
      rw [clearAll, List.foldlM_cons, hb]
      exact ih fun c hc => h c (List.mem_cons_of_mem _ hc)

end Block

end StageQp
