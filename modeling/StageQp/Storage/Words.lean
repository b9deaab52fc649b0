/-!
# StageQp.Storage.Words

Storage is a run of 64-bit words.  Sizes and offsets are counted in bytes;
everything that is stored starts on a word, so a size is rounded up to whole
words before it is laid out.

`Words.paste` is the only write that replaces more than one word.  It never
changes the length: what would fall past the end is dropped.
-/

namespace StageQp

/-- A run of 64-bit words. -/
abbrev Words := Array UInt64

/-- The least multiple of eight that is not below `bytes`. -/
def alignUp (bytes : Nat) : Nat := (bytes + 7) / 8 * 8

/-- Padded bytes are whole words. -/
theorem alignUp_mod (bytes : Nat) : alignUp bytes % 8 = 0 := by unfold alignUp; omega

/-- Padding takes nothing away. -/
theorem le_alignUp (bytes : Nat) : bytes ≤ alignUp bytes := by unfold alignUp; omega

/-- Less than a word is padded. -/
theorem alignUp_lt (bytes : Nat) : alignUp bytes < bytes + 8 := by unfold alignUp; omega

/-- Padded bytes of `n` doubles. -/
def doubleBytes (n : Nat) : Nat := alignUp (n * 8)

/-- Padded bytes of `n` 32-bit indices. -/
def indexBytes (n : Nat) : Nat := alignUp (n * 4)

namespace Words

/-- Words for `bytes` bytes, rounded up to whole words, all holding `word`. -/
def filled (bytes : Nat) (word : UInt64) : Words := Array.replicate (alignUp bytes / 8) word

/-- Zero words for `bytes` bytes, rounded up to whole words. -/
def zeroed (bytes : Nat) : Words := filled bytes 0

def byteSize (w : Words) : Nat := w.size * 8

/-- The words with those from `start` on replaced by `part`, as far as both reach. -/
def paste (w : Words) (start : Nat) (part : Words) : Words :=
  w.mapIdx fun i word => if start ≤ i then part.getD (i - start) word else word

@[simp] theorem size_paste (w : Words) (start : Nat) (part : Words) :
    (w.paste start part).size = w.size := by
  simp [paste]

/-- A pasted word is read back where it was pasted. -/
theorem getElem?_paste_add (w part : Words) (start i : Nat) (hw : start + i < w.size)
    (hp : i < part.size) : (w.paste start part)[start + i]? = part[i]? := by
  simp [paste, hw, hp]

/-- Words outside the pasted range stay. -/
theorem getElem?_paste_of_outside (w part : Words) (start i : Nat)
    (h : i < start ∨ start + part.size ≤ i) : (w.paste start part)[i]? = w[i]? := by
  have hskip : ¬(start ≤ i ∧ i - start < part.size) := by omega
  simp only [paste, Array.getElem?_mapIdx, Array.getD_eq_getD_getElem?]
  by_cases hs : start ≤ i
  · have hp : part[i - start]? = none := Array.getElem?_eq_none (by omega)
    simp [hs, hp]
  · simp [hs]

/-- The same words, all holding `word`. -/
def fill (w : Words) (word : UInt64) : Words := w.map fun _ => word

end Words

end StageQp
