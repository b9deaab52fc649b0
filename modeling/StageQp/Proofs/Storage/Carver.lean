import StageQp.Proofs.Storage.Split

/-!
# StageQp.Proofs.Storage.Carver

What a carver gives out from the start of a region, whatever it is asked for: bytes, or
records of any type, in any order.  A request comes down to its length (`run_eq_takeAll`),
so the blocks tile the bytes up to the cursor, and the cursor is the sum of the lengths,
each padded to the least multiple of eight that is not below it (`alignUp_isLeast`).

Blocks that tile can be handed out together, with or without bytes in them, exactly if
the region reaches up to their end (`Tiles.views_eq_ok_iff`).  `run_laysOut` says all of
it of every run.
-/

namespace StageQp

/-- Padded bytes are the least multiple of eight that holds them. -/
theorem alignUp_isLeast (bytes : Nat) : IsLeast {m | 8 ∣ m ∧ bytes ≤ m} (alignUp bytes) := by
  refine ⟨⟨Nat.dvd_of_mod_eq_zero (alignUp_mod bytes), le_alignUp bytes⟩, ?_⟩
  rintro m ⟨⟨k, rfl⟩, hle⟩
  have hmod := alignUp_mod bytes
  have hlt := alignUp_lt bytes
  omega

/-- Blocks that are apart have no byte of their spans in common. -/
theorem Block.Apart.disjoint {b c : Block} (h : b.Apart c) :
    Disjoint (Set.Ico b.offset b.stop) (Set.Ico c.offset c.stop) := by
  rw [Set.Ico_disjoint_Ico]
  rcases h with hle | hle
  · exact Nat.le_trans (Nat.min_le_left _ _) (Nat.le_trans hle (Nat.le_max_right _ _))
  · exact Nat.le_trans (Nat.min_le_right _ _) (Nat.le_trans hle (Nat.le_max_left _ _))

namespace Tiles

variable {start stop : Nat} {bs : List Block}

/-- The first block of a tiling lies at its start. -/
theorem offset_head (h : Tiles start bs stop) {b : Block} (hb : bs[0]? = some b) :
    b.offset = start := by
  cases bs with
  | nil => cases hb
  | cons c cs =>
      obtain rfl : c = b := Option.some.inj hb
      exact h.1

/-- A block starts where the one in front of it ends. -/
theorem offset_next (h : Tiles start bs stop) {i : Nat} {b c : Block} (hb : bs[i]? = some b)
    (hc : bs[i + 1]? = some c) : c.offset = b.stop := by
  induction bs generalizing start i with
  | nil => cases hb
  | cons d ds ih =>
      cases i with
      | zero =>
          obtain rfl : d = b := Option.some.inj hb
          exact h.2.2.offset_head hc
      | succ i => exact ih h.2.2 hb hc

/-- A tiling is handed out exactly if the region reaches to its end. -/
theorem views_eq_ok_iff (h : Tiles 0 bs stop) (w : Words) :
    w.views bs.toArray.toVector = .ok (bs.toArray.toVector.map Block.view) ↔
      stop ≤ Words.byteSize w := by
  rw [Words.views_eq, show bs.toArray.toVector.toList = bs from rfl]
  constructor
  · intro hviews
    cases hcheck : w.checkSplit bs with
    | error f =>
        rw [hcheck] at hviews
        cases hviews
    | ok _ => exact h.stop_le (Nat.zero_le _) fun b hb => (fits_of_checkSplit hcheck hb).2
  · intro hle
    rw [checkSplit_of_spaced (h.spaced.mono (Nat.le_refl _) hle)]
    rfl

end Tiles

namespace Carver

/-! ## Runs -/

inductive Take : Type 1 where
  /-- So many bytes. -/
  | bytes (count : Nat)
  /-- So many records of a type. -/
  | records (α : Type) [Record α] (count : Nat)

def Take.len : Take → Nat
  | bytes count => count
  | @records α _ count => count * Record.bytes α

def give (c : Carver) : Take → Block × Carver
  | .bytes count => c.take count
  | @Take.records α _ count => c.takeRecords α count

/-- Gives out what is asked for, in order. -/
def run (c : Carver) : List Take → List Block × Carver
  | [] => ([], c)
  | t :: takes =>
    let (block, c) := c.give t
    let (blocks, c) := c.run takes
    (block :: blocks, c)

/-- Whatever is asked for, a block of its length is given out. -/
theorem give_eq_take (c : Carver) (t : Take) : c.give t = c.take t.len := by
  cases t <;> rfl

/-- Records are given out as the bytes they take up. -/
theorem run_eq_takeAll (c : Carver) (takes : List Take) :
    c.run takes = c.takeAll (takes.map Take.len) := by
  induction takes generalizing c with
  | nil => rfl
  | cons t takes ih => simp [run, takeAll, give_eq_take, ih]

/-- Carving ends with the computed size or reports both. -/
theorem finish_eq (c : Carver) (expected : Nat) : c.finish expected =
    if expected = c.cursor then .ok expected else .error (.sizeMismatch c.cursor expected) := by
  by_cases h : expected = c.cursor
  · rw [if_pos h, finish_eq_ok h.symm]
  · rw [if_neg h, finish, if_pos (Ne.symm h)]

/-! ## What a run gives out -/

/-- The blocks that were given out for these requests, and where the carver then stands:
the blocks lie one behind the other, padded, and fill the bytes up to the cursor. -/
structure LaysOut (takes : List Take) (blocks : List Block) (c : Carver) : Prop where
  len_eq : blocks.map Block.len = takes.map Take.len
  aligned (b : Block) (hb : b ∈ blocks) : 8 ∣ b.offset
  first (b : Block) (hb : blocks[0]? = some b) : b.offset = 0
  next (i : Nat) (b d : Block) (hb : blocks[i]? = some b) (hd : blocks[i + 1]? = some d) :
    d.offset = b.stop
  disjoint (i j : Nat) (b d : Block) (hij : i ≠ j) (hb : blocks[i]? = some b)
    (hd : blocks[j]? = some d) : Disjoint (Set.Ico b.offset b.stop) (Set.Ico d.offset d.stop)
  stop_le (b : Block) (hb : b ∈ blocks) : b.stop ≤ c.cursor
  /-- Every length is padded no further than it has to be. -/
  padded (t : Take) (ht : t ∈ takes) : IsLeast {m | 8 ∣ m ∧ t.len ≤ m} (alignUp t.len)
  cursor_eq : c.cursor = (takes.map fun t => alignUp t.len).sum
  finish_eq (expected : Nat) : c.finish expected =
    if expected = c.cursor then .ok expected else .error (.sizeMismatch c.cursor expected)
  slice_eq (w : Words) (hw : c.cursor ≤ Words.byteSize w) (b : Block) (hb : b ∈ blocks) :
    b.slice w = .ok (w.extract (b.offset / 8) (b.stop / 8))
  /-- All of them together are handed out exactly if the region reaches to the cursor. -/
  views_eq_ok_iff (w : Words) :
    w.views blocks.toArray.toVector = .ok (blocks.toArray.toVector.map Block.view) ↔
      c.cursor ≤ Words.byteSize w

/-- Whatever a fresh carver is asked for, its blocks tile the bytes up to its cursor. -/
theorem run_laysOut (takes : List Take) : LaysOut takes (run {} takes).1 (run {} takes).2 := by
  rw [run_eq_takeAll]
  have htiles := tiles_takeAll (c := {}) rfl (takes.map Take.len)
  have hspaced := htiles.spaced
  constructor
  · exact map_len_takeAll {} _
  · intro b hb
    exact Nat.dvd_of_mod_eq_zero (hspaced.bounds hb).2.1
  · intro b hb
    exact htiles.offset_head hb
  · intro i b d hb hd
    exact htiles.offset_next hb hd
  · intro i j b d hij hb hd
    exact (hspaced.apart hb hd hij).disjoint
  · intro b hb
    exact (hspaced.bounds hb).2.2
  · intro t _
    exact alignUp_isLeast t.len
  · rw [cursor_takeAll, List.map_map]
    exact Nat.zero_add _
  · exact finish_eq _
  · intro w hw b hb
    exact ((hspaced.mono (Nat.le_refl _) hw).fits hb).slice
  · exact htiles.views_eq_ok_iff

/-- Odd lengths, blocks without bytes, and records that are not of whole words. -/
example : run {} [.records UInt32 3, .bytes 0, .bytes 5, .records Binary64 1] =
    ([⟨0, 12⟩, ⟨16, 0⟩, ⟨16, 5⟩, ⟨24, 8⟩], ⟨32⟩) := rfl

end Carver

end StageQp
