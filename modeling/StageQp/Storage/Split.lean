import StageQp.Procedure
import StageQp.Storage.Block

/-!
# StageQp.Storage.Split

Several blocks of one region at once.  `Words.views` cuts the region, front to back,
into one view for each block, in the order the blocks were given; what is written to a
view is written to the region.  `Words.split` reads the views, and `Words.join` writes
parts back at their blocks.

A split is refused if a block does not fit the region, the first such block in
the order given, and then if some block starts before the end of an earlier one,
where earlier means the order of offsets, equal offsets in the order given.
-/

namespace StageQp

/-- A run of words of a region, to be read and written in place. -/
structure View where
  /-- The first word. -/
  start : Nat
  /-- How many words there are. -/
  size : Nat
deriving DecidableEq, Repr, Inhabited

namespace View

def whole (w : Words) : View := ⟨0, w.size⟩

@[simp] theorem size_whole (w : Words) : (whole w).size = w.size := rfl

/-- The first `n` words of a view, and the others. -/
def cut (v : View) (n : Nat) (_ : n ≤ v.size) : View × View :=
  (⟨v.start, n⟩, ⟨v.start + n, v.size - n⟩)

def read (v : View) (w : Words) : Words := w.extract v.start (v.start + v.size)

/-- The region with the words of the view replaced. -/
def write (v : View) (w part : Words) : Words := Words.paste w v.start part

/-- The region with a part written to each view. -/
def writeAll : Words → List View → List Words → Words
  | w, v :: views, part :: parts => writeAll (v.write w part) views parts
  | w, _, _ => w

end View

namespace Block

/-- The view of the words of the span. -/
def view (b : Block) : View := ⟨b.firstWord, b.pastWord - b.firstWord⟩

/-- A block does not end in front of its start. -/
theorem firstWord_le_pastWord (b : Block) : b.firstWord ≤ b.pastWord :=
  Nat.div_le_div_right (Nat.le_add_right _ _)

/-- The blocks with `b` behind all that start at the same byte or before. -/
def insertByOffset (b : Block) : List Block → List Block
  | [] => [b]
  | c :: cs => if c.offset ≤ b.offset then c :: insertByOffset b cs else b :: c :: cs

/-- The blocks by ascending offset, equal offsets in the order given. -/
def sortByOffset (blocks : List Block) : List Block :=
  blocks.foldl (fun sorted b => insertByOffset b sorted) []

/-- The places of blocks with `i` behind all whose block starts at the same byte as its
own or before. -/
def insertPlace {n : Nat} (blocks : Vector Block n) (i : Fin n) : List (Fin n) → List (Fin n)
  | [] => [i]
  | j :: js =>
    if (blocks.get j).offset ≤ (blocks.get i).offset then j :: insertPlace blocks i js
    else i :: j :: js

/-- The places of the blocks by ascending offset, equal offsets in the order given. -/
def places {n : Nat} (blocks : Vector Block n) : List (Fin n) :=
  (List.finRange n).foldl (fun sorted i => insertPlace blocks i sorted) []

/-- Refuses the first of the blocks that starts before word `consumed` or
before the end of the block in front of it. -/
def checkApart (consumed : Nat) : List Block → Except Fault Unit
  | [] => .ok ()
  | b :: bs =>
    if b.firstWord < consumed then .error (.overlap b.offset) else checkApart b.pastWord bs

/-- Refuses the first of the blocks that does not fit into `capacity` bytes. -/
def checkAll (capacity : Nat) : List Block → Except Fault Unit
  | [] => .ok ()
  | b :: bs => do
    b.check capacity
    checkAll capacity bs

/-- Each of the blocks passes the check of all. -/
theorem check_of_checkAll {capacity : Nat} {bs : List Block} (h : checkAll capacity bs = .ok ())
    {b : Block} (hb : b ∈ bs) : b.check capacity = .ok () := by
  induction bs with
  | nil => cases hb
  | cons c cs ih =>
      rw [checkAll] at h
      cases hc : c.check capacity with
      | error f =>
          rw [hc] at h
          cases h
      | ok u =>
          rw [hc] at h
          rcases List.mem_cons.1 hb with rfl | hb
          · exact hc
          · exact ih h hb

/-- A block that passes the check ends inside the region. -/
theorem pastWord_le_of_check {b : Block} {w : Words} (h : b.check (Words.byteSize w) = .ok ()) :
    b.pastWord ≤ w.size := by
  have hstop : ¬Words.byteSize w < b.stop := by
    intro hlt
    rw [check, if_pos hlt] at h
    split at h <;> cases h
  unfold Words.byteSize at hstop
  unfold pastWord
  omega

end Block

namespace Words

/-- Cuts a view for each of the places of `order` out of what is left of a region of `size`
words, from the front.  What is left is `rest`, and starts at word `consumed`. -/
def cutViews {n size : Nat} (blocks : Vector Block n)
    (hfit : ∀ i : Fin n, (blocks.get i).pastWord ≤ size) :
    List (Fin n) → (rest : View) → (consumed : Nat) → consumed + rest.size = size →
      Vector View n → Except Fault (Vector View n)
  | [], _, _, _, views => .ok views
  | i :: order, rest, consumed, hrest, views =>
    if hstart : (blocks.get i).firstWord < consumed then .error (.overlap (blocks.get i).offset)
    else
      have hpast := hfit i
      have hle := (blocks.get i).firstWord_le_pastWord
      let gap := rest.cut ((blocks.get i).firstWord - consumed) (by omega)
      have hgap : gap.2.size = rest.size - ((blocks.get i).firstWord - consumed) := rfl
      let span := gap.2.cut ((blocks.get i).pastWord - (blocks.get i).firstWord) (by omega)
      have hspan : span.2.size =
        gap.2.size - ((blocks.get i).pastWord - (blocks.get i).firstWord) := rfl
      cutViews blocks hfit order span.2 (blocks.get i).pastWord (by omega)
        (views.set i.val span.1 i.isLt)

/-- A view for each block, in the order given. -/
def views {n : Nat} (w : Words) (blocks : Vector Block n) : Except Fault (Vector View n) :=
  match hall : Block.checkAll (byteSize w) blocks.toList with
  | .error f => .error f
  | .ok () =>
    have hfit (i : Fin n) : (blocks.get i).pastWord ≤ w.size :=
      Block.pastWord_le_of_check (Block.check_of_checkAll hall (by simp [Vector.get]))
    cutViews blocks hfit (Block.places blocks) (View.whole w) 0 (by simp)
      (.replicate n ⟨0, 0⟩)

/-- Refuses blocks that cannot be handed out together. -/
def checkSplit (w : Words) (blocks : List Block) : Except Fault Unit := do
  Block.checkAll (byteSize w) blocks
  Block.checkApart 0 (Block.sortByOffset blocks)

/-- The words of each block, in the order given. -/
def split (w : Words) (blocks : List Block) : Except Fault (List Words) := do
  let views ← w.views blocks.toArray.toVector
  return views.toList.map fun v => v.read w

/-- The region with each part written back at its block. -/
def join (w : Words) (blocks : List Block) (parts : List Words) : Words :=
  View.writeAll w (blocks.map Block.view) parts

end Words

/-- Replaces the words of all blocks of the region worked on. -/
def Procedure.rewrite {n : Nat} (blocks : Vector Block n) (parts : Vector Words n) :
    Procedure Words Unit := do
  let w ← fetch
  let views ← check (w.views blocks)
  store (View.writeAll w views.toList parts.toList)

end StageQp
