import StageQp.Qp.Input
import StageQp.Qp.Output

/-!
# StageQp.Qp.Wrapping

Layouts in the arithmetic of the machine.  A dimension, a count, a length and an
offset are one machine word each, so a sum or a product that passes 64 bits wraps.
`Layout.ofShape` has the same numbers without a bound.

The records of a shape are addressable if their size is a machine word
(`Layout.Addressable`); short of that, no number of the layout wraps.
-/

namespace StageQp

/-- The least multiple of eight that is not below `bytes`; past the last one it is zero. -/
def alignUpWrapping (bytes : UInt64) : UInt64 := (bytes + 7) / 8 * 8

def doubleBytesWrapping (n : UInt64) : UInt64 := alignUpWrapping (n * 8)

def indexBytesWrapping (n : UInt64) : UInt64 := alignUpWrapping (n * 4)

/-! ## Counts -/

namespace StageDims

def nvWrapping (s : StageDims) : UInt64 := s.nu + s.nx

def boundsWrapping (s : StageDims) : UInt64 := s.nbx + s.nbu

def inequalitiesWrapping (s : StageDims) : UInt64 := s.boundsWrapping + s.ng

end StageDims

namespace Shape

def nvWrapping (s : Shape) (k : Nat) : UInt64 := (s.stage k).nvWrapping

def dynamicsWrapping (s : Shape) (k : Nat) : UInt64 :=
  if k < s.horizon then (s.stage (k + 1)).nx else 0

def sumBeforeWrapping (count : Nat → UInt64) : Nat → UInt64
  | 0 => 0
  | k + 1 => sumBeforeWrapping count k + count k

def inputStageBytesWrapping (shape : Shape) (k : Nat) : UInt64 :=
  let nv := shape.nvWrapping k
  let next := shape.dynamicsWrapping k
  let nb := (shape.stage k).boundsWrapping
  let ng := (shape.stage k).ng
  doubleBytesWrapping (nv * nv) + doubleBytesWrapping nv + doubleBytesWrapping (next * nv)
    + doubleBytesWrapping next + indexBytesWrapping nb + 2 * doubleBytesWrapping nb
    + doubleBytesWrapping (ng * nv) + 2 * doubleBytesWrapping ng

def outputStageBytesWrapping (shape : Shape) (k : Nat) : UInt64 :=
  doubleBytesWrapping (shape.nvWrapping k) + doubleBytesWrapping (shape.dynamicsWrapping k)
    + 2 * doubleBytesWrapping (2 * (shape.stage k).inequalitiesWrapping)

end Shape

/-- A family of fields with its counts in machine words. -/
class WrappingFields (Φ : Type) [StageFields Φ] where
  /-- Entries of a field at a stage. -/
  count : Shape → Nat → Φ → UInt64
  /-- Bytes of a record of the shape, in closed form. -/
  size : Shape → UInt64

namespace WrappingFields

variable {Φ : Type} [StageFields Φ] [WrappingFields Φ]

def bytes (shape : Shape) (k : Nat) (field : Φ) : UInt64 :=
  count shape k field * UInt64.ofNat (Record.bytes (StageFields.EntryOf field))

def lengths (Φ : Type) [StageFields Φ] [WrappingFields Φ] (shape : Shape) : List UInt64 :=
  (List.range (shape.horizon + 1)).flatMap fun k =>
    (StageFields.all : List Φ).map (bytes shape k)

end WrappingFields

instance : WrappingFields InputField where
  count shape k
    | .rsq => shape.nvWrapping k * shape.nvWrapping k
    | .rq => shape.nvWrapping k
    | .ba => shape.dynamicsWrapping k * shape.nvWrapping k
    | .b => shape.dynamicsWrapping k
    | .idxb | .lb | .ub => (shape.stage k).boundsWrapping
    | .dc => (shape.stage k).ng * shape.nvWrapping k
    | .lg | .ug => (shape.stage k).ng
  size shape := Shape.sumBeforeWrapping shape.inputStageBytesWrapping (shape.horizon + 1)

instance : WrappingFields OutputField where
  count shape k
    | .ux => shape.nvWrapping k
    | .pi => shape.dynamicsWrapping k
    | .lam | .t => 2 * (shape.stage k).inequalitiesWrapping
  size shape := alignUpWrapping (UInt64.ofNat (Record.bytes SolveInfo))
    + Shape.sumBeforeWrapping shape.outputStageBytesWrapping (shape.horizon + 1)

/-! ## Layouts -/

/-- A layout in progress, the first byte not given out yet a machine word. -/
structure WrappingCarver where
  cursor : UInt64 := 0

namespace WrappingCarver

def take (c : WrappingCarver) (bytes : UInt64) : Block × WrappingCarver :=
  (⟨c.cursor.toNat, bytes.toNat⟩, ⟨c.cursor + alignUpWrapping bytes⟩)

def takeAll (c : WrappingCarver) : List UInt64 → List Block × WrappingCarver
  | [] => ([], c)
  | bytes :: rest =>
    let (block, c) := c.take bytes
    let (blocks, c) := c.takeAll rest
    (block :: blocks, c)

end WrappingCarver

namespace Layout

variable {σ : Type}

/-- The layout of a record over a shape, its numbers machine words. -/
def ofShapeWrapping (Φ : Type) [StageFields Φ] [WrappingFields Φ] (shape : Shape) : Layout Φ :=
  let (lead, front) := WrappingCarver.take {} (UInt64.ofNat (StageFields.leadBytes Φ))
  let (blocks, back) := front.takeAll (WrappingFields.lengths Φ shape)
  { shape, lead, blocks, total := back.cursor.toNat }

/-- The layout of a record over a shape, which has to end on the size in closed form. -/
def assignWrapping (Φ : Type) [StageFields Φ] [WrappingFields Φ] (shape : Shape) :
    Procedure σ (Layout Φ) := do
  let layout := ofShapeWrapping Φ shape
  Procedure.finish ⟨layout.total⟩ (WrappingFields.size Φ shape).toNat (StageFields.title Φ)
  return layout

/-- The bytes of a record over the shape can be counted in a machine word. -/
def Addressable (Φ : Type) [StageFields Φ] (shape : Shape) : Prop :=
  StageFields.size Φ shape < 2 ^ 64

instance (Φ : Type) [StageFields Φ] (shape : Shape) : Decidable (Addressable Φ shape) :=
  inferInstanceAs (Decidable (StageFields.size Φ shape < 2 ^ 64))

end Layout

end StageQp
