import StageQp.Qp.StageData

/-!
# StageQp.Qp.Input

The data of a quadratic program over stages `0 .. N`:

```
minimize    sum_k  1/2 [u; x]' RSQ [u; x] + rq' [u; x]
subject to  x_next = BA [u; x] + b            for k < N
            lb <= [u; x] at idxb <= ub
            lg <= DC [u; x] <= ug
```

Matrices are stored column by column.
-/

namespace StageQp

/-- The fields of the data of one stage. -/
inductive InputField where
  /-- The quadratic cost, a square matrix. -/
  | rsq
  /-- The linear cost. -/
  | rq
  /-- The dynamics, one row for each state of the next stage. -/
  | ba
  /-- The offset of the dynamics. -/
  | b
  /-- Which variables are bounded. -/
  | idxb
  /-- Lower bounds. -/
  | lb
  /-- Upper bounds. -/
  | ub
  /-- The general constraints, one row each. -/
  | dc
  /-- Lower sides of the general constraints. -/
  | lg
  /-- Upper sides of the general constraints. -/
  | ug
deriving DecidableEq, Repr

namespace InputField

def all : List InputField := [rsq, rq, ba, b, idxb, lb, ub, dc, lg, ug]

def index : InputField → Nat
  | rsq => 0
  | rq => 1
  | ba => 2
  | b => 3
  | idxb => 4
  | lb => 5
  | ub => 6
  | dc => 7
  | lg => 8
  | ug => 9

/-- Bounded variables are named by indices; all else is doubles. -/
@[reducible] def kind : InputField → EntryKind
  | idxb => .index
  | _ => .double

/-- Entries of a field at stage `k`. -/
def count (shape : Shape) (k : Nat) : InputField → Nat
  | rsq => shape.nv k * shape.nv k
  | rq => shape.nv k
  | ba => shape.dynamics k * shape.nv k
  | b => shape.dynamics k
  | idxb | lb | ub => (shape.stage k).bounds
  | dc => (shape.stage k).ng.toNat * shape.nv k
  | lg | ug => (shape.stage k).ng.toNat

end InputField

def Shape.inputStageBytes (shape : Shape) (k : Nat) : Nat :=
  let nv := shape.nv k
  let next := shape.dynamics k
  let nb := (shape.stage k).bounds
  let ng := (shape.stage k).ng.toNat
  doubleBytes (nv * nv) + doubleBytes nv + doubleBytes (next * nv) + doubleBytes next
    + indexBytes nb + 2 * doubleBytes nb + doubleBytes (ng * nv) + 2 * doubleBytes ng

/-- Bytes of the data of a program.  They can be addressed if they are fewer than `2 ^ 64`
(`Layout.Addressable`). -/
def Shape.inputBytes (shape : Shape) : Nat :=
  sumBefore shape.inputStageBytes (shape.horizon + 1)

instance : StageFields InputField where
  all := InputField.all
  index := InputField.index
  kind := InputField.kind
  count := InputField.count
  leadBytes := 0
  size := Shape.inputBytes
  title := "qp_in"

/-- The data of a quadratic program. -/
abbrev QpInput := StageData InputField

end StageQp
