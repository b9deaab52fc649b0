import StageQp.Linear.Refine
import StageQp.Qp.Input

/-!
# StageQp.Kkt.Problem

The optimality conditions of a program without inequalities are linear.  With
the variables of all stages one behind the other, and then the multipliers of
all dynamics, they read

```
[H  E'] [z]   [-g]
[E  0 ] [l] = [-b]
```

where `H` has the quadratic costs on its diagonal, and the rows of `E` for the
dynamics of stage `k` say `BA [u; x] - x_next`.

The system is built stage by stage.  Its matrix starts from zeros; its
right-hand side starts from whatever was there, and every entry is written.
-/

namespace StageQp

/-- Equations of the optimality conditions: one for each variable and each multiplier. -/
def Shape.order (shape : Shape) : Nat := shape.totalVariables + shape.totalDynamics

/-- The data of a program without inequalities, by stage. -/
structure Problem (F : Type) where
  shape : Shape
  /-- Quadratic cost: stage, row, column. -/
  hessian : Nat → Nat → Nat → F
  /-- Linear cost: stage, row. -/
  gradient : Nat → Nat → F
  /-- Dynamics: stage, row, column. -/
  dynamics : Nat → Nat → Nat → F
  /-- Offset of the dynamics: stage, row. -/
  offset : Nat → Nat → F

namespace Problem

/-! ## Reading a program -/

def column (qp : QpInput) (field : InputField) : Array (Array (StageFields.EntryOf field)) :=
  (Array.range (qp.shape.horizon + 1)).map fun k => qp.getD k field

/-- The data of a program, its inequalities left out. -/
def ofInput (qp : QpInput) : Problem Binary64 :=
  let rsq : Array (Array Binary64) := column qp .rsq
  let rq : Array (Array Binary64) := column qp .rq
  let ba : Array (Array Binary64) := column qp .ba
  let b : Array (Array Binary64) := column qp .b
  { shape := qp.shape
    hessian k i j := (rsq.getD k #[]).getD (i + j * qp.shape.nv k) 0
    gradient k i := (rq.getD k #[]).getD i 0
    dynamics k i j := (ba.getD k #[]).getD (i + j * qp.shape.dynamics k) 0
    offset k i := (b.getD k #[]).getD i 0 }

/-! ## Building the system -/

variable {F : Type} [Scalar F]

/-- Where the parts of stage `k` stand in the system. -/
structure Place where
  /-- The first variable. -/
  z : Nat
  /-- Variables. -/
  nv : Nat
  /-- The first equation of the dynamics. -/
  e : Nat
  /-- Equations of the dynamics. -/
  ne : Nat
  /-- The first state of the next stage. -/
  x : Nat
deriving DecidableEq, Repr

def place (shape : Shape) (k : Nat) : Place where
  z := shape.variablesBefore k
  nv := shape.nv k
  e := shape.totalVariables + shape.dynamicsBefore k
  ne := shape.dynamics k
  x := shape.variablesBefore (k + 1) + (shape.stage (k + 1)).nu.toNat

/-- Whether `i` is one of the `count` numbers from `first` on. -/
def within (first count i : Nat) : Bool := first ≤ i && i < first + count

/-- The matrix with the entries of stage `k` written: its quadratic cost, its
dynamics below and their transpose to the right, and the two couplings to the
states of the next stage. -/
def placeMatrix (p : Problem F) (k : Nat) (m : Square F n) : Square F n :=
  let s := place p.shape k
  .tabulate fun r c =>
    if within s.z s.nv r && within s.z s.nv c then p.hessian k (r - s.z) (c - s.z)
    else if within s.e s.ne r && within s.z s.nv c then p.dynamics k (r - s.e) (c - s.z)
    else if within s.z s.nv r && within s.e s.ne c then p.dynamics k (c - s.e) (r - s.z)
    else if within s.e s.ne r && c.val == s.x + (r - s.e) then -1
    else if within s.e s.ne c && r.val == s.x + (c - s.e) then -1
    else m.entry r c

/-- The right-hand side with the entries of stage `k` written. -/
def placeRhs (p : Problem F) (k : Nat) (v : Coords F n) : Coords F n :=
  let s := place p.shape k
  .tabulate fun i =>
    if within s.z s.nv i then -p.gradient k (i - s.z)
    else if within s.e s.ne i then -p.offset k (i - s.e)
    else v.entry i

/-- The optimality conditions; `before` is what the right-hand side is written over. -/
def assemble (p : Problem F) (before : Coords F n) : LinearSystem F n :=
  let stages := List.range (p.shape.horizon + 1)
  { matrix := stages.foldl (fun m k => p.placeMatrix k m) .zero
    rhs := stages.foldl (fun v k => p.placeRhs k v) before }

/-- The matrix with the first `nz` diagonal entries raised by `reg` and the others lowered by it. -/
def regularize (nz : Nat) (reg : F) (m : Square F n) : Square F n :=
  .tabulate fun r c =>
    if r = c then m.entry r c + (if r.val < nz then reg else -reg) else m.entry r c

end Problem

end StageQp
