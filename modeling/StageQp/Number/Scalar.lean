/-!
# StageQp.Number.Scalar

The scalar operations the dense kernel is written over.  The kernel runs on
`Binary64`; read over an exact ordered field the same definitions are the
algorithms of linear algebra, so both readings share one text.

Comparisons are `Bool`-valued: on a type with a not-a-number they are the
tests the machine makes, and no law ties `lt` to `le`.
-/

namespace StageQp

/-- What the dense kernel asks of a scalar type. -/
class Scalar (F : Type) extends Zero F, One F, Neg F, Add F, Sub F, Mul F, Div F where
  /-- Absolute value. -/
  abs : F → F
  /-- Strictly less. -/
  lt : F → F → Bool
  /-- Less or equal. -/
  le : F → F → Bool
  /-- Numerically equal. -/
  eq : F → F → Bool
  /-- Neither infinite nor a not-a-number. -/
  isFinite : F → Bool

namespace Scalar

variable {F : Type} [Scalar F]

/-- The larger of `acc` and `x`; `acc` when the two do not compare. -/
def larger (acc x : F) : F := if lt acc x then x else acc

end Scalar

end StageQp
