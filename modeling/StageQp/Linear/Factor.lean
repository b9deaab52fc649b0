import StageQp.Linear.Matrix

/-!
# StageQp.Linear.Factor

Triangular factors of a square matrix, with row exchanges.  Columns are worked
off from left to right: the entry of largest magnitude on or below the diagonal
becomes the pivot, its row is exchanged with the diagonal one, the column below
is divided by it, and multiples of its row are taken from the rows below.

The factors share one matrix: the lower one below the diagonal, with ones
understood on it, the upper one on and above.
-/

namespace StageQp

variable {F : Type} [Scalar F] {n : Nat}

/-- The outcome of factoring a matrix. -/
structure Factors (F : Type) (n : Nat) where
  /-- Both factors; where factoring was given up, what was reached. -/
  lu : Square F n
  /-- For each column worked off, the row that was exchanged with the diagonal one. -/
  pivots : List (Fin n)
  /-- Whether every column had a pivot. -/
  complete : Bool

namespace Square

/-- The row of largest magnitude in column `j` on or below the diagonal, with
that magnitude.  The first of equal ones counts, and one that does not compare
is passed over. -/
def pivot (a : Square F n) (j : Fin n) : Fin n × F :=
  (List.finRange n).foldl
    (fun best i =>
      if j < i ∧ Scalar.lt best.2 (Scalar.abs (a.entry i j)) then
        (i, Scalar.abs (a.entry i j))
      else best)
    (j, Scalar.abs (a.entry j j))

/-- Works off column `j`, its pivot on the diagonal. -/
def eliminate (a : Square F n) (j : Fin n) : Square F n :=
  tabulate fun i c =>
    if j < i then
      let multiplier := a.entry i j / a.entry j j
      if c = j then multiplier
      else if j < c ∧ !Scalar.eq (a.entry j c) 0 then
        a.entry i c - multiplier * a.entry j c
      else a.entry i c
    else a.entry i c

/-- Works off the columns `js`, giving up at the first whose pivot is not above `tol`. -/
def factorColumns (tol : F) (a : Square F n) : List (Fin n) → Factors F n
  | [] => ⟨a, [], true⟩
  | j :: js =>
    let (p, magnitude) := a.pivot j
    if Scalar.lt tol magnitude then
      let rest := factorColumns tol ((a.exchangeRows j p).eliminate j) js
      { rest with pivots := p :: rest.pivots }
    else ⟨a, [], false⟩

/-- The factors of a matrix; pivots must be above `tol`. -/
def factor (tol : F) (a : Square F n) : Factors F n := factorColumns tol a (List.finRange n)

end Square

namespace Factors

/-! ## Solving with the factors -/

/-- The column with the row exchanges of the factoring made, in their order. -/
def permute (f : Factors F n) (x : Coords F n) : Coords F n :=
  ((List.finRange n).zip f.pivots).foldl (fun x (j, p) => x.exchange j p) x

/-- Takes the multiple of column `j` of the lower factor that entry `j` asks for
from the entries below. -/
def forwardStep (lu : Square F n) (x : Coords F n) (j : Fin n) : Coords F n :=
  let xj := x.entry j
  if Scalar.eq xj 0 then x
  else .tabulate fun i => if j < i then x.entry i - lu.entry i j * xj else x.entry i

/-- Divides entry `j` by the diagonal and takes the multiple of column `j` of
the upper factor from the entries above. -/
def backwardStep (lu : Square F n) (x : Coords F n) (j : Fin n) : Coords F n :=
  let xj := x.entry j / lu.entry j j
  .tabulate fun i =>
    if i < j then x.entry i - lu.entry i j * xj else if i = j then xj else x.entry i

def forward (lu : Square F n) (x : Coords F n) : Coords F n :=
  (List.finRange n).foldl (forwardStep lu) x

def backward (lu : Square F n) (x : Coords F n) : Coords F n :=
  (List.finRange n).reverse.foldl (backwardStep lu) x

/-- The solution of the factored system with right-hand side `x`. -/
def solve (f : Factors F n) (x : Coords F n) : Coords F n :=
  backward f.lu (forward f.lu (f.permute x))

end Factors

end StageQp
