import StageQp.Number.Scalar

/-!
# StageQp.Linear.Matrix

Coordinates and square matrices over a scalar type, held in flat storage, a
matrix column by column.  They are built entry by entry from a function, so
that what a step does to a matrix is what it says about one entry.
-/

namespace StageQp

variable {F : Type} {n : Nat}

/-! ## Coordinates -/

/-- A column of `n` scalars. -/
abbrev Coords (F : Type) (n : Nat) := Vector F n

namespace Coords

def tabulate (f : Fin n → F) : Coords F n := Vector.ofFn f

def entry (x : Coords F n) (i : Fin n) : F := x[i.val]

@[simp] theorem entry_tabulate (f : Fin n → F) (i : Fin n) : (tabulate f).entry i = f i := by
  simp [entry, tabulate]

def add [Add F] (x y : Coords F n) : Coords F n := tabulate fun i => x.entry i + y.entry i

def exchange (x : Coords F n) (i j : Fin n) : Coords F n :=
  x.swap i.val j.val i.isLt j.isLt

/-- The largest magnitude.  It starts with the first entry; an entry takes the
place of what was found so far unless that is at least as large, so a
not-a-number never lasts past the next entry. -/
def maxNorm [Scalar F] (x : Coords F n) : F :=
  match x.toList with
  | [] => 0
  | y :: ys =>
    ys.foldl (fun acc z => if Scalar.le (Scalar.abs z) acc then acc else Scalar.abs z)
      (Scalar.abs y)

def isFinite [Scalar F] (x : Coords F n) : Bool := x.all Scalar.isFinite

end Coords

/-! ## Square matrices -/

/-- A square matrix of order `n`. -/
structure Square (F : Type) (n : Nat) where
  /-- The entries, column by column. -/
  entries : Vector F (n * n)

namespace Square

/-- The place of row `i` of column `j`. -/
def place (i j : Fin n) : Fin (n * n) :=
  ⟨i.val + j.val * n, by
    have hj : (j.val + 1) * n ≤ n * n := Nat.mul_le_mul_right n j.isLt
    have hi := i.isLt
    rw [Nat.succ_mul] at hj
    omega⟩

def rowOf (k : Fin (n * n)) : Fin n :=
  ⟨k.val % n, Nat.mod_lt _ (Nat.pos_of_ne_zero fun h => by have := k.isLt; simp [h] at this)⟩

def columnOf (k : Fin (n * n)) : Fin n := ⟨k.val / n, Nat.div_lt_of_lt_mul k.isLt⟩

@[simp] theorem rowOf_place (i j : Fin n) : rowOf (place i j) = i := by
  apply Fin.ext
  simp [rowOf, place, Nat.mod_eq_of_lt i.isLt]

@[simp] theorem columnOf_place (i j : Fin n) : columnOf (place i j) = j := by
  apply Fin.ext
  have hn : 0 < n := Nat.lt_of_le_of_lt (Nat.zero_le _) i.isLt
  simp [columnOf, place, Nat.add_mul_div_right _ _ hn, Nat.div_eq_of_lt i.isLt]

def tabulate (f : Fin n → Fin n → F) : Square F n :=
  ⟨Vector.ofFn fun k => f (rowOf k) (columnOf k)⟩

def entry (a : Square F n) (i j : Fin n) : F := a.entries[(place i j).val]

@[simp] theorem entry_tabulate (f : Fin n → Fin n → F) (i j : Fin n) :
    (tabulate f).entry i j = f i j := by
  simp [entry, tabulate]

def zero [Zero F] : Square F n := tabulate fun _ _ => 0

def exchangeRows (a : Square F n) (i j : Fin n) : Square F n :=
  tabulate fun r c => a.entry (if r = i then j else if r = j then i else r) c

/-- The largest magnitude of an entry, at least zero; entries that do not compare are
passed over. -/
def maxEntry [Scalar F] (a : Square F n) : F :=
  a.entries.foldl (fun acc x => Scalar.larger acc (Scalar.abs x)) 0

end Square

end StageQp
