import Mathlib.Algebra.BigOperators.Intervals
import Mathlib.Tactic.LinearCombination
import StageQp.Proofs.Kkt.Assembly
import StageQp.Proofs.Linear.Exact

/-!
# StageQp.Proofs.Kkt.Conditions

What the assembled system says, stage by stage.  A point gives a value to every
variable and multiplier (`StagePoint`); it is optimal (`Problem.Optimal`) if the
gradient of the Lagrangian vanishes in every stage and the states follow the
dynamics.  Over any commutative ring a vector solves the system exactly if the
point it holds is optimal (`mulVec_eq_rhs_iff`).  Every point is held by some vector
(`agree_gather`), so over a field, where the matrix is invertible, there is one
optimal point (`optimal_unique`).
-/

namespace StageQp

/-- A value for every variable and every multiplier, by stage. -/
structure StagePoint (F : Type) where
  ux : Nat → Nat → F
  pi : Nat → Nat → F

namespace StagePoint

variable {F : Type} {n : Nat}

/-- Two points have the same values where the shape has variables and multipliers. -/
structure Agree (shape : Shape) (s t : StagePoint F) : Prop where
  ux_eq : ∀ k ≤ shape.horizon, ∀ i < shape.nv k, s.ux k i = t.ux k i
  pi_eq : ∀ k < shape.horizon, ∀ r < shape.dynamics k, s.pi k r = t.pi k r

/-- The multipliers of the dynamics into stage `k`, by the variable they act on:
nothing for the controls and in the first stage. -/
def incoming [Zero F] (shape : Shape) (s : StagePoint F) : Nat → Nat → F
  | 0, _ => 0
  | k + 1, i =>
    if (shape.stage (k + 1)).nu.toNat ≤ i then s.pi k (i - (shape.stage (k + 1)).nu.toNat) else 0

/-- The point that a solution of the linear system holds: the entries of every
stage, as they are handed out. -/
def ofSolution [Zero F] (shape : Shape) (x : Coords F n) : StagePoint F where
  ux k i :=
    let s := Problem.place shape k
    (x.toArray.extract s.z (s.z + s.nv)).getD i 0
  pi k r :=
    let s := Problem.place shape k
    (x.toArray.extract s.e (s.e + s.ne)).getD r 0

/-- Points that agree have the same multipliers acting on a variable. -/
theorem Agree.incoming_eq [Zero F] {shape : Shape} {s t : StagePoint F} {k i : Nat}
    (h : s.Agree shape t) (hk : k ≤ shape.horizon) (hi : i < shape.nv k) :
    s.incoming shape k i = t.incoming shape k i := by
  cases k with
  | zero => rfl
  | succ k =>
      simp only [incoming]
      split
      · next hle => exact h.pi_eq k hk _ (Problem.coupling_lt hk hi hle)
      · rfl

end StagePoint

/-- The optimality conditions of a program without inequalities, which can be stated over
any commutative ring: the gradient of the Lagrangian vanishes in every stage, and the
states follow the dynamics. -/
structure Problem.Optimal {F : Type} [CommRing F] (p : Problem F) (s : StagePoint F) : Prop where
  stationary : ∀ k ≤ p.shape.horizon, ∀ i < p.shape.nv k,
    ∑ c ∈ Finset.range (p.shape.nv k), p.hessian k i c * s.ux k c + p.gradient k i +
      ∑ r ∈ Finset.range (p.shape.dynamics k), p.dynamics k r i * s.pi k r -
        s.incoming p.shape k i = 0
  follows : ∀ k < p.shape.horizon, ∀ r < p.shape.dynamics k,
    s.ux (k + 1) ((p.shape.stage (k + 1)).nu.toNat + r) =
      ∑ c ∈ Finset.range (p.shape.nv k), p.dynamics k r c * s.ux k c + p.offset k r

/-! ## The point that a column holds -/

/-- An entry of a part of a column. -/
theorem Coords.getD_extract {F : Type} {n first count i : Nat} (x : Coords F n) (row : Fin n)
    (hi : i < count) (hrow : row.val = first + i) (d : F) :
    (x.toArray.extract first (first + count)).getD i d = x.entry row := by
  have hlt := row.isLt
  rw [Array.getD_eq_getD_getElem?, Array.getElem?_extract_of_lt]
  · simp only [Option.getD_some, entry, hrow]
    rfl
  · rw [Vector.size_toArray]
    omega

/-- There is a row for every variable of every stage. -/
theorem Problem.exists_row_variable {shape : Shape} {n j i : Nat} (hn : n = shape.order)
    (hj : j ≤ shape.horizon) (hi : i < shape.nv j) :
    ∃ row : Fin n, row.val = (place shape j).z + i := by
  have hle := (place_inRange hj).variables_le
  have hv : (place shape j).nv = shape.nv j := rfl
  have ho : shape.order = shape.totalVariables + shape.totalDynamics := rfl
  exact ⟨⟨(place shape j).z + i, by omega⟩, rfl⟩

/-- There is a row for every equation of every stage. -/
theorem Problem.exists_row_equation {shape : Shape} {n j i : Nat} (hn : n = shape.order)
    (hj : j ≤ shape.horizon) (hi : i < shape.dynamics j) :
    ∃ row : Fin n, row.val = (place shape j).e + i := by
  have hle := (place_inRange hj).dynamics_le
  have hv : (place shape j).ne = shape.dynamics j := rfl
  exact ⟨⟨(place shape j).e + i, by omega⟩, rfl⟩

namespace StagePoint

variable {F : Type} {shape : Shape} {n j i : Nat}

/-- A variable of the point is the entry in its row. -/
theorem ofSolution_ux [Zero F] (x : Coords F n) {row : Fin n} (hi : i < shape.nv j)
    (hrow : row.val = (Problem.place shape j).z + i) :
    (ofSolution shape x).ux j i = x.entry row :=
  x.getD_extract row hi hrow 0

/-- A multiplier of the point is the entry in its row. -/
theorem ofSolution_pi [Zero F] (x : Coords F n) {row : Fin n} (hi : i < shape.dynamics j)
    (hrow : row.val = (Problem.place shape j).e + i) :
    (ofSolution shape x).pi j i = x.entry row :=
  x.getD_extract row hi hrow 0

/-- The column that holds a point. -/
def gather [AddCommMonoid F] (shape : Shape) (s : StagePoint F) : Coords F n :=
  .tabulate fun row => ∑ k ∈ Finset.range (shape.horizon + 1),
    let place := Problem.place shape k
    ((if Problem.within place.z place.nv row then s.ux k (row - place.z) else 0) +
      if Problem.within place.e place.ne row then s.pi k (row - place.e) else 0)

/-- Every point is held by a column. -/
theorem agree_gather [AddCommMonoid F] (hn : n = shape.order) (s : StagePoint F) :
    s.Agree shape (ofSolution shape (s.gather shape : Coords F n)) where
  ux_eq k hk i hi := by
    obtain ⟨row, hrow⟩ := Problem.exists_row_variable hn hk hi
    have hmem := Nat.lt_succ_of_le hk
    rw [ofSolution_ux _ hi hrow, gather, Coords.entry_tabulate, hrow]
    simp [Problem.within_variables hi, Problem.within_equations_variable hk hi, hmem]
  pi_eq k hk r hr := by
    obtain ⟨row, hrow⟩ := Problem.exists_row_equation hn (Nat.le_of_lt hk) hr
    have hmem := Nat.lt_succ_of_lt hk
    rw [ofSolution_pi _ hr hrow, gather, Coords.entry_tabulate, hrow,
      Finset.sum_eq_single_of_mem k (Finset.mem_range.2 hmem)]
    · simp [Problem.within_equations hr, Problem.within_variables_equation (Nat.le_of_lt hk)]
    · intro l hl hlk
      have hl := Nat.le_of_lt_succ (Finset.mem_range.1 hl)
      simp [Problem.within_equations hr, Problem.within_variables_equation hl, hlk]

end StagePoint

/-- Whether a point is optimal is a matter of the values that the shape has. -/
theorem Problem.Optimal.congr {F : Type} [CommRing F] {p : Problem F} {s t : StagePoint F}
    (h : p.Optimal s) (ha : s.Agree p.shape t) : p.Optimal t where
  stationary k hk i hi := by
    have hux : ∀ c ∈ Finset.range (p.shape.nv k),
        p.hessian k i c * t.ux k c = p.hessian k i c * s.ux k c := fun c hc => by
      rw [ha.ux_eq k hk c (Finset.mem_range.1 hc)]
    have hpi : ∀ r ∈ Finset.range (p.shape.dynamics k),
        p.dynamics k r i * t.pi k r = p.dynamics k r i * s.pi k r := fun r hr => by
      have hr := Finset.mem_range.1 hr
      rw [ha.pi_eq k (Shape.lt_horizon_of_dynamics (Nat.zero_lt_of_lt hr)) r hr]
    rw [Finset.sum_congr rfl hux, Finset.sum_congr rfl hpi, ← ha.incoming_eq hk hi]
    exact h.stationary k hk i hi
  follows k hk r hr := by
    have hux : ∀ c ∈ Finset.range (p.shape.nv k),
        p.dynamics k r c * t.ux k c = p.dynamics k r c * s.ux k c := fun c hc => by
      rw [ha.ux_eq k (Nat.le_of_lt hk) c (Finset.mem_range.1 hc)]
    rw [Finset.sum_congr rfl hux, ← ha.ux_eq (k + 1) hk _ (Problem.coupled_lt hr)]
    exact h.follows k hk r hr

/-! ## Sums over the rows of the system -/

section Sums

variable {F : Type} [AddCommMonoid F]

/-- A sum over the places of all stages, stage by stage. -/
theorem sum_range_sumBefore (f : Nat → Nat) (g : Nat → F) (m : Nat) :
    ∑ i ∈ Finset.range (Shape.sumBefore f m), g i =
      ∑ k ∈ Finset.range m, ∑ i ∈ Finset.range (f k), g (Shape.sumBefore f k + i) := by
  induction m with
  | zero => rfl
  | succ m ih => rw [Shape.sumBefore, Finset.sum_range_add, ih, Finset.sum_range_succ]

/-- The rows of the system are the variables and the equations of all stages. -/
theorem sum_range_order (shape : Shape) (g : Nat → F) :
    ∑ i ∈ Finset.range shape.order, g i =
      ∑ k ∈ Finset.range (shape.horizon + 1),
          ∑ i ∈ Finset.range (shape.nv k), g ((Problem.place shape k).z + i) +
        ∑ k ∈ Finset.range (shape.horizon + 1),
          ∑ r ∈ Finset.range (shape.dynamics k), g ((Problem.place shape k).e + r) := by
  rw [Shape.order, Finset.sum_range_add, Shape.totalVariables, Shape.variablesBefore,
    sum_range_sumBefore, Shape.totalDynamics_eq, Shape.dynamicsBefore, sum_range_sumBefore]
  simp only [Problem.place, Nat.add_assoc]
  rfl

/-- A sum over all stages in which only one term is not zero. -/
theorem sum_stages_eq_single {m k i : Nat} {f : Nat → Nat} {g : Nat → Nat → F} (hk : k < m)
    (hi : i < f k) (h : ∀ l c, ¬ (l = k ∧ c = i) → g l c = 0) :
    ∑ l ∈ Finset.range m, ∑ c ∈ Finset.range (f l), g l c = g k i := by
  rw [Finset.sum_eq_single k, Finset.sum_eq_single i]
  · exact fun c _ hc => h k c fun hkc => hc hkc.2
  · exact fun hn => absurd (Finset.mem_range.2 hi) hn
  · exact fun l _ hl => Finset.sum_eq_zero fun c _ => h l c fun hlc => hl hlc.1
  · exact fun hn => absurd (Finset.mem_range.2 hk) hn

/-- A sum over all stages to which only one stage adds. -/
theorem sum_stages_eq_stage {m k : Nat} {f : Nat → Nat} {g : Nat → Nat → F} (hk : k < m)
    (h : ∀ l c, l ≠ k → g l c = 0) :
    ∑ l ∈ Finset.range m, ∑ c ∈ Finset.range (f l), g l c =
      ∑ c ∈ Finset.range (f k), g k c := by
  rw [Finset.sum_eq_single k]
  · exact fun l _ hl => Finset.sum_eq_zero fun c _ => h l c hl
  · exact fun hn => absurd (Finset.mem_range.2 hk) hn

end Sums

/-! ## The rows of the system -/

section Rows

open scoped Exact Matrix

variable {F : Type} [CommRing F] [Exact.Extras F] {n j i : Nat}
variable {p : Problem F} {x v : Coords F n} {row : Fin n}

/-- A row whose entries are known block by block, times a column. -/
theorem Problem.mulVec_blocks {shape : Shape} (hn : n = shape.order) {m : Square F n}
    {a b : Nat → Nat → F}
    (ha : ∀ k ≤ shape.horizon, ∀ i < shape.nv k, ∀ col : Fin n,
      col.val = (place shape k).z + i → m.entry row col = a k i)
    (hb : ∀ k ≤ shape.horizon, ∀ r < shape.dynamics k, ∀ col : Fin n,
      col.val = (place shape k).e + r → m.entry row col = b k r) :
    (m.toMatrix *ᵥ x.entry) row =
      ∑ k ∈ Finset.range (shape.horizon + 1), ∑ i ∈ Finset.range (shape.nv k),
          a k i * (StagePoint.ofSolution shape x).ux k i +
        ∑ k ∈ Finset.range (shape.horizon + 1), ∑ r ∈ Finset.range (shape.dynamics k),
          b k r * (StagePoint.ofSolution shape x).pi k r := by
  obtain ⟨g, hg⟩ : ∃ g : Nat → F, ∀ col : Fin n, g col = m.entry row col * x.entry col :=
    ⟨fun c => if h : c < n then m.entry row ⟨c, h⟩ * x.entry ⟨c, h⟩ else 0,
      fun col => dif_pos col.isLt⟩
  have hsum : (m.toMatrix *ᵥ x.entry) row = ∑ c ∈ Finset.range n, g c := by
    rw [← Fin.sum_univ_eq_sum_range, Matrix.mulVec, dotProduct]
    exact Finset.sum_congr rfl fun col _ => (hg col).symm
  rw [hsum, show Finset.range n = Finset.range shape.order from congrArg _ hn, sum_range_order]
  congr 1
  · refine Finset.sum_congr rfl fun k hk => Finset.sum_congr rfl fun i hi => ?_
    have hk := Nat.le_of_lt_succ (Finset.mem_range.1 hk)
    have hi := Finset.mem_range.1 hi
    obtain ⟨col, hcol⟩ := exists_row_variable hn hk hi
    rw [← hcol, hg, ha k hk i hi col hcol, StagePoint.ofSolution_ux x hi hcol]
  · refine Finset.sum_congr rfl fun k hk => Finset.sum_congr rfl fun r hr => ?_
    have hk := Nat.le_of_lt_succ (Finset.mem_range.1 hk)
    have hr := Finset.mem_range.1 hr
    obtain ⟨col, hcol⟩ := exists_row_equation hn hk hr
    rw [← hcol, hg, hb k hk r hr col hcol, StagePoint.ofSolution_pi x hr hcol]

/-- The multipliers that act on a variable through a coupling. -/
theorem StagePoint.sum_incoming {shape : Shape} (s : StagePoint F) (hj : j ≤ shape.horizon)
    (hi : i < shape.nv j) :
    (∑ k ∈ Finset.range (shape.horizon + 1), ∑ r ∈ Finset.range (shape.dynamics k),
      if j = k + 1 ∧ i = (shape.stage (k + 1)).nu.toNat + r then s.pi k r else 0) =
        s.incoming shape j i := by
  cases j with
  | zero =>
      refine Finset.sum_eq_zero fun k _ => Finset.sum_eq_zero fun r _ => if_neg ?_
      exact fun h => absurd h.1 (Nat.succ_ne_zero k).symm
  | succ j =>
      rw [incoming]
      split
      · next hle =>
          have hr := Problem.coupling_lt hj hi hle
          rw [sum_stages_eq_single (k := j) (i := i - (shape.stage (j + 1)).nu.toNat)
            (Nat.lt_succ_of_lt hj) hr]
          · rw [if_pos ⟨rfl, by omega⟩]
          · rintro l c hlc
            refine if_neg ?_
            rintro ⟨hl, hc⟩
            obtain rfl : j = l := by omega
            exact hlc ⟨rfl, by omega⟩
      · next hle =>
          refine Finset.sum_eq_zero fun k _ => Finset.sum_eq_zero fun r _ => if_neg ?_
          rintro ⟨hk, hr⟩
          obtain rfl : j = k := by omega
          exact hle (by omega)

namespace Problem

/-- A block of dynamics with a coupling that it does not meet. -/
theorem ite_coupling_mul {P Q : Prop} [Decidable P] [Decidable Q] {a y : F} (h : P → ¬ Q) :
    (if P then a else if Q then -1 else 0) * y = (if P then a * y else 0) - if Q then y else 0 := by
  by_cases hp : P
  · simp [hp, h hp]
  · by_cases hq : Q
    · simp [hp, hq]
    · simp [hp, hq]

/-- The row of a variable. -/
theorem mulVec_variable (hn : n = p.shape.order) (hj : j ≤ p.shape.horizon)
    (hi : i < p.shape.nv j) (hrow : row.val = (place p.shape j).z + i) :
    ((p.assemble v).matrix.toMatrix *ᵥ x.entry) row =
      ∑ c ∈ Finset.range (p.shape.nv j),
          p.hessian j i c * (StagePoint.ofSolution p.shape x).ux j c +
        ∑ r ∈ Finset.range (p.shape.dynamics j),
          p.dynamics j r i * (StagePoint.ofSolution p.shape x).pi j r -
        (StagePoint.ofSolution p.shape x).incoming p.shape j i := by
  obtain ⟨s, hs⟩ : ∃ s, s = StagePoint.ofSolution p.shape x := ⟨_, rfl⟩
  have hsplit := fun k r => ite_coupling_mul (a := p.dynamics k r i) (y := s.pi k r)
    (P := j = k) (Q := j = k + 1 ∧ i = (p.shape.stage (k + 1)).nu.toNat + r) (by omega)
  rw [mulVec_blocks hn (a := fun k c => if j = k then p.hessian j i c else 0)
    (b := fun k r => if j = k then p.dynamics k r i
      else if j = k + 1 ∧ i = (p.shape.stage (k + 1)).nu.toNat + r then -1 else 0)
    (fun k hk c hc col hcol => entry_variables hj hk hi hc hrow hcol)
    (fun k hk r hr col hcol => entry_variable_equation hk hj hr hi hrow hcol), ← hs]
  have hjs := Nat.lt_succ_of_le hj
  rw [sum_stages_eq_stage hjs fun l c hl => by rw [if_neg (Ne.symm hl), zero_mul]]
  simp only [hsplit, Finset.sum_sub_distrib, if_true]
  rw [sum_stages_eq_stage hjs fun l c hl => if_neg (Ne.symm hl), s.sum_incoming hj hi,
    add_sub_assoc]
  simp only [if_true]

/-- The row of an equation. -/
theorem mulVec_equation (hn : n = p.shape.order) (hi : i < p.shape.dynamics j)
    (hrow : row.val = (place p.shape j).e + i) :
    ((p.assemble v).matrix.toMatrix *ᵥ x.entry) row =
      ∑ c ∈ Finset.range (p.shape.nv j),
          p.dynamics j i c * (StagePoint.ofSolution p.shape x).ux j c -
        (StagePoint.ofSolution p.shape x).ux (j + 1) ((p.shape.stage (j + 1)).nu.toNat + i) := by
  obtain ⟨s, hs⟩ : ∃ s, s = StagePoint.ofSolution p.shape x := ⟨_, rfl⟩
  have hlt := Shape.lt_horizon_of_dynamics (Nat.zero_lt_of_lt hi)
  have hj := Nat.le_of_lt hlt
  have hsplit := fun l c => ite_coupling_mul (a := p.dynamics j i c) (y := s.ux l c)
    (P := l = j) (Q := l = j + 1 ∧ c = (p.shape.stage (j + 1)).nu.toNat + i) (by omega)
  rw [mulVec_blocks hn (a := fun l c => if l = j then p.dynamics j i c
      else if l = j + 1 ∧ c = (p.shape.stage (j + 1)).nu.toNat + i then -1 else 0)
    (b := fun _ _ => 0)
    (fun l hl c hc col hcol => entry_equation_variable hj hl hi hc hrow hcol)
    (fun l hl c hc col hcol => entry_equations hj hi hc hrow hcol), ← hs]
  simp only [hsplit, Finset.sum_sub_distrib, zero_mul, Finset.sum_const_zero, add_zero]
  rw [sum_stages_eq_stage (k := j) (Nat.lt_succ_of_le hj) fun l c hl => if_neg hl,
    sum_stages_eq_single (k := j + 1) (i := (p.shape.stage (j + 1)).nu.toNat + i)
      (Nat.succ_lt_succ hlt) (coupled_lt hi) fun l c hlc => if_neg hlc]
  simp only [and_self, if_true]

/-- A vector solves the system exactly if the point it holds is optimal. -/
theorem mulVec_eq_rhs_iff (hn : n = p.shape.order) :
    (p.assemble v).matrix.toMatrix *ᵥ x.entry = (p.assemble v).rhs.entry ↔
      p.Optimal (StagePoint.ofSolution p.shape x) := by
  constructor
  · intro h
    constructor
    · intro k hk i hi
      obtain ⟨row, hrow⟩ := exists_row_variable hn hk hi
      have heq := congrFun h row
      rw [mulVec_variable hn hk hi hrow, rhs_variable hk hi hrow] at heq
      linear_combination heq
    · intro k _ r hr
      have hk := Nat.le_of_lt (Shape.lt_horizon_of_dynamics (Nat.zero_lt_of_lt hr))
      obtain ⟨row, hrow⟩ := exists_row_equation hn hk hr
      have heq := congrFun h row
      rw [mulVec_equation hn hr hrow, rhs_equation hr hrow] at heq
      linear_combination -heq
  · intro h
    funext row
    rcases Nat.lt_or_ge row.val p.shape.totalVariables with hlt | hge
    · obtain ⟨k, hk, hin⟩ := exists_variable hlt
      obtain ⟨i, hrow⟩ := Nat.exists_eq_add_of_le (within_iff.1 hin).1
      have hi : i < p.shape.nv k := by
        have hend := (within_iff.1 hin).2
        have hv : (place p.shape k).nv = p.shape.nv k := rfl
        omega
      rw [mulVec_variable hn hk hi hrow, rhs_variable hk hi hrow]
      linear_combination h.stationary k hk i hi
    · obtain ⟨k, hk, hin⟩ := exists_equation hge (hn ▸ row.isLt)
      obtain ⟨r, hrow⟩ := Nat.exists_eq_add_of_le (within_iff.1 hin).1
      have hr : r < p.shape.dynamics k := by
        have hend := (within_iff.1 hin).2
        have hv : (place p.shape k).ne = p.shape.dynamics k := rfl
        omega
      rw [mulVec_equation hn hr hrow, rhs_equation hr hrow]
      linear_combination
        -h.follows k (Shape.lt_horizon_of_dynamics (Nat.zero_lt_of_lt hr)) r hr

end Problem

end Rows

/-! ## Optimal points -/

section Optimal

open scoped Exact Matrix

variable {F : Type} [Field F] [LinearOrder F] {n : Nat} {p : Problem F} {x v : Coords F n}

namespace Problem

/-- Where the matrix is invertible, the point of a solution is the only optimal one. -/
theorem optimal_unique (hn : n = p.shape.order)
    (hunit : IsUnit (p.assemble v).matrix.toMatrix)
    (hx : (p.assemble v).matrix.toMatrix *ᵥ x.entry = (p.assemble v).rhs.entry)
    {s : StagePoint F} (hs : p.Optimal s) :
    s.Agree p.shape (StagePoint.ofSolution p.shape x) := by
  have hagree := s.agree_gather (n := n) hn
  have hgather := (mulVec_eq_rhs_iff (v := v) hn).2 (hs.congr hagree)
  have heq : (s.gather p.shape : Coords F n) = x :=
    Coords.ext (congrFun (Matrix.mulVec_injective_iff_isUnit.2 hunit (hgather.trans hx.symm)))
  rwa [heq] at hagree

end Problem

end Optimal

end StageQp
