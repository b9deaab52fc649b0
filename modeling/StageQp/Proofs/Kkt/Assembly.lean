import Mathlib.Tactic.SplitIfs
import StageQp.Proofs.Kkt.Place

/-!
# StageQp.Proofs.Kkt.Assembly

What the assembled system holds, block by block.  A stage writes an entry or
leaves it (`stageEntry`), and of all stages at most one writes a given entry, so
the entry is what that stage writes (`assemble_entry`).  With the rows and columns
named by stage, the blocks are the quadratic costs (`entry_variables`), the
dynamics with their couplings (`entry_equation_variable`), the same transposed
(`entry_variable_equation`), and zero (`entry_equations`); the right-hand side has
the linear costs and the offsets (`rhs_variable`, `rhs_equation`).
-/

namespace StageQp

namespace Problem

/-! ## Rows by stage -/

section Rows

variable {s : Shape} {i j k r : Nat}

/-- A variable of stage `j` stands among those of stage `j` only. -/
theorem within_variables (hi : i < s.nv j) :
    within (place s k).z (place s k).nv ((place s j).z + i) = decide (k = j) := by
  rw [Bool.eq_iff_iff, within_iff, decide_eq_true_iff]
  exact Shape.mem_sumBefore_iff hi

/-- An equation of stage `j` stands among those of stage `j` only. -/
theorem within_equations (hr : r < s.dynamics j) :
    within (place s k).e (place s k).ne ((place s j).e + r) = decide (k = j) := by
  rw [Bool.eq_iff_iff, within_iff, decide_eq_true_iff, ← Shape.mem_sumBefore_iff hr]
  simp only [place, Shape.dynamicsBefore]
  omega

/-- No equation lies among the variables of a stage. -/
theorem within_variables_equation (hk : k ≤ s.horizon) :
    within (place s k).z (place s k).nv ((place s j).e + r) = false := by
  have hle := (place_inRange hk).variables_le
  rw [Bool.eq_false_iff, ne_eq, within_iff]
  simp only [place] at hle ⊢
  omega

/-- No variable lies among the equations of a stage. -/
theorem within_equations_variable (hj : j ≤ s.horizon) (hi : i < s.nv j) :
    within (place s k).e (place s k).ne ((place s j).z + i) = false := by
  have hle := (place_inRange hj).variables_le
  rw [Bool.eq_false_iff, ne_eq, within_iff]
  simp only [place] at hle ⊢
  omega

/-- The states that an equation is coupled to are variables of the next stage. -/
theorem coupled_lt (hr : r < s.dynamics k) :
    (s.stage (k + 1)).nu.toNat + r < s.nv (k + 1) := by
  rw [Shape.dynamics, if_pos (Shape.lt_horizon_of_dynamics (Nat.zero_lt_of_lt hr))] at hr
  simp only [Shape.nv, StageDims.nv]
  omega

/-- The states of the next stage are variables that an equation is coupled to. -/
theorem coupling_lt (hk : k < s.horizon) (hi : i < s.nv (k + 1))
    (hle : (s.stage (k + 1)).nu.toNat ≤ i) : i - (s.stage (k + 1)).nu.toNat < s.dynamics k := by
  rw [Shape.dynamics, if_pos hk]
  simp only [Shape.nv, StageDims.nv] at hi
  omega

/-- An equation is coupled to the state of the next stage that it gives, and to no other. -/
theorem coupled_iff (hi : i < s.nv j) (hr : r < s.dynamics k) :
    (place s j).z + i = (place s k).x + r ↔
      j = k + 1 ∧ i = (s.stage (k + 1)).nu.toNat + r := by
  constructor
  · intro h
    have hin : within (place s (k + 1)).z (place s (k + 1)).nv ((place s j).z + i) = true := by
      have hlt := coupled_lt hr
      rw [within_iff, h]
      simp only [place]
      omega
    rw [within_variables hi, decide_eq_true_iff] at hin
    subst hin
    simp only [place] at h
    omega
  · rintro ⟨rfl, rfl⟩
    simp only [place]
    omega

/-- No equation is coupled to an equation. -/
theorem coupled_ne (hr : r < s.dynamics k) : (place s k).x + r ≠ (place s j).e + i := by
  have hpos := Nat.zero_lt_of_lt hr
  have hin := place_inRange (Nat.le_of_lt (Shape.lt_horizon_of_dynamics hpos))
  have hle := hin.states_le hpos
  have hne : (place s k).ne = s.dynamics k := rfl
  have hge : s.totalVariables ≤ (place s j).e := Nat.le_add_right _ _
  omega

end Rows

/-! ## Who writes an entry -/

variable {F : Type} [Scalar F] {n : Nat}

/-- What stage `k` writes in row `r` and column `c` of the matrix. -/
def stageEntry (p : Problem F) (k r c : Nat) : Option F :=
  let s := place p.shape k
  if within s.z s.nv r && within s.z s.nv c then some (p.hessian k (r - s.z) (c - s.z))
  else if within s.e s.ne r && within s.z s.nv c then some (p.dynamics k (r - s.e) (c - s.z))
  else if within s.z s.nv r && within s.e s.ne c then some (p.dynamics k (c - s.e) (r - s.z))
  else if within s.e s.ne r && c == s.x + (r - s.e) then some (-1)
  else if within s.e s.ne c && r == s.x + (c - s.e) then some (-1)
  else none

/-- A stage sets the entries that it has and leaves the others. -/
theorem placeMatrix_entry (p : Problem F) (k : Nat) (m : Square F n) (r c : Fin n) :
    (p.placeMatrix k m).entry r c = (p.stageEntry k r c).getD (m.entry r c) := by
  simp only [placeMatrix, stageEntry, Square.entry_tabulate]
  split_ifs <;> rfl

/-- If only one stage has an entry, that stage sets it. -/
theorem foldl_placeMatrix_entry (p : Problem F) {j : Nat} {r c : Fin n} (stages : List Nat)
    (h : ∀ k ∈ stages, k ≠ j → p.stageEntry k r c = none) (m : Square F n) :
    (stages.foldl (fun m k => p.placeMatrix k m) m).entry r c =
      if j ∈ stages then (p.stageEntry j r c).getD (m.entry r c) else m.entry r c := by
  induction stages generalizing m with
  | nil => simp
  | cons k stages ih =>
      rw [List.foldl_cons, ih fun k hk => h k (List.mem_cons_of_mem _ hk), placeMatrix_entry]
      by_cases hk : k = j
      · subst hk
        cases p.stageEntry k r c <;> simp
      · simp [h k (List.mem_cons_self ..) hk, Ne.symm hk]

/-- An entry that no other stage writes is what stage `j` writes. -/
theorem assemble_entry (p : Problem F) (v : Coords F n) {j : Nat} (hj : j ≤ p.shape.horizon)
    (r c : Fin n) (h : ∀ k ≤ p.shape.horizon, k ≠ j → p.stageEntry k r c = none) :
    (p.assemble v).matrix.entry r c = (p.stageEntry j r c).getD 0 := by
  rw [assemble, foldl_placeMatrix_entry p (j := j) _ fun k hk =>
    h k (Nat.le_of_lt_succ (List.mem_range.1 hk))]
  rw [if_pos (List.mem_range.2 (Nat.lt_succ_of_le hj)), Square.zero, Square.entry_tabulate]

/-! ## The blocks -/

section Blocks

variable {p : Problem F} {v : Coords F n} {j l i c : Nat} {row col : Fin n}

/-- Variables meet in the quadratic cost of their stage. -/
theorem entry_variables (hj : j ≤ p.shape.horizon) (hl : l ≤ p.shape.horizon)
    (hi : i < p.shape.nv j) (hc : c < p.shape.nv l)
    (hrow : row.val = (place p.shape j).z + i) (hcol : col.val = (place p.shape l).z + c) :
    (p.assemble v).matrix.entry row col = if j = l then p.hessian j i c else 0 := by
  rw [assemble_entry p v hj row col]
  · simp only [hrow, hcol, stageEntry, within_variables hi, within_variables hc,
      within_equations_variable hj hi, within_equations_variable hl hc]
    by_cases hjl : j = l
    · subst hjl
      simp
    · simp [hjl]
  · intro k hk hkj
    simp [hrow, hcol, stageEntry, within_variables hi, within_equations_variable hj hi,
      within_equations_variable hl hc, hkj]

/-- No other stage has an entry between an equation of this one and a variable. -/
theorem stageEntry_of_ne {k : Nat} (hk : k ≤ p.shape.horizon) (hl : l ≤ p.shape.horizon)
    (hi : i < p.shape.dynamics j) (hc : c < p.shape.nv l) (hkj : k ≠ j) :
    p.stageEntry k ((place p.shape j).e + i) ((place p.shape l).z + c) = none := by
  simp [stageEntry, within_equations hi, within_variables_equation hk,
    within_equations_variable hl hc, hkj]

/-- An equation has the dynamics of its stage, and minus one at the state of the
next stage that it is coupled to. -/
theorem entry_equation_variable (hj : j ≤ p.shape.horizon) (hl : l ≤ p.shape.horizon)
    (hi : i < p.shape.dynamics j) (hc : c < p.shape.nv l)
    (hrow : row.val = (place p.shape j).e + i) (hcol : col.val = (place p.shape l).z + c) :
    (p.assemble v).matrix.entry row col =
      if l = j then p.dynamics j i c
      else if l = j + 1 ∧ c = (p.shape.stage (j + 1)).nu.toNat + i then -1 else 0 := by
  rw [assemble_entry p v hj row col]
  · simp only [hrow, hcol, stageEntry, within_equations hi, within_variables hc,
      within_variables_equation hj, within_equations_variable hl hc, Nat.add_sub_cancel_left,
      beq_iff_eq, coupled_iff hc hi, Bool.and_eq_true, decide_eq_true_eq]
    by_cases hjl : l = j
    · subst hjl
      simp
    · by_cases hcoupled : l = j + 1 ∧ c = (p.shape.stage (j + 1)).nu.toNat + i
      · simp [hcoupled]
      · simp [hjl, Ne.symm hjl, hcoupled]
  · intro k hk hkj
    rw [hrow, hcol, stageEntry_of_ne hk hl hi hc hkj]

/-- What ties an equation to a variable is written to both sides of the diagonal. -/
theorem stageEntry_comm {k : Nat} (hk : k ≤ p.shape.horizon) (hl : l ≤ p.shape.horizon)
    (hi : i < p.shape.dynamics j) (hc : c < p.shape.nv l) :
    p.stageEntry k ((place p.shape l).z + c) ((place p.shape j).e + i) =
      p.stageEntry k ((place p.shape j).e + i) ((place p.shape l).z + c) := by
  simp [stageEntry, within_equations hi, within_variables hc, within_variables_equation hk,
    within_equations_variable hl hc, and_comm]

/-- A variable has the dynamics transposed. -/
theorem entry_variable_equation (hj : j ≤ p.shape.horizon) (hl : l ≤ p.shape.horizon)
    (hi : i < p.shape.dynamics j) (hc : c < p.shape.nv l)
    (hrow : row.val = (place p.shape l).z + c) (hcol : col.val = (place p.shape j).e + i) :
    (p.assemble v).matrix.entry row col =
      if l = j then p.dynamics j i c
      else if l = j + 1 ∧ c = (p.shape.stage (j + 1)).nu.toNat + i then -1 else 0 := by
  have hnone : ∀ k ≤ p.shape.horizon, k ≠ j →
      p.stageEntry k ((place p.shape j).e + i) ((place p.shape l).z + c) = none :=
    fun k hk hkj => stageEntry_of_ne hk hl hi hc hkj
  rw [← entry_equation_variable (v := v) hj hl hi hc hcol hrow,
    assemble_entry p v hj row col, assemble_entry p v hj col row]
  · rw [hrow, hcol, stageEntry_comm hj hl hi hc]
  · intro k hk hkj
    rw [hrow, hcol, hnone k hk hkj]
  · intro k hk hkj
    rw [hrow, hcol, stageEntry_comm hk hl hi hc, hnone k hk hkj]

/-- Equations do not meet. -/
theorem entry_equations (hj : j ≤ p.shape.horizon) (hi : i < p.shape.dynamics j)
    (hc : c < p.shape.dynamics l)
    (hrow : row.val = (place p.shape j).e + i) (hcol : col.val = (place p.shape l).e + c) :
    (p.assemble v).matrix.entry row col = 0 := by
  have hnone : ∀ k ≤ p.shape.horizon,
      p.stageEntry k ((place p.shape j).e + i) ((place p.shape l).e + c) = none := by
    intro k hk
    simp only [stageEntry, within_equations hi, within_equations hc, within_variables_equation hk]
    by_cases hkj : k = j
    · subst hkj
      by_cases hkl : k = l
      · subst hkl
        simp [Ne.symm (coupled_ne hi), Ne.symm (coupled_ne hc)]
      · simp [hkl, Ne.symm (coupled_ne hi)]
    · by_cases hkl : k = l
      · subst hkl
        simp [hkj, Ne.symm (coupled_ne hc)]
      · simp [hkj, hkl]
  rw [assemble_entry p v hj row col fun k hk _ => by rw [hrow, hcol, hnone k hk], hrow, hcol,
    hnone j hj]
  rfl

/-! ## The right-hand side -/

/-- A row that no other stage writes is what stage `j` writes. -/
theorem foldl_placeRhs_entry (p : Problem F) {j : Nat} {row : Fin n} {x : F} (stages : List Nat)
    (hother : ∀ k ∈ stages, k ≠ j → ∀ v : Coords F n, (p.placeRhs k v).entry row = v.entry row)
    (hown : ∀ v : Coords F n, (p.placeRhs j v).entry row = x) (v : Coords F n)
    (h : j ∈ stages ∨ v.entry row = x) :
    (stages.foldl (fun v k => p.placeRhs k v) v).entry row = x := by
  induction stages generalizing v with
  | nil => simpa using h
  | cons k stages ih =>
      rw [List.foldl_cons]
      refine ih (fun k hk => hother k (List.mem_cons_of_mem _ hk)) _ ?_
      by_cases hk : k = j
      · subst hk
        exact .inr (hown v)
      · rcases h with h | h
        · exact .inl ((List.mem_cons.1 h).resolve_left (Ne.symm hk))
        · exact .inr ((hother k (List.mem_cons_self ..) hk v).trans h)

/-- The right-hand side of a variable is its gradient, turned around. -/
theorem rhs_variable (hj : j ≤ p.shape.horizon) (hi : i < p.shape.nv j)
    (hrow : row.val = (place p.shape j).z + i) :
    (p.assemble v).rhs.entry row = -p.gradient j i := by
  refine foldl_placeRhs_entry p (j := j) _ ?_ ?_ v
    (.inl (List.mem_range.2 (Nat.lt_succ_of_le hj)))
  · intro k _ hkj w
    simp [placeRhs, hrow, within_variables hi, within_equations_variable hj hi, hkj]
  · intro w
    simp [placeRhs, hrow, within_variables hi]

/-- The right-hand side of an equation is its offset, turned around. -/
theorem rhs_equation (hi : i < p.shape.dynamics j)
    (hrow : row.val = (place p.shape j).e + i) :
    (p.assemble v).rhs.entry row = -p.offset j i := by
  have hj := Nat.le_of_lt (Shape.lt_horizon_of_dynamics (Nat.zero_lt_of_lt hi))
  refine foldl_placeRhs_entry p (j := j) _ ?_ ?_ v
    (.inl (List.mem_range.2 (Nat.lt_succ_of_le hj)))
  · intro k hk hkj w
    have hk := Nat.le_of_lt_succ (List.mem_range.1 hk)
    simp [placeRhs, hrow, within_equations hi, within_variables_equation hk, hkj]
  · intro w
    simp [placeRhs, hrow, within_equations hi, within_variables_equation hj]

end Blocks

end Problem

end StageQp
