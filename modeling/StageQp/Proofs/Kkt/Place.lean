import StageQp.Kkt.Problem
import StageQp.Proofs.Linear.Matrix

/-!
# StageQp.Proofs.Kkt.Place

Where the stages stand in the linear system.  The variables of all stages fill
the front of it and the dynamics the rest; every row is a variable or an equation
of some stage (`exists_variable`, `exists_equation`), and everything a stage
writes lies inside the system (`place_inRange`).  So nothing is left of what
the right-hand side is written over (`assemble_congr`).
-/

namespace StageQp

/-! ## Running sums -/

namespace Shape

/-- A number below a running sum lies in the range of one of its terms. -/
theorem exists_of_lt_sumBefore {f : Nat → Nat} {n i : Nat} (h : i < sumBefore f n) :
    ∃ k < n, sumBefore f k ≤ i ∧ i < sumBefore f k + f k := by
  induction n with
  | zero => exact absurd h (Nat.not_lt_zero i)
  | succ n ih =>
      rcases Nat.lt_or_ge i (sumBefore f n) with hlt | hge
      · obtain ⟨k, hk, hin⟩ := ih hlt
        exact ⟨k, Nat.lt_succ_of_lt hk, hin⟩
      · exact ⟨n, Nat.lt_succ_self n, hge, h⟩

/-- There is not less in front of a later stage. -/
theorem sumBefore_mono {f : Nat → Nat} {m n : Nat} (h : m ≤ n) : sumBefore f m ≤ sumBefore f n := by
  induction h with
  | refl => exact Nat.le_refl _
  | step _ ih => exact Nat.le_trans ih (Nat.le_add_right _ _)

/-- The ranges of a running sum do not meet. -/
theorem mem_sumBefore_iff {f : Nat → Nat} {i j k : Nat} (hi : i < f j) :
    (sumBefore f k ≤ sumBefore f j + i ∧ sumBefore f j + i < sumBefore f k + f k) ↔ k = j := by
  rcases Nat.lt_trichotomy j k with hlt | rfl | hgt
  · have hmono : sumBefore f j + f j ≤ sumBefore f k := sumBefore_mono (Nat.succ_le_of_lt hlt)
    omega
  · omega
  · have hmono : sumBefore f k + f k ≤ sumBefore f j := sumBefore_mono (Nat.succ_le_of_lt hgt)
    omega

variable {s : Shape} {k : Nat}

/-- No equations follow the last stage. -/
theorem dynamics_of_horizon_le (h : s.horizon ≤ k) : s.dynamics k = 0 :=
  if_neg (Nat.not_lt.2 h)

/-- A stage with dynamics is not the last. -/
theorem lt_horizon_of_dynamics (h : 0 < s.dynamics k) : k < s.horizon := by
  rcases Nat.lt_or_ge k s.horizon with hlt | hge
  · exact hlt
  · rw [dynamics_of_horizon_le hge] at h
    exact absurd h (Nat.lt_irrefl 0)

/-- The last stage has no dynamics, so the sum may as well go past it. -/
theorem totalDynamics_eq (s : Shape) : s.totalDynamics = s.dynamicsBefore (s.horizon + 1) := by
  rw [totalDynamics, dynamicsBefore, dynamicsBefore, sumBefore,
    dynamics_of_horizon_le (Nat.le_refl _), Nat.add_zero]

/-- The variables of a stage are among all. -/
theorem variables_le_total (h : k ≤ s.horizon) :
    s.variablesBefore k + s.nv k ≤ s.totalVariables :=
  sumBefore_mono (f := s.nv) (Nat.succ_le_succ h)

/-- The equations of a stage are among all. -/
theorem dynamics_le_total (h : k ≤ s.horizon) :
    s.dynamicsBefore k + s.dynamics k ≤ s.totalDynamics := by
  rw [totalDynamics_eq]
  exact sumBefore_mono (f := s.dynamics) (Nat.succ_le_succ h)

end Shape

namespace Problem

/-- Everything that a stage writes lies inside a system with so many variables and
so many rows: its variables, its dynamics, and the states of the next stage. -/
structure Place.InRange (p : Place) (nz order : Nat) : Prop where
  variables_le : p.z + p.nv ≤ nz
  dynamics_ge : nz ≤ p.e
  dynamics_le : p.e + p.ne ≤ order
  states_le : 0 < p.ne → p.x + p.ne ≤ nz

/-- The place of a stage lies inside the system. -/
theorem place_inRange {shape : Shape} {k : Nat} (h : k ≤ shape.horizon) :
    (place shape k).InRange shape.totalVariables shape.order where
  variables_le := Shape.variables_le_total h
  dynamics_ge := Nat.le_add_right _ _
  dynamics_le := by
    have hd := Shape.dynamics_le_total h
    simp only [place, Shape.order]
    omega
  states_le hne := by
    have hk : k < shape.horizon := Shape.lt_horizon_of_dynamics hne
    have hv := Shape.variables_le_total (s := shape) (k := k + 1) hk
    have hne : shape.dynamics k = (shape.stage (k + 1)).nx.toNat := if_pos hk
    simp only [place, hne]
    simp only [Shape.nv, StageDims.nv] at hv
    omega

/-! ## Every row belongs to a stage -/

theorem within_iff {first count i : Nat} :
    within first count i = true ↔ first ≤ i ∧ i < first + count := by
  simp [within]

/-- A row in front of the equations is a variable of some stage. -/
theorem exists_variable {shape : Shape} {i : Nat} (h : i < shape.totalVariables) :
    ∃ k ≤ shape.horizon, within (place shape k).z (place shape k).nv i = true := by
  obtain ⟨k, hk, hin⟩ := Shape.exists_of_lt_sumBefore h
  exact ⟨k, Nat.le_of_lt_succ hk, within_iff.2 hin⟩

/-- A row behind the variables is an equation of some stage. -/
theorem exists_equation {shape : Shape} {i : Nat} (hv : shape.totalVariables ≤ i)
    (h : i < shape.order) :
    ∃ k ≤ shape.horizon, within (place shape k).e (place shape k).ne i = true := by
  have hd : i - shape.totalVariables < Shape.sumBefore shape.dynamics shape.horizon := by
    have ho : shape.order =
      shape.totalVariables + Shape.sumBefore shape.dynamics shape.horizon := rfl
    omega
  obtain ⟨k, hk, hge, hlt⟩ := Shape.exists_of_lt_sumBefore hd
  refine ⟨k, Nat.le_of_lt hk, within_iff.2 ?_⟩
  simp only [place, Shape.dynamicsBefore]
  omega

/-! ## What the right-hand side is written over -/

variable {F : Type} [Scalar F] {n : Nat}

/-- Rows that some stage has written do not depend on what was there before. -/
theorem foldl_placeRhs_congr (p : Problem F) (v w : Coords F n) (stages : List Nat) (i : Fin n)
    (h : v.entry i = w.entry i ∨ ∃ k ∈ stages,
      within (place p.shape k).z (place p.shape k).nv i = true ∨
        within (place p.shape k).e (place p.shape k).ne i = true) :
    (stages.foldl (fun v k => p.placeRhs k v) v).entry i =
      (stages.foldl (fun v k => p.placeRhs k v) w).entry i := by
  induction stages generalizing v w with
  | nil =>
      rcases h with h | ⟨k, hk, -⟩
      · exact h
      · cases hk
  | cons j stages ih =>
      refine ih (p.placeRhs j v) (p.placeRhs j w) ?_
      by_cases hj : within (place p.shape j).z (place p.shape j).nv i = true ∨
          within (place p.shape j).e (place p.shape j).ne i = true
      · left
        simp only [placeRhs, Coords.entry_tabulate]
        rcases hj with hj | hj
        · simp [hj]
        · simp [hj]
      · rcases h with h | ⟨k, hk, hin⟩
        · left
          simp only [placeRhs, Coords.entry_tabulate, h]
        · rcases List.mem_cons.1 hk with rfl | hk
          · exact absurd hin hj
          · exact .inr ⟨k, hk, hin⟩

/-- The conditions do not depend on what the right-hand side is written over. -/
theorem assemble_congr (p : Problem F) (hn : n = p.shape.order) (v w : Coords F n) :
    p.assemble v = p.assemble w := by
  have hrhs : (List.range (p.shape.horizon + 1)).foldl (fun v k => p.placeRhs k v) v =
      (List.range (p.shape.horizon + 1)).foldl (fun v k => p.placeRhs k v) w := by
    apply Coords.ext
    intro i
    apply foldl_placeRhs_congr
    right
    rcases Nat.lt_or_ge i.val p.shape.totalVariables with hlt | hge
    · obtain ⟨k, hk, hin⟩ := exists_variable hlt
      exact ⟨k, List.mem_range.2 (Nat.lt_succ_of_le hk), .inl hin⟩
    · obtain ⟨k, hk, hin⟩ := exists_equation hge (hn ▸ i.isLt)
      exact ⟨k, List.mem_range.2 (Nat.lt_succ_of_le hk), .inr hin⟩
  simp only [assemble, hrhs]

end Problem

end StageQp
