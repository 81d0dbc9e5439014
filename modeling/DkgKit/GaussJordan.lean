import Mathlib.LinearAlgebra.Matrix.ToLinearEquiv
import Mathlib.Tactic.LinearCombination

/-! Row operations on a square linear system over a field. One elimination step
clears one more column and keeps the solutions, also those of the homogeneous
system; a column without a pivot makes the system singular. -/

open Matrix

namespace GaussJordan

variable {n : ℕ} {F : Type*} [Field F]

@[ext] structure System (n : ℕ) (F : Type*) where
  matrix : Matrix (Fin n) (Fin n) F
  target : Fin n → F

namespace System

/-- `x` solves the system whose right-hand side is scaled by `t`. -/
def Solves (s : System n F) (t : F) (x : Fin n → F) : Prop :=
  ∀ i, (s.matrix *ᵥ x) i = t * s.target i

def Equivalent (s s' : System n F) : Prop := ∀ t x, s.Solves t x ↔ s'.Solves t x

theorem Equivalent.refl (s : System n F) : s.Equivalent s := fun _ _ => Iff.rfl

theorem Equivalent.trans {s s' s'' : System n F} (h : s.Equivalent s') (h' : s'.Equivalent s'') :
    s.Equivalent s'' := fun t x => (h t x).trans (h' t x)

def Reduced (k : ℕ) (s : System n F) : Prop :=
  ∀ i j : Fin n, j.val < k → s.matrix i j = if i = j then 1 else 0

def swapRows (a c : Fin n) (s : System n F) : System n F :=
  ⟨fun i => s.matrix (Equiv.swap a c i), fun i => s.target (Equiv.swap a c i)⟩

def scaleRow (c : Fin n) (u : F) (s : System n F) : System n F :=
  ⟨fun i j => if i = c then s.matrix i j * u else s.matrix i j,
    fun i => if i = c then s.target i * u else s.target i⟩

def clearColumn (c : Fin n) (s : System n F) : System n F :=
  ⟨fun i j => if i = c then s.matrix i j else s.matrix i j - s.matrix i c * s.matrix c j,
    fun i => if i = c then s.target i else s.target i - s.matrix i c * s.target c⟩

theorem swapRows_equivalent (a c : Fin n) (s : System n F) : s.Equivalent (s.swapRows a c) := by
  intro t x
  constructor
  · exact fun h i => h (Equiv.swap a c i)
  · intro h i
    have hi := h (Equiv.swap a c i)
    simpa [swapRows, Matrix.mulVec] using hi

theorem scaleRow_equivalent (c : Fin n) {u : F} (hu : u ≠ 0) (s : System n F) :
    s.Equivalent (s.scaleRow c u) := by
  have hrow : ∀ x i, ((s.scaleRow c u).matrix *ᵥ x) i =
      if i = c then (s.matrix *ᵥ x) i * u else (s.matrix *ᵥ x) i := by
    intro x i
    by_cases hi : i = c
    · simp only [scaleRow, Matrix.mulVec, dotProduct, hi, if_true, Finset.sum_mul]
      exact Finset.sum_congr rfl fun j _ => by ring
    · simp [scaleRow, Matrix.mulVec, dotProduct, hi]
  intro t x
  refine forall_congr' fun i => ?_
  rw [hrow x i]
  by_cases hi : i = c
  · simp only [scaleRow, hi, if_true, ← mul_assoc]
    exact (mul_left_inj' hu).symm
  · simp [scaleRow, hi]

theorem clearColumn_equivalent (c : Fin n) (s : System n F) : s.Equivalent (s.clearColumn c) := by
  have hrow : ∀ x i, ((s.clearColumn c).matrix *ᵥ x) i =
      if i = c then (s.matrix *ᵥ x) i
      else (s.matrix *ᵥ x) i - s.matrix i c * (s.matrix *ᵥ x) c := by
    intro x i
    by_cases hi : i = c
    · simp [clearColumn, Matrix.mulVec, dotProduct, hi]
    · simp only [clearColumn, Matrix.mulVec, dotProduct, hi, if_false, Finset.mul_sum,
        ← Finset.sum_sub_distrib]
      exact Finset.sum_congr rfl fun j _ => by ring
  intro t x
  constructor
  · intro h i
    rw [hrow x i]
    by_cases hi : i = c
    · simpa [clearColumn, hi] using h c
    · simp only [clearColumn, hi, if_false, h i, h c]
      ring
  · intro h i
    have hc : (s.matrix *ᵥ x) c = t * s.target c := by
      have hh := h c
      rw [hrow x c] at hh
      simpa [clearColumn] using hh
    by_cases hi : i = c
    · rw [hi, hc]
    · have hh := h i
      rw [hrow x i] at hh
      simp only [clearColumn, hi, if_false, hc] at hh
      linear_combination hh

def eliminate (r c : Fin n) (s : System n F) : System n F :=
  ((s.swapRows r c).scaleRow c (s.matrix r c)⁻¹).clearColumn c

theorem eliminate_equivalent {r c : Fin n} {s : System n F} (hpivot : s.matrix r c ≠ 0) :
    s.Equivalent (s.eliminate r c) :=
  ((swapRows_equivalent r c s).trans (scaleRow_equivalent c (inv_ne_zero hpivot) _)).trans
    (clearColumn_equivalent c _)

theorem eliminate_reduced {r c : Fin n} {s : System n F} (hs : s.Reduced c) (hcr : c ≤ r)
    (hpivot : s.matrix r c ≠ 0) : (s.eliminate r c).Reduced (c + 1) := by
  have hswap : ∀ i j : Fin n, j.val < c.val →
      (s.swapRows r c).matrix i j = if i = j then 1 else 0 := by
    intro i j hj
    have hne : j ≠ c ∧ j ≠ r := ⟨by omega, by omega⟩
    have hiff : Equiv.swap r c i = j ↔ i = j := by
      rw [Equiv.swap_apply_eq_iff, Equiv.swap_apply_of_ne_of_ne hne.2 hne.1]
    simp only [swapRows, hs _ j hj, hiff]
  have hc : (s.swapRows r c).matrix c c = s.matrix r c := by simp [swapRows]
  intro i j hj
  rcases Nat.lt_succ_iff_lt_or_eq.mp hj with hj | hj
  · have hcj : c ≠ j := by omega
    by_cases hi : i = c
    · simp [eliminate, clearColumn, scaleRow, hi, hswap c j hj, hcj]
    · simp [eliminate, clearColumn, scaleRow, hi, hswap i j hj, hswap c j hj, hcj]
  · obtain rfl : j = c := Fin.ext hj
    by_cases hi : i = j
    · simp [eliminate, clearColumn, scaleRow, hi, hc, hpivot]
    · simp [eliminate, clearColumn, scaleRow, hi, hc, hpivot]

theorem det_ne_zero_of_reduced {s s' : System n F} (he : s.Equivalent s') (hs : s'.Reduced n) :
    s.matrix.det ≠ 0 ∧ s.matrix *ᵥ s'.target = s.target := by
  have hone : s'.matrix = 1 := by
    ext i j
    rw [hs i j j.isLt, Matrix.one_apply]
  constructor
  · intro hdet
    obtain ⟨v, hv, h0⟩ := Matrix.exists_mulVec_eq_zero_iff.mpr hdet
    have hsol := (he 0 v).mp (fun i => by simp [h0])
    apply hv
    funext i
    simpa [hone] using hsol i
  · have hsol := (he 1 s'.target).mpr (fun i => by simp [hone])
    funext i
    simpa using hsol i

/-- A reduced system whose next column has no pivot has a nontrivial kernel:
the column itself gives the dependency. -/
theorem det_eq_zero_of_no_pivot {s s' : System n F} (he : s.Equivalent s') {c : Fin n}
    (hs : s'.Reduced c) (hno : ∀ r, c ≤ r → s'.matrix r c = 0) : s.matrix.det = 0 := by
  let v : Fin n → F := fun j => if j = c then 1 else if j < c then -s'.matrix j c else 0
  have hvc : v c = 1 := by simp [v]
  have hterm : ∀ i j, s'.matrix i j * v j =
      (if j = c then s'.matrix i c else 0) +
        (if i = j then (if j < c then -s'.matrix j c else 0) else 0) := by
    intro i j
    by_cases hj : j = c
    · subst hj
      simp [v]
    · by_cases hlt : j < c
      · rw [hs i j hlt]
        by_cases hi : i = j <;> simp [v, hj, hlt, hi]
      · simp [v, hj, hlt]
  have hker : s'.Solves 0 v := by
    intro i
    rw [Matrix.mulVec, dotProduct, Finset.sum_congr rfl fun j _ => hterm i j,
      Finset.sum_add_distrib, Finset.sum_ite_eq' Finset.univ c, Finset.sum_ite_eq Finset.univ i]
    by_cases hi : i < c
    · simp [hi]
    · simp [hi, hno i (not_lt.mp hi)]
  have hv : s.Solves 0 v := (he 0 v).mpr hker
  refine Matrix.exists_mulVec_eq_zero_iff.mp ⟨v, ?_, ?_⟩
  · intro h0
    exact one_ne_zero (hvc.symm.trans (congrFun h0 c))
  · funext i
    simpa using hv i

end System

end GaussJordan
