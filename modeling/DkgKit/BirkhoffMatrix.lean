import Mathlib.Algebra.Field.ZMod
import Mathlib.Data.ZMod.Basic
import Mathlib.LinearAlgebra.FiniteDimensional.Lemmas
import Mathlib.LinearAlgebra.Lagrange
import Mathlib.LinearAlgebra.Matrix.DotProduct
import Mathlib.LinearAlgebra.Matrix.ToLinearEquiv
import Mathlib.LinearAlgebra.Vandermonde
import DkgKit.DerivativeZeros

/-! The matrix of a Birkhoff interpolation problem. A condition is a pair of a
point and a derivative order; the rows evaluate the derivatives of the monomials. -/

open Polynomial Matrix

namespace BirkhoffMatrix

section Conditions

variable {R : Type*} [CommRing R]

/-- The value at `x` of the derivative of order `r` of the monomial of degree `k`. -/
def basis (k r : ℕ) (x : R) : R := k.descFactorial r * x ^ (k - r)

theorem basis_of_lt {k r : ℕ} (h : k < r) (x : R) : basis k r x = 0 := by
  simp [basis, Nat.descFactorial_of_lt h]

theorem eval_iterate_derivative_monomial (k r : ℕ) (c x : R) :
    (derivative^[r] (monomial k c)).eval x = c * basis k r x := by
  rw [← C_mul_X_pow_eq_monomial, iterate_derivative_C_mul, iterate_derivative_X_pow_eq_natCast_mul]
  simp [basis]

noncomputable def ofVector {m : ℕ} (v : Fin m → R) : R[X] := ∑ k : Fin m, monomial k (v k)

theorem coeff_ofVector {m : ℕ} (v : Fin m → R) (k : Fin m) : (ofVector v).coeff k = v k := by
  simp [ofVector, coeff_monomial, Fin.val_inj]

theorem degree_ofVector_lt {m : ℕ} (v : Fin m → R) : (ofVector v).degree < m := by
  refine (degree_sum_le _ _).trans_lt ((Finset.sup_lt_iff (WithBot.bot_lt_coe m)).mpr ?_)
  intro k _
  exact (degree_monomial_le _ _).trans_lt (Nat.cast_lt.mpr k.isLt)

theorem eval_iterate_derivative_ofVector {m : ℕ} (v : Fin m → R) (r : ℕ) (x : R) :
    (derivative^[r] (ofVector v)).eval x = ∑ k : Fin m, v k * basis k r x := by
  simp only [ofVector, iterate_derivative_sum, eval_finsetSum, eval_iterate_derivative_monomial]

theorem ofVector_coeff {f : R[X]} {m : ℕ} (hf : f.degree < m) :
    ofVector (fun k : Fin m => f.coeff k) = f := by
  rw [ofVector, sum_fin (fun k c => monomial k c) (by simp) hf, sum_monomial_eq]

theorem eval_iterate_derivative {f : R[X]} {m : ℕ} (hf : f.degree < m) (r : ℕ) (x : R) :
    (derivative^[r] f).eval x = ∑ k : Fin m, f.coeff k * basis k r x := by
  conv_lhs => rw [← ofVector_coeff hf]
  exact eval_iterate_derivative_ofVector _ r x

variable (R) in
/-- One row per condition, one column per degree below the number of conditions. -/
def matrix (pts : List (ℕ × ℕ)) : Matrix (Fin pts.length) (Fin pts.length) R :=
  fun i k => basis k (pts.get i).2 ((pts.get i).1 : R)

theorem matrix_mulVec (pts : List (ℕ × ℕ)) (v : Fin pts.length → R) (i : Fin pts.length) :
    (matrix R pts *ᵥ v) i = (derivative^[(pts.get i).2] (ofVector v)).eval ((pts.get i).1 : R) := by
  rw [eval_iterate_derivative_ofVector, Matrix.mulVec, dotProduct]
  exact Finset.sum_congr rfl fun k _ => mul_comm _ _

theorem matrix_map {S : Type*} [CommRing S] (φ : R →+* S) (pts : List (ℕ × ℕ)) :
    φ.mapMatrix (matrix R pts) = matrix S pts := by
  ext i k
  simp [matrix, basis]

theorem eval_zero_eq_sum {pts : List (ℕ × ℕ)} (hpos : 0 < pts.length) {c : Fin pts.length → R}
    (hc : (matrix R pts)ᵀ *ᵥ c = Pi.single ⟨0, hpos⟩ 1) {f : R[X]} (hf : f.degree < pts.length) :
    f.eval 0 = ∑ i, c i * (derivative^[(pts.get i).2] f).eval ((pts.get i).1 : R) := by
  have hrow : ∀ i, (derivative^[(pts.get i).2] f).eval ((pts.get i).1 : R) =
      (matrix R pts *ᵥ fun k => f.coeff k) i := by
    intro i
    rw [matrix_mulVec, ofVector_coeff hf]
  calc f.eval 0 = Pi.single (⟨0, hpos⟩ : Fin pts.length) 1 ⬝ᵥ fun k => f.coeff k := by
        rw [single_dotProduct, one_mul, ← coeff_zero_eq_eval_zero]
    _ = c ⬝ᵥ (matrix R pts *ᵥ fun k => f.coeff k) := by
        rw [← hc, Matrix.mulVec_transpose, ← Matrix.dotProduct_mulVec]
    _ = _ := Finset.sum_congr rfl fun i _ => by rw [hrow]

end Conditions

section Unisolvence

variable {F : Type*} [Field F] {pts pts' : List (ℕ × ℕ)}

theorem det_ne_zero_iff : (matrix F pts).det ≠ 0 ↔ ∀ f : F[X], f.degree < pts.length →
    (∀ a ∈ pts, (derivative^[a.2] f).eval (a.1 : F) = 0) → f = 0 := by
  constructor
  · intro hdet f hf hzero
    have hker : matrix F pts *ᵥ (fun k => f.coeff k) = 0 := by
      funext i
      rw [matrix_mulVec, ofVector_coeff hf]
      exact hzero _ (List.get_mem pts i)
    have hcoeff := Matrix.eq_zero_of_mulVec_eq_zero hdet hker
    rw [← ofVector_coeff hf, hcoeff]
    simp [ofVector]
  · intro h hdet
    obtain ⟨v, hv, hker⟩ := Matrix.exists_mulVec_eq_zero_iff.mpr hdet
    have hzero : ofVector v = 0 := by
      refine h _ (degree_ofVector_lt v) fun a ha => ?_
      obtain ⟨i, rfl⟩ := List.get_of_mem ha
      rw [← matrix_mulVec, hker]
      rfl
    apply hv
    funext k
    rw [← coeff_ofVector v k, hzero]
    simp

theorem det_ne_zero_perm (h : pts.Perm pts') :
    (matrix F pts).det ≠ 0 ↔ (matrix F pts').det ≠ 0 := by
  simp only [det_ne_zero_iff, h.length_eq, h.mem_iff]

theorem weights_unique (hdet : (matrix F pts).det ≠ 0) {c c' : Fin pts.length → F}
    (h : ∀ f : F[X], f.degree < pts.length →
      ∑ i, c i * (derivative^[(pts.get i).2] f).eval ((pts.get i).1 : F) =
        ∑ i, c' i * (derivative^[(pts.get i).2] f).eval ((pts.get i).1 : F)) : c = c' := by
  have hzero : (c - c') ᵥ* matrix F pts = 0 := by
    refine dotProduct_eq_zero_iff.mp fun v => ?_
    have hf := h (ofVector v) (degree_ofVector_lt v)
    rw [← Matrix.dotProduct_mulVec, sub_dotProduct, sub_eq_zero]
    simp only [← matrix_mulVec] at hf
    exact hf
  exact sub_eq_zero.mp (Matrix.eq_zero_of_vecMul_eq_zero hdet hzero)

theorem exists_ofVector_of_length_le {low : List (ℕ × ℕ)} {i : ℕ} (h : low.length ≤ i) :
    ∃ v : Fin (i + 1) → F, v ≠ 0 ∧
      ∀ a ∈ low, (derivative^[a.2] (ofVector v)).eval (a.1 : F) = 0 := by
  let A : Matrix (Fin low.length) (Fin (i + 1)) F :=
    fun j k => basis k (low.get j).2 ((low.get j).1 : F)
  have hker : LinearMap.ker A.mulVecLin ≠ ⊥ := by
    apply LinearMap.ker_ne_bot_of_finrank_lt
    simp only [Module.finrank_fintype_fun_eq_card, Fintype.card_fin]
    omega
  obtain ⟨v, hv, hne⟩ := (Submodule.ne_bot_iff _).mp hker
  refine ⟨v, hne, fun a ha => ?_⟩
  obtain ⟨j, rfl⟩ := List.get_of_mem ha
  rw [eval_iterate_derivative_ofVector]
  have hrow : (A *ᵥ v) j = 0 := congrFun (LinearMap.mem_ker.mp hv) j
  rw [Matrix.mulVec, dotProduct] at hrow
  rw [← hrow]
  exact Finset.sum_congr rfl fun k _ => mul_comm _ _

/-- A nonsingular problem has more than `i` conditions of order at most `i`: the others
vanish on the degrees up to `i`. -/
theorem lt_countP_of_det_ne_zero (hdet : (matrix F pts).det ≠ 0) {i : ℕ} (hi : i < pts.length) :
    i < pts.countP fun a => a.2 ≤ i := by
  by_contra hle
  rw [not_lt, List.countP_eq_length_filter] at hle
  obtain ⟨v, hne, hlow⟩ := exists_ofVector_of_length_le (F := F) hle
  have hdeg : (ofVector v).degree < pts.length :=
    (degree_ofVector_lt v).trans_le (Nat.cast_le.mpr hi)
  have hzero : ofVector v = 0 := by
    refine det_ne_zero_iff.mp hdet _ hdeg fun a ha => ?_
    rcases le_or_gt a.2 i with hai | hai
    · exact hlow a (List.mem_filter.mpr ⟨ha, by simpa using hai⟩)
    · rw [eval_iterate_derivative_ofVector]
      refine Finset.sum_eq_zero fun k _ => ?_
      rw [basis_of_lt (by have := k.isLt; omega), mul_zero]
  apply hne
  funext k
  rw [← coeff_ofVector v k, hzero, coeff_zero, Pi.zero_apply]

end Unisolvence

section OrderZero

variable {F : Type*} [Field F]

theorem matrix_eq_vandermonde {pts : List (ℕ × ℕ)} (h : ∀ a ∈ pts, a.2 = 0) :
    matrix F pts = Matrix.vandermonde fun i => ((pts.get i).1 : F) := by
  ext i k
  rw [matrix, h _ (List.get_mem pts i), basis, Nat.descFactorial_zero, Nat.cast_one, one_mul,
    Nat.sub_zero, Matrix.vandermonde_apply]

/-- The weight of node `i` in the value at zero of an interpolated polynomial. -/
def lagrangeWeight {n : ℕ} (v : Fin n → F) (i : Fin n) : F :=
  ∏ j ∈ Finset.univ.erase i, v j / (v j - v i)

theorem eval_zero_basis {n : ℕ} (v : Fin n → F) (i : Fin n) :
    (Lagrange.basis Finset.univ v i).eval 0 = lagrangeWeight v i := by
  rw [Lagrange.basis, eval_prod, lagrangeWeight]
  refine Finset.prod_congr rfl fun j _ => ?_
  rw [Lagrange.basisDivisor, eval_mul, eval_C, eval_sub, eval_X, eval_C, zero_sub, mul_neg,
    ← neg_mul, ← inv_neg, neg_sub, mul_comm, div_eq_mul_inv]

theorem eval_zero_eq_lagrange {n : ℕ} {v : Fin n → F} (hv : Function.Injective v) {f : F[X]}
    (hf : f.degree < n) : f.eval 0 = ∑ i, lagrangeWeight v i * f.eval (v i) := by
  have hcard : f.degree < (Finset.univ : Finset (Fin n)).card := by rwa [Finset.card_fin]
  conv_lhs => rw [Lagrange.eq_interpolate hv.injOn hcard, Lagrange.interpolate_apply, eval_finsetSum]
  refine Finset.sum_congr rfl fun i _ => ?_
  rw [eval_mul, eval_C, eval_zero_basis, mul_comm]

end OrderZero

section RankOrdered

variable {pts : List (ℕ × ℕ)}

/-- Points with distinct abscissae that grow with the derivative order, more than
`j` of them of order at most `j` for every `j` below their number. -/
structure RankOrdered (pts : List (ℕ × ℕ)) : Prop where
  distinct : (pts.map Prod.fst).Nodup
  ordered : ∀ a ∈ pts, ∀ c ∈ pts, a.2 < c.2 → a.1 < c.1
  enough : ∀ j < pts.length, j < pts.countP fun a => a.2 ≤ j

noncomputable def realConditions (pts : List (ℕ × ℕ)) : Finset (ℝ × ℕ) :=
  (pts.map fun a => ((a.1 : ℝ), a.2)).toFinset

theorem exists_of_mem_realConditions {c : ℝ × ℕ} (h : c ∈ realConditions pts) :
    ∃ a ∈ pts, c = ((a.1 : ℝ), a.2) := by
  obtain ⟨a, ha, he⟩ := List.mem_map.mp (List.mem_toFinset.mp h)
  exact ⟨a, ha, he.symm⟩

theorem RankOrdered.realConditions_injOn (h : RankOrdered pts) :
    Set.InjOn Prod.fst (realConditions pts : Set (ℝ × ℕ)) := by
  intro a ha c hc hac
  obtain ⟨a, hap, rfl⟩ := exists_of_mem_realConditions (Finset.mem_coe.mp ha)
  obtain ⟨c, hcp, rfl⟩ := exists_of_mem_realConditions (Finset.mem_coe.mp hc)
  rw [List.inj_on_of_nodup_map h.distinct hap hcp (Nat.cast_injective hac)]

theorem RankOrdered.card_realConditions (h : RankOrdered pts) (j : ℕ) :
    ((realConditions pts).filter fun a => a.2 ≤ j).card = pts.countP fun a => a.2 ≤ j := by
  have hnodup : (pts.map fun a => ((a.1 : ℝ), a.2)).Nodup := by
    refine (List.Nodup.of_map _ h.distinct).map fun a c hac => ?_
    simp only [Prod.mk.injEq, Nat.cast_inj] at hac
    exact Prod.ext hac.1 hac.2
  have hfilter : (realConditions pts).filter (fun a => a.2 ≤ j) =
      ((pts.map fun a => ((a.1 : ℝ), a.2)).filter fun a => a.2 ≤ j).toFinset := by
    ext c
    simp [realConditions]
  rw [hfilter, List.toFinset_card_of_nodup (hnodup.filter _), ← List.countP_eq_length_filter,
    List.countP_map]
  rfl

theorem RankOrdered.det_real_ne_zero (h : RankOrdered pts) : (matrix ℝ pts).det ≠ 0 := by
  intro hdet
  obtain ⟨v, hv, h0⟩ := Matrix.exists_mulVec_eq_zero_iff.mpr hdet
  have hmono : ∀ a ∈ realConditions pts, ∀ c ∈ realConditions pts, a.2 < c.2 → a.1 < c.1 := by
    intro a ha c hc hac
    obtain ⟨a, hap, rfl⟩ := exists_of_mem_realConditions ha
    obtain ⟨c, hcp, rfl⟩ := exists_of_mem_realConditions hc
    exact Nat.cast_lt.mpr (h.ordered a hap c hcp hac)
  have hvanish : ∀ a ∈ realConditions pts, (derivative^[a.2] (ofVector v)).eval a.1 = 0 := by
    intro a ha
    obtain ⟨a, hap, rfl⟩ := exists_of_mem_realConditions ha
    obtain ⟨i, rfl⟩ := List.get_of_mem hap
    rw [← matrix_mulVec, h0, Pi.zero_apply]
  have hzero : ofVector v = 0 :=
    DerivativeZeros.eq_zero_of_conditions hmono h.realConditions_injOn
      (fun j hj => by rw [h.card_realConditions]; exact h.enough j hj) (degree_ofVector_lt v) hvanish
  apply hv
  funext k
  rw [← coeff_ofVector v k, hzero, coeff_zero, Pi.zero_apply]

theorem RankOrdered.det_int_ne_zero (h : RankOrdered pts) : (matrix ℤ pts).det ≠ 0 := by
  intro h0
  apply h.det_real_ne_zero
  rw [← matrix_map (Int.castRingHom ℝ), ← RingHom.map_det, h0, map_zero]

theorem basis_le {m X k r x : ℕ} (hk : k < m) (hx : x ≤ X) (hX : 0 < X ∨ k = 0) :
    |basis k r (x : ℤ)| ≤ ((m * X : ℕ) : ℤ) ^ k := by
  rcases lt_or_ge k r with hr | hr
  · rw [basis_of_lt hr, abs_zero]
    positivity
  · have hnat : k.descFactorial r * x ^ (k - r) ≤ (m * X) ^ k := by
      rcases hX with hX | rfl
      · calc k.descFactorial r * x ^ (k - r) ≤ m ^ r * X ^ (k - r) :=
              Nat.mul_le_mul ((Nat.descFactorial_le_pow k r).trans (Nat.pow_le_pow_left hk.le r))
                (Nat.pow_le_pow_left hx _)
          _ ≤ m ^ k * X ^ k :=
              Nat.mul_le_mul (Nat.pow_le_pow_right (by omega) hr)
                (Nat.pow_le_pow_right hX (Nat.sub_le k r))
          _ = (m * X) ^ k := (mul_pow m X k).symm
      · obtain rfl : r = 0 := by omega
        simp
    have hcast : basis k r (x : ℤ) = ((k.descFactorial r * x ^ (k - r) : ℕ) : ℤ) := by
      simp [basis]
    rw [hcast, Nat.abs_cast]
    exact_mod_cast hnat

theorem abs_det_le {X : ℕ} (hle : ∀ a ∈ pts, a.1 ≤ X) (hX : 0 < X ∨ pts.length ≤ 1) :
    |(matrix ℤ pts).det| ≤
      ((pts.length.factorial * (pts.length * X) ^ (pts.length * (pts.length - 1) / 2) : ℕ) : ℤ) := by
  let m := pts.length
  have hentry : ∀ i k : Fin m, |matrix ℤ pts i k| ≤ ((m * X : ℕ) : ℤ) ^ (k : ℕ) := by
    intro i k
    refine basis_le k.isLt (hle _ (List.get_mem pts i)) (hX.imp_right fun h => ?_)
    have := k.isLt
    change (k : ℕ) < pts.length at this
    omega
  have hprod : ∏ k : Fin m, ((m * X : ℕ) : ℤ) ^ (k : ℕ) = ((m * X : ℕ) : ℤ) ^ (m * (m - 1) / 2) := by
    rw [Finset.prod_pow_eq_pow_sum, Fin.sum_univ_eq_sum_range fun k => k, Finset.sum_range_id]
  calc |(matrix ℤ pts).det|
      ≤ ∑ σ : Equiv.Perm (Fin m), |Equiv.Perm.sign σ • ∏ k, matrix ℤ pts (σ k) k| := by
        rw [Matrix.det_apply]
        exact Finset.abs_sum_le_sum_abs _ _
    _ ≤ ∑ _σ : Equiv.Perm (Fin m), ((m * X : ℕ) : ℤ) ^ (m * (m - 1) / 2) := by
        refine Finset.sum_le_sum fun σ _ => ?_
        rw [Units.smul_def, smul_eq_mul, abs_mul, Int.abs_eq_natAbs (Equiv.Perm.sign σ : ℤ),
          Int.units_natAbs, Nat.cast_one, one_mul, Finset.abs_prod, ← hprod]
        exact Finset.prod_le_prod (fun k _ => abs_nonneg _) fun k _ => hentry (σ k) k
    _ = _ := by
        rw [Finset.sum_const, Finset.card_univ, Fintype.card_perm, Fintype.card_fin, nsmul_eq_mul]
        push_cast
        rfl

/-- Rank-ordered conditions are independent modulo any number above the size of
the determinant. -/
theorem RankOrdered.det_zmod_ne_zero (h : RankOrdered pts) {q X : ℕ}
    (hle : ∀ a ∈ pts, a.1 ≤ X) (hX : 0 < X ∨ pts.length ≤ 1)
    (hq : pts.length.factorial * (pts.length * X) ^ (pts.length * (pts.length - 1) / 2) < q) :
    (matrix (ZMod q) pts).det ≠ 0 := by
  rw [← matrix_map (Int.castRingHom (ZMod q)), ← RingHom.map_det]
  intro h0
  have hdvd : (q : ℤ) ∣ (matrix ℤ pts).det := (ZMod.intCast_zmod_eq_zero_iff_dvd _ _).mp h0
  exact h.det_int_ne_zero (Int.eq_zero_of_abs_lt_dvd hdvd
    ((abs_det_le hle hX).trans_lt (by exact_mod_cast hq)))

end RankOrdered

end BirkhoffMatrix
