import Mathlib.LinearAlgebra.Basis.VectorSpace
import Mathlib.LinearAlgebra.StdBasis
import DkgKit.BirkhoffMatrix

/-! What derivative conditions say about the constant term of a polynomial: either
nothing, or a fixed linear combination of them is the constant term. -/

open Polynomial Matrix

namespace BirkhoffMatrix

section Dichotomy

variable {F : Type*} [Field F] {t : ℕ} {V : List (ℕ × ℕ)}

/-- A polynomial of degree below `t` with constant term one on which every condition vanishes. -/
structure Hides (t : ℕ) (V : List (ℕ × ℕ)) (h : F[X]) : Prop where
  degree_lt : h.degree < t
  eval_zero : h.eval 0 = 1
  vanishes : ∀ a ∈ V, (derivative^[a.2] h).eval (a.1 : F) = 0

theorem Hides.exists_same_values {h : F[X]} (hh : Hides t V h) {f : F[X]} (hf : f.degree < t)
    (s : F) : ∃ g : F[X], g.degree < t ∧ g.eval 0 = s ∧
      ∀ a ∈ V, (derivative^[a.2] g).eval (a.1 : F) = (derivative^[a.2] f).eval (a.1 : F) := by
  refine ⟨f + C (s - f.eval 0) * h, ?_, ?_, ?_⟩
  · have hmul : (C (s - f.eval 0) * h).degree < t := by
      rw [← smul_eq_C_mul]
      exact (degree_smul_le _ _).trans_lt hh.degree_lt
    exact (degree_add_le _ _).trans_lt (max_lt hf hmul)
  · simp [hh.eval_zero]
  · intro a ha
    rw [iterate_map_add derivative, iterate_derivative_C_mul, eval_add, eval_mul,
      hh.vanishes a ha, mul_zero, add_zero]

def Recovers (t : ℕ) (V : List (ℕ × ℕ)) (w : Fin V.length → F) : Prop :=
  ∀ f : F[X], f.degree < t →
    f.eval 0 = ∑ i, w i * (derivative^[(V.get i).2] f).eval ((V.get i).1 : F)

theorem exists_hides_or_recovers (ht : 0 < t) (V : List (ℕ × ℕ)) :
    (∃ h : F[X], Hides t V h) ∨ ∃ w : Fin V.length → F, Recovers t V w := by
  let row : Fin V.length → Fin t → F := fun i k => basis k (V.get i).2 ((V.get i).1 : F)
  let e : Fin t → F := fun k => if ⟨0, ht⟩ = k then 1 else 0
  by_cases he : e ∈ Submodule.span F (Set.range row)
  · right
    obtain ⟨w, hw⟩ := (Submodule.mem_span_range_iff_exists_fun F).mp he
    refine ⟨w, fun f hf => ?_⟩
    calc f.eval 0 = ∑ k : Fin t, f.coeff k * e k := by
          simp [e, coeff_zero_eq_eval_zero]
      _ = ∑ i, w i * ∑ k : Fin t, f.coeff k * row i k := by
          rw [← hw]
          simp only [Finset.sum_apply, Pi.smul_apply, smul_eq_mul, Finset.mul_sum]
          rw [Finset.sum_comm]
          exact Finset.sum_congr rfl fun i _ => Finset.sum_congr rfl fun k _ => by ring
      _ = _ := Finset.sum_congr rfl fun i _ => by rw [eval_iterate_derivative hf]
  · left
    obtain ⟨φ, hφ, hker⟩ := Submodule.exists_le_ker_of_notMem he
    let v : Fin t → F := fun k => (φ e)⁻¹ * φ fun j => if k = j then 1 else 0
    have hv : ∀ u : Fin t → F, ∑ k, v k * u k = (φ e)⁻¹ * φ u := by
      intro u
      rw [LinearMap.pi_apply_eq_sum_univ φ u, Finset.mul_sum]
      exact Finset.sum_congr rfl fun k _ => by rw [smul_eq_mul]; ring
    refine ⟨ofVector v, degree_ofVector_lt v, ?_, ?_⟩
    · rw [← coeff_zero_eq_eval_zero, coeff_ofVector v ⟨0, ht⟩]
      exact inv_mul_cancel₀ hφ
    · intro a ha
      obtain ⟨i, rfl⟩ := List.get_of_mem ha
      rw [eval_iterate_derivative_ofVector, hv (row i)]
      have hrow : φ (row i) = 0 := hker (Submodule.subset_span ⟨i, rfl⟩)
      rw [hrow, mul_zero]

theorem exists_hides_of_det (hdet : (matrix F ((0, 0) :: V)).det ≠ 0) :
    ∃ h : F[X], Hides (V.length + 1) V h := by
  let e : Fin ((0, 0) :: V).length → F := Pi.single 0 1
  let v := (matrix F ((0, 0) :: V))⁻¹ *ᵥ e
  have hv : matrix F ((0, 0) :: V) *ᵥ v = e := by
    rw [Matrix.mulVec_mulVec, Matrix.mul_nonsing_inv _ (isUnit_iff_ne_zero.mpr hdet),
      Matrix.one_mulVec]
  have hvalue : ∀ j, (derivative^[(((0, 0) :: V).get j).2] (ofVector v)).eval
      ((((0, 0) :: V).get j).1 : F) = e j := by
    intro j
    rw [← matrix_mulVec, hv]
  refine ⟨ofVector v, degree_ofVector_lt v, ?_, ?_⟩
  · simpa [e] using hvalue 0
  · intro a ha
    obtain ⟨j, rfl⟩ := List.get_of_mem ha
    simpa [e] using hvalue j.succ

end Dichotomy

section Short

variable {V : List (ℕ × ℕ)}

theorem exists_least_short {t : ℕ} (hshort : ∃ i < t, (V.countP fun a => a.2 ≤ i) ≤ i) :
    ∃ i < t, (V.countP fun a => a.2 ≤ i) = i ∧ ∀ j < i, j < V.countP fun a => a.2 ≤ j := by
  classical
  obtain ⟨i₀, hi₀, hc₀⟩ := hshort
  let P : ℕ → Prop := fun i => (V.countP fun a => a.2 ≤ i) ≤ i
  have hex : ∃ i, P i := ⟨i₀, hc₀⟩
  have hlt : ∀ j < Nat.find hex, j < V.countP fun a => a.2 ≤ j :=
    fun j hj => not_le.mp (Nat.find_min hex hj)
  refine ⟨Nat.find hex, (Nat.find_min' hex hc₀).trans_lt hi₀, ?_, hlt⟩
  refine le_antisymm (Nat.find_spec hex) ?_
  rcases Nat.eq_zero_or_pos (Nat.find hex) with h0 | hpos
  · omega
  · have hpred := hlt (Nat.find hex - 1) (by omega)
    have hmono : (V.countP fun a => a.2 ≤ Nat.find hex - 1) ≤ V.countP fun a => a.2 ≤ Nat.find hex :=
      List.countP_mono_left fun a _ h => by simp only [decide_eq_true_eq] at h ⊢; omega
    omega

theorem bound_mono {i t X : ℕ} (hX : 0 < X) (hit : i < t) :
    (i + 1).factorial * ((i + 1) * X) ^ ((i + 1) * (i + 1 - 1) / 2) ≤
      t.factorial * (t * X) ^ (t * (t - 1) / 2) := by
  have hexp : (i + 1) * (i + 1 - 1) / 2 ≤ t * (t - 1) / 2 :=
    Nat.div_le_div_right (Nat.mul_le_mul hit (by omega))
  have hbase : (i + 1) * X ≤ t * X := Nat.mul_le_mul_right X hit
  have hpos : 0 < t * X := Nat.mul_pos (by omega) hX
  calc (i + 1).factorial * ((i + 1) * X) ^ ((i + 1) * (i + 1 - 1) / 2)
      ≤ t.factorial * (t * X) ^ ((i + 1) * (i + 1 - 1) / 2) :=
        Nat.mul_le_mul (Nat.factorial_le hit) (Nat.pow_le_pow_left hbase _)
    _ ≤ t.factorial * (t * X) ^ (t * (t - 1) / 2) :=
        Nat.mul_le_mul_left _ (Nat.pow_le_pow_right hpos hexp)

theorem rankOrdered_zero_cons {low : List (ℕ × ℕ)} (hdistinct : (low.map Prod.fst).Nodup)
    (hordered : ∀ a ∈ low, ∀ c ∈ low, a.2 < c.2 → a.1 < c.1) (hpos : ∀ a ∈ low, 0 < a.1)
    (henough : ∀ j ≤ low.length, j ≤ low.countP fun a => a.2 ≤ j) :
    RankOrdered ((0, 0) :: low) := by
  refine ⟨List.nodup_cons.mpr ⟨?_, hdistinct⟩, ?_, ?_⟩
  · intro h0
    obtain ⟨a, ha, ha0⟩ := List.mem_map.mp h0
    exact (hpos a ha).ne' ha0
  · intro a ha c hc hac
    rcases List.mem_cons.mp ha with rfl | ha
    · rcases List.mem_cons.mp hc with rfl | hc
      · exact absurd hac (lt_irrefl _)
      · exact hpos c hc
    · rcases List.mem_cons.mp hc with rfl | hc
      · exact absurd hac (Nat.not_lt_zero _)
      · exact hordered a ha c hc hac
  · intro j hj
    rw [List.length_cons, Nat.lt_succ_iff] at hj
    rw [List.countP_cons_of_pos (by simp)]
    exact Nat.lt_succ_of_le (henough j hj)

/-- Conditions at positive points, ordered by rank, of which for some `i` below `t`
at most `i` have order at most `i`, say nothing about the constant term: the
conditions of low order leave room for one more, evaluation at zero, and those of
high order vanish on the low degrees. -/
theorem exists_hides_of_short {q t X : ℕ} [Fact q.Prime]
    (hdistinct : (V.map Prod.fst).Nodup)
    (hordered : ∀ a ∈ V, ∀ c ∈ V, a.2 < c.2 → a.1 < c.1)
    (hrange : ∀ a ∈ V, 0 < a.1 ∧ a.1 ≤ X) (hX : 0 < X)
    (hshort : ∃ i < t, (V.countP fun a => a.2 ≤ i) ≤ i)
    (hq : t.factorial * (t * X) ^ (t * (t - 1) / 2) < q) :
    ∃ h : (ZMod q)[X], Hides t V h := by
  obtain ⟨i, hit, hi, hbefore⟩ := exists_least_short hshort
  let low := V.filter fun a => a.2 ≤ i
  let pts := (0, 0) :: low
  have hlen : low.length = i := by rw [← List.countP_eq_length_filter, hi]
  have hmem : ∀ a ∈ low, a ∈ V := fun a ha => (List.mem_filter.mp ha).1
  have hcount : ∀ j ≤ i, (low.countP fun a => a.2 ≤ j) = V.countP fun a => a.2 ≤ j := by
    intro j hj
    rw [List.countP_filter]
    exact List.countP_congr fun a _ => by simp only [Bool.and_eq_true, decide_eq_true_eq]; omega
  have hro : RankOrdered pts := by
    refine rankOrdered_zero_cons (hdistinct.sublist (List.filter_sublist.map _))
      (fun a ha c hc => hordered a (hmem a ha) c (hmem c hc)) (fun a ha => (hrange a (hmem a ha)).1) ?_
    intro j hj
    rw [hlen] at hj
    rw [hcount j hj]
    rcases hj.eq_or_lt with rfl | hj
    · exact hi.ge
    · exact (hbefore j hj).le
  have hdet : (matrix (ZMod q) pts).det ≠ 0 := by
    refine hro.det_zmod_ne_zero ?_ (Or.inl hX) ?_
    · intro a ha
      rcases List.mem_cons.mp ha with rfl | ha
      · exact Nat.zero_le X
      · exact (hrange a (hmem a ha)).2
    · have hl : pts.length = i + 1 := by simp [pts, hlen]
      rw [hl]
      exact (bound_mono hX hit).trans_lt hq
  obtain ⟨h, hh⟩ := exists_hides_of_det hdet
  have hdeg := hh.degree_lt
  rw [hlen] at hdeg
  refine ⟨h, hdeg.trans_le (Nat.cast_le.mpr hit), hh.eval_zero, ?_⟩
  intro a ha
  rcases le_or_gt a.2 i with hai | hai
  · exact hh.vanishes a (List.mem_filter.mpr ⟨ha, by simpa using hai⟩)
  · rw [eval_iterate_derivative hdeg]
    refine Finset.sum_eq_zero fun k _ => ?_
    rw [basis_of_lt (by have := k.isLt; omega), mul_zero]

end Short

end BirkhoffMatrix
