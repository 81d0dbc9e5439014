import Mathlib.Analysis.Calculus.LocalExtr.Polynomial
import Mathlib.Algebra.CharZero.Defs

/-! Derivative conditions on a real polynomial, at points that grow with the
order of the derivative. Rolle's theorem carries zeros from each derivative to
the next, so enough conditions leave only the zero polynomial. -/

open Polynomial

namespace DerivativeZeros

theorem exists_derivative_zeros (f : ℝ[X]) (Z : Finset ℝ) (hZ : ∀ z ∈ Z, f.eval z = 0) :
    ∃ Z' : Finset ℝ, (∀ z ∈ Z', (derivative f).eval z = 0) ∧ Z.card ≤ Z'.card + 1 ∧
      ∀ z ∈ Z', ∃ u ∈ Z, z < u := by
  induction Z using Finset.induction_on_max with
  | empty => exact ⟨∅, by simp⟩
  | insert a s hmax ih =>
    obtain ⟨Z', hzero, hcard, hbelow⟩ := ih fun z hz => hZ z (Finset.mem_insert_of_mem hz)
    have ha : a ∉ s := fun h => lt_irrefl a (hmax a h)
    rcases s.eq_empty_or_nonempty with rfl | hne
    · exact ⟨∅, by simp⟩
    · have hb : s.max' hne ∈ s := s.max'_mem hne
      have heval : f.eval (s.max' hne) = f.eval a := by
        rw [hZ _ (Finset.mem_insert_of_mem hb), hZ a (Finset.mem_insert_self a s)]
      obtain ⟨w, hw, hdw⟩ := exists_deriv_eq_zero (hmax _ hb) f.continuousOn heval
      have hlt : ∀ z ∈ Z', z < w := by
        intro z hz
        obtain ⟨u, hu, hzu⟩ := hbelow z hz
        exact (hzu.trans_le (s.le_max' u hu)).trans hw.1
      have hwZ : w ∉ Z' := fun h => lt_irrefl w (hlt w h)
      refine ⟨insert w Z', ?_, ?_, ?_⟩
      · intro z hz
        rcases Finset.mem_insert.mp hz with rfl | hz
        · rwa [Polynomial.deriv] at hdw
        · exact hzero z hz
      · rw [Finset.card_insert_of_notMem ha, Finset.card_insert_of_notMem hwZ]
        omega
      · intro z hz
        rcases Finset.mem_insert.mp hz with rfl | hz
        · exact ⟨a, Finset.mem_insert_self a s, hw.2⟩
        · obtain ⟨u, hu, hzu⟩ := hbelow z hz
          exact ⟨u, Finset.mem_insert_of_mem hu, hzu⟩

section Conditions

variable {S : Finset (ℝ × ℕ)}

noncomputable def nodes (S : Finset (ℝ × ℕ)) (k : ℕ) : Finset ℝ :=
  (S.filter fun a => a.2 = k).image Prod.fst

theorem card_nodes (hinj : Set.InjOn Prod.fst (S : Set (ℝ × ℕ))) (k : ℕ) :
    (nodes S k).card = (S.filter fun a => a.2 = k).card :=
  Finset.card_image_of_injOn (hinj.mono (Finset.coe_subset.mpr (Finset.filter_subset _ S)))

theorem mem_nodes {k : ℕ} {z : ℝ} : z ∈ nodes S k ↔ (z, k) ∈ S := by
  simp only [nodes, Finset.mem_image, Finset.mem_filter, Prod.exists]
  constructor
  · rintro ⟨x, r, ⟨h, rfl⟩, rfl⟩
    exact h
  · exact fun h => ⟨z, k, ⟨h, rfl⟩, rfl⟩

/-- Conditions of order at most `j` give that many zeros of the `j`-th derivative,
up to `j`, none to the right of all their points. -/
theorem exists_zeros_of_conditions (hmono : ∀ a ∈ S, ∀ c ∈ S, a.2 < c.2 → a.1 < c.1)
    (hinj : Set.InjOn Prod.fst (S : Set (ℝ × ℕ))) {f : ℝ[X]}
    (hf : ∀ a ∈ S, (derivative^[a.2] f).eval a.1 = 0) (j : ℕ) :
    ∃ Z : Finset ℝ, (∀ z ∈ Z, (derivative^[j] f).eval z = 0) ∧
      (S.filter fun a => a.2 ≤ j).card ≤ Z.card + j ∧
      ∀ z ∈ Z, ∃ a ∈ S, a.2 ≤ j ∧ z ≤ a.1 := by
  induction j with
  | zero =>
    have hcard : (S.filter fun a => a.2 ≤ 0).card = (nodes S 0).card := by
      simp only [card_nodes hinj, Nat.le_zero]
    exact ⟨nodes S 0, fun z hz => hf _ (mem_nodes.mp hz), hcard.le,
      fun z hz => ⟨_, mem_nodes.mp hz, le_rfl, le_rfl⟩⟩
  | succ j ih =>
    obtain ⟨Z, hzero, hcard, hright⟩ := ih
    obtain ⟨Z', hzero', hcard', hbelow⟩ := exists_derivative_zeros _ Z hzero
    have hlt : ∀ z ∈ Z', ∀ w ∈ nodes S (j + 1), z < w := by
      intro z hz w hw
      obtain ⟨u, hu, hzu⟩ := hbelow z hz
      obtain ⟨a, ha, haj, hua⟩ := hright u hu
      exact (hzu.trans_le hua).trans (hmono a ha _ (mem_nodes.mp hw) (Nat.lt_succ_of_le haj))
    have hdisj : Disjoint Z' (nodes S (j + 1)) :=
      Finset.disjoint_left.mpr fun z hz hw => lt_irrefl z (hlt z hz z hw)
    have hsplit : (S.filter fun a => a.2 ≤ j + 1).card =
        (S.filter fun a => a.2 ≤ j).card + (nodes S (j + 1)).card := by
      rw [card_nodes hinj, ← Finset.card_union_of_disjoint, ← Finset.filter_or]
      · exact congrArg Finset.card (Finset.filter_congr fun a _ => by omega)
      · exact Finset.disjoint_filter.mpr fun a _ h => by omega
    refine ⟨Z' ∪ nodes S (j + 1), ?_, ?_, ?_⟩
    · intro z hz
      rcases Finset.mem_union.mp hz with hz | hz
      · rw [Function.iterate_succ_apply']
        exact hzero' z hz
      · exact hf _ (mem_nodes.mp hz)
    · rw [Finset.card_union_of_disjoint hdisj, hsplit]
      omega
    · intro z hz
      rcases Finset.mem_union.mp hz with hz | hz
      · obtain ⟨u, hu, hzu⟩ := hbelow z hz
        obtain ⟨a, ha, haj, hua⟩ := hright u hu
        exact ⟨a, ha, by omega, hzu.le.trans hua⟩
      · exact ⟨_, mem_nodes.mp hz, le_rfl, le_rfl⟩

theorem degree_lt_of_derivative_zero {f : ℝ[X]} {j : ℕ} (hdeg : f.degree < (j + 1 : ℕ)) {z : ℝ}
    (hz : (derivative^[j] f).eval z = 0) : f.degree < (j : ℕ) := by
  have hnat : (derivative^[j] f).natDegree ≤ 0 := by
    have h1 := natDegree_iterate_derivative f j
    have h2 : f.natDegree ≤ j := natDegree_le_iff_coeff_eq_zero.mpr fun k hk =>
      (degree_lt_iff_coeff_zero f (j + 1)).mp hdeg k hk
    omega
  have hconst := eq_C_of_natDegree_le_zero hnat
  rw [hconst, eval_C, coeff_iterate_derivative, Nat.zero_add, Nat.descFactorial_self,
    nsmul_eq_mul] at hz
  have hcoeff : f.coeff j = 0 :=
    (mul_eq_zero.mp hz).resolve_left (by exact_mod_cast j.factorial_ne_zero)
  refine (degree_lt_iff_coeff_zero f j).mpr fun k hk => ?_
  rcases hk.eq_or_lt with rfl | hk
  · exact hcoeff
  · exact (degree_lt_iff_coeff_zero f (j + 1)).mp hdeg k hk

/-- Uniqueness of Birkhoff interpolation for points ordered by derivative order:
more than `j` conditions have order at most `j`, for every `j` below the degree bound. -/
theorem eq_zero_of_conditions (hmono : ∀ a ∈ S, ∀ c ∈ S, a.2 < c.2 → a.1 < c.1)
    (hinj : Set.InjOn Prod.fst (S : Set (ℝ × ℕ))) {m : ℕ}
    (hcount : ∀ j < m, j < (S.filter fun a => a.2 ≤ j).card) {f : ℝ[X]} (hdeg : f.degree < (m : ℕ))
    (hf : ∀ a ∈ S, (derivative^[a.2] f).eval a.1 = 0) : f = 0 := by
  induction m with
  | zero => exact degree_eq_bot.mp (Nat.WithBot.lt_zero_iff.mp (by simpa using hdeg))
  | succ m ih =>
    obtain ⟨Z, hzero, hcard, _⟩ := exists_zeros_of_conditions hmono hinj hf m
    have hpos : 0 < Z.card := by
      have := hcount m (by omega)
      omega
    obtain ⟨z, hz⟩ := Finset.card_pos.mp hpos
    exact ih (fun j hj => hcount j (by omega)) (degree_lt_of_derivative_zero hdeg (hzero z hz))

end Conditions

end DerivativeZeros
