import DkgKit.Birkhoff

/-! The interpolation coefficients as the code computes them, point by point: what they
reconstruct, how they follow the order of the points, and their closed form at rank zero. -/

open Polynomial Matrix BigEndian BirkhoffMatrix LoopRules

namespace DkgKit

section Positions

variable {points : List BirkhoffPoint}

/-- Weights, given by position, that combine the derivative values to `f(0)`. -/
def WeightsAt (points : List BirkhoffPoint) (c : Fin points.length → Scalar) : Prop :=
  ∀ f : Scalar[X], f.degree < points.length → f.eval 0 = ∑ i, c i *
    (derivative^[(points.get i).derivativeOrder.toNat] f).eval ((points.get i).x.toNat : Scalar)

theorem zip_ofFn_eq (c : Fin points.length → Scalar) :
    points.zip (List.ofFn c) = List.ofFn fun i => (points.get i, c i) := by
  apply List.ext_getElem
  · simp
  · intro i hi hi'
    simp

theorem combines_zip_ofFn {c : Fin points.length → Scalar} :
    Combines (points.zip (List.ofFn c)) ↔ WeightsAt points c := by
  rw [zip_ofFn_eq, Combines, WeightsAt, List.length_ofFn]
  simp only [List.map_ofFn, List.sum_ofFn]
  rfl

theorem interpolation_of_combines {pairs : List (BirkhoffPoint × Scalar)} (hne : pairs ≠ [])
    (hlen : pairs.length ≤ 65535) (hpairs : Combines pairs)
    (hdet : (matrix Scalar (conditions (pairs.map Prod.fst))).det ≠ 0) :
    birkhoffInterpolationCoefficients (pairs.map Prod.fst) = .ok (pairs.map weightedCoefficient) := by
  have hne' : pairs.map Prod.fst ≠ [] := fun h => hne (List.map_eq_nil_iff.mp h)
  rcases interpolation_cases hne' (by rwa [List.length_map]) with
    ⟨-, pairs', hfst, hpairs', hok⟩ | ⟨hzero, -⟩
  · rw [hok, hpairs.unique hpairs' hfst hdet]
  · exact absurd hzero hdet

theorem WeightsAt.unique {c c' : Fin points.length → Scalar} (h : WeightsAt points c)
    (h' : WeightsAt points c') (hdet : (matrix Scalar (conditions points)).det ≠ 0) : c' = c := by
  have hfst := map_fst_zip_ofFn rfl c
  have heq := (combines_zip_ofFn.mpr h).unique (combines_zip_ofFn.mpr h')
    ((map_fst_zip_ofFn rfl c').trans hfst.symm) (hfst.symm ▸ hdet)
  rw [zip_ofFn_eq, zip_ofFn_eq] at heq
  funext i
  exact congrArg Prod.snd (congrFun (List.ofFn_injective heq) i)

/-- Permuted points carry the permuted weights. -/
theorem interpolation_permuted {c : Fin points.length → Scalar} (hne : points ≠ [])
    (hlen : points.length ≤ 65535) (hc : WeightsAt points c)
    (hdet : (matrix Scalar (conditions points)).det ≠ 0) (σ : Equiv.Perm (Fin points.length)) :
    birkhoffInterpolationCoefficients (List.ofFn fun i => points.get (σ i)) =
      .ok (List.ofFn fun i => weightedCoefficient (points.get (σ i), c (σ i))) := by
  let pairs := List.ofFn fun i => (points.get (σ i), c (σ i))
  have hperm : (points.zip (List.ofFn c)).Perm pairs := by
    rw [zip_ofFn_eq]
    exact (σ.ofFn_comp_perm fun i => (points.get i, c i)).symm
  have hfst : pairs.map Prod.fst = List.ofFn fun i => points.get (σ i) := by
    rw [List.map_ofFn]
    rfl
  have hdet' : (matrix Scalar (conditions (pairs.map Prod.fst))).det ≠ 0 :=
    (det_ne_zero_perm (conditions_perm (hperm.map _))).mp ((map_fst_zip_ofFn rfl c).symm ▸ hdet)
  have hlen' : pairs.length = points.length := List.length_ofFn
  have hne' : pairs ≠ [] := by
    rw [← List.length_pos_iff, hlen', List.length_pos_iff]
    exact hne
  have hrun := interpolation_of_combines hne' (hlen'.trans_le hlen)
    ((combines_zip_ofFn.mpr hc).perm hperm) hdet'
  rw [hfst, List.map_ofFn] at hrun
  exact hrun

theorem interpolation_of_weightsAt {c : Fin points.length → Scalar} (hne : points ≠ [])
    (hlen : points.length ≤ 65535) (hc : WeightsAt points c)
    (hdet : (matrix Scalar (conditions points)).det ≠ 0) :
    birkhoffInterpolationCoefficients points =
      .ok (List.ofFn fun i => weightedCoefficient (points.get i, c i)) := by
  have hrun := interpolation_permuted hne hlen hc hdet 1
  simp only [Equiv.Perm.one_apply] at hrun
  rwa [List.ofFn_get] at hrun

/-- The coefficients are the only ones that reconstruct `f(0)`, for every polynomial of
degree below the number of points, and they move with the points. -/
theorem birkhoffInterpolationCoefficients_reconstruct (hne : points ≠ [])
    (hlen : points.length ≤ 65535) :
    (∀ coefficients, birkhoffInterpolationCoefficients points = .ok coefficients →
      ∃ c : Fin points.length → Scalar,
        coefficients = (List.ofFn fun i => weightedCoefficient (points.get i, c i)) ∧
        WeightsAt points c ∧ (∀ c', WeightsAt points c' → c' = c) ∧
        ∀ σ : Equiv.Perm (Fin points.length),
          birkhoffInterpolationCoefficients (List.ofFn fun i => points.get (σ i)) =
            .ok (List.ofFn fun i => weightedCoefficient (points.get (σ i), c (σ i)))) ∧
    ((∃ e, birkhoffInterpolationCoefficients points = fail e) ↔
      (matrix Scalar (conditions points)).det = 0) ∧
    ∀ panic, birkhoffInterpolationCoefficients points ≠ .error (.panic panic) := by
  rcases interpolation_cases hne hlen with ⟨hdet, pairs, hfst, hpairs, -⟩ | ⟨hdet, hfail⟩
  · obtain ⟨c, rfl⟩ := exists_eq_zip_ofFn hfst rfl
    have hc := combines_zip_ofFn.mp hpairs
    have hok := interpolation_of_weightsAt hne hlen hc hdet
    refine ⟨fun coefficients hrun => ⟨c, ?_, hc, fun c' hc' => hc.unique hc' hdet,
      interpolation_permuted hne hlen hc hdet⟩, ?_, ?_⟩
    · rw [hok] at hrun
      exact (Except.ok.inj hrun).symm
    · rw [hok]
      exact iff_of_false (by rintro ⟨e, he⟩; cases he) hdet
    · intro panic hpanic
      rw [hok] at hpanic
      cases hpanic
  · refine ⟨fun coefficients hrun => ?_, ?_, fun panic hpanic => ?_⟩
    · rw [hfail] at hrun
      exact absurd hrun (fail_ne_ok _ _)
    · rw [hfail]
      exact iff_of_true ⟨_, rfl⟩ hdet
    · rw [hfail] at hpanic
      cases hpanic

theorem birkhoffInterpolationCoefficients_reconstruct_pair :
    ∃ c, WeightsAt (pairConfig.points [1, 2]) c ∧
      birkhoffInterpolationCoefficients (pairConfig.points [1, 2]) = .ok (List.ofFn fun i =>
        weightedCoefficient ((pairConfig.points [1, 2]).get i, c i)) := by
  obtain ⟨w, -, -, hok⟩ := pairConfig_quorum.exists_weights
    (HierarchicalThresholdConfig.accepted_of_new pairConfig_new)
  have h := @birkhoffInterpolationCoefficients_reconstruct (pairConfig.points [1, 2]) (by decide)
    (by decide)
  obtain ⟨c, hc, hweights, -⟩ := h.1 _ hok
  exact ⟨c, hweights, hc ▸ hok⟩

end Positions

section Lagrange

variable {points : List BirkhoffPoint}

def node (points : List BirkhoffPoint) (i : Fin points.length) : Scalar := (points.get i).x.toNat

theorem node_injective_iff : Function.Injective (node points) ↔ (points.map BirkhoffPoint.x).Nodup := by
  have hnode : ∀ i j, node points i = node points j ↔ (points.get i).x = (points.get j).x := by
    intro i j
    rw [node, node, scalar_natCast_inj (UInt16.toNat_lt _) (UInt16.toNat_lt _), UInt16.toNat_inj]
  have hmap : points.map BirkhoffPoint.x = List.ofFn fun i => (points.get i).x := by
    conv_lhs => rw [← List.ofFn_get points]
    rw [List.map_ofFn]
    rfl
  rw [hmap, List.nodup_ofFn]
  simp only [Function.Injective, hnode]

/-- Without derivatives the conditions form a Vandermonde matrix. -/
theorem det_ne_zero_iff_nodup (horder : ∀ point ∈ points, point.derivativeOrder = 0) :
    (matrix Scalar (conditions points)).det ≠ 0 ↔ (points.map BirkhoffPoint.x).Nodup := by
  have hzero : ∀ a ∈ conditions points, a.2 = 0 := by
    intro a ha
    obtain ⟨point, hpoint, rfl⟩ := List.mem_map.mp ha
    rw [horder point hpoint]
    rfl
  have hget : (fun i => (((conditions points).get i).1 : Scalar)) =
      node points ∘ finCongr (length_conditions points) := by
    funext i
    rw [List.get_eq_getElem]
    simp only [conditions, List.getElem_map]
    rfl
  rw [matrix_eq_vandermonde hzero, Matrix.det_vandermonde_ne_zero_iff, hget, Equiv.injective_comp,
    node_injective_iff]

theorem weightsAt_lagrange (horder : ∀ point ∈ points, point.derivativeOrder = 0)
    (hnd : (points.map BirkhoffPoint.x).Nodup) : WeightsAt points (lagrangeWeight (node points)) := by
  intro f hf
  rw [eval_zero_eq_lagrange (node_injective_iff.mpr hnd) hf]
  refine Finset.sum_congr rfl fun i _ => ?_
  rw [horder _ (List.get_mem points i)]
  rfl

/-- At rank zero the Birkhoff coefficients are the Lagrange coefficients at zero. -/
theorem birkhoffInterpolationCoefficients_lagrange (hne : points ≠ [])
    (hlen : points.length ≤ 65535) (horder : ∀ point ∈ points, point.derivativeOrder = 0) :
    ((points.map BirkhoffPoint.x).Nodup → birkhoffInterpolationCoefficients points =
      .ok (List.ofFn fun i => ⟨(points.get i).participantId, 0, scalarToBytes
        (∏ j ∈ Finset.univ.erase i, ((points.get j).x.toNat : Scalar) /
          ((points.get j).x.toNat - (points.get i).x.toNat))⟩)) ∧
    (∀ i j, i ≠ j → (points.get i).x = (points.get j).x →
      ∃ e, birkhoffInterpolationCoefficients points = fail e) := by
  refine ⟨fun hnd => ?_, fun i j hij hx => ?_⟩
  · have hrun := interpolation_of_weightsAt hne hlen (weightsAt_lagrange horder hnd)
      ((det_ne_zero_iff_nodup horder).mpr hnd)
    rw [hrun]
    congr 2
    funext i
    rw [weightedCoefficient, horder _ (List.get_mem points i)]
    rfl
  · rcases interpolation_cases hne hlen with ⟨hdet, -⟩ | ⟨-, hfail⟩
    · have hinj := node_injective_iff.mpr ((det_ne_zero_iff_nodup horder).mp hdet)
      exact absurd (hinj (by rw [node, node, hx])) hij
    · exact ⟨_, hfail⟩

theorem birkhoffInterpolationCoefficients_lagrange_pair :
    birkhoffInterpolationCoefficients [⟨1, 1, 0⟩, ⟨2, 2, 0⟩] =
      .ok [⟨1, 0, scalarToBytes 2⟩, ⟨2, 0, scalarToBytes (-1)⟩] := by
  have h := (@birkhoffInterpolationCoefficients_lagrange [⟨1, 1, 0⟩, ⟨2, 2, 0⟩] (by decide) (by decide)
    (by decide)).1 (by decide)
  have h0 : Finset.univ.erase (0 : Fin 2) = {1} := by decide
  have h1 : Finset.univ.erase (1 : Fin 2) = {0} := by decide
  have hfirst : (2 : Scalar) / (2 - 1) = 2 := by norm_num
  have hlast : (1 : Scalar) / (1 - 2) = -1 := by norm_num
  rw [h]
  simp [List.ofFn_succ, h0, h1, hfirst, hlast]

end Lagrange

end DkgKit
