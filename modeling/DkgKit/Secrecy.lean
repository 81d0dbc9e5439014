import DkgKit.BirkhoffSecrecy
import DkgKit.Quorums

/-! What the shares of a rejected coalition say about the secret. Either they are
compatible with every secret, or a fixed linear combination of them is the secret. -/

open Polynomial BirkhoffMatrix

namespace DkgKit

section Coalitions

namespace HierarchicalThresholdConfig

/-- For every polynomial below the threshold and every secret another polynomial has
that secret and the same derivative shares on the coalition. -/
def SharesHide (config : HierarchicalThresholdConfig) (coalition : List ParticipantId) : Prop :=
  ∀ f : List Scalar, f.length ≤ config.threshold.toNat → ∀ s : Scalar, ∃ g : List Scalar,
    g.length = config.threshold.toNat ∧ polynomialDerivativeValue g 0 0 = .ok s ∧
    ∀ p ∈ config.participants, p.id ∈ coalition →
      polynomialDerivativeValue g p.id p.rank = polynomialDerivativeValue f p.id p.rank

/-- Weights with which the shares of the coalition add up to the secret. -/
def Reveals (config : HierarchicalThresholdConfig) (coalition : List ParticipantId)
    (w : ParticipantId → Scalar) : Prop :=
  ∀ f : Scalar[X], f.degree < config.threshold.toNat → f.eval 0 =
    ((config.points coalition).map fun point => w point.participantId *
      (derivative^[point.derivativeOrder.toNat] f).eval (point.x.toNat : Scalar)).sum

end HierarchicalThresholdConfig

variable {config : HierarchicalThresholdConfig} {coalition : List ParticipantId}

theorem exists_coefficients {F : Scalar[X]} {t : ℕ} (hF : F.degree < t) :
    ∃ g : List Scalar, g.length = t ∧ toPolynomial g = F := by
  refine ⟨List.ofFn fun k : Fin t => F.coeff k, List.length_ofFn, ?_⟩
  have hlen : (List.ofFn fun k : Fin t => F.coeff k).length = t := List.length_ofFn
  have hdeg := degree_toPolynomial_lt (List.ofFn fun k : Fin t => F.coeff k)
  rw [hlen] at hdeg
  have hcoeff : (fun k : Fin t => (toPolynomial (List.ofFn fun k : Fin t => F.coeff k)).coeff k) =
      fun k : Fin t => F.coeff k := by
    funext k
    have hk := coeff_ofVector (List.ofFn fun k : Fin t => F.coeff k).get (k.cast hlen.symm)
    rw [toPolynomial]
    simpa using hk
  rw [← ofVector_coeff hdeg, hcoeff, ofVector_coeff hF]

theorem value_zero {g : List Scalar} (h : g.length ≤ 65535) :
    polynomialDerivativeValue g 0 0 = .ok ((toPolynomial g).eval 0) := by
  rw [polynomialDerivativeValue_eq h]
  simp

theorem threshold_le (config : HierarchicalThresholdConfig) : config.threshold.toNat ≤ 65535 :=
  Nat.le_of_lt_succ config.threshold.toNat_lt

theorem mem_conditions_points (hc : config.Accepted) {p : RankedParticipant}
    (hp : p ∈ config.participants) (hmem : p.id ∈ coalition) :
    (p.id.toNat, p.rank.toNat) ∈ conditions (config.points coalition) := by
  rw [conditions_points]
  refine List.mem_map.mpr ⟨p.id, hmem, ?_⟩
  rw [HierarchicalThresholdConfig.point, hc.rankOf_of_mem hp, Option.getD_some]

theorem sharesHide_of_hides (hc : config.Accepted) {h : Scalar[X]}
    (hh : Hides config.threshold.toNat (conditions (config.points coalition)) h) :
    config.SharesHide coalition := by
  intro f hf s
  have hfdeg : (toPolynomial f).degree < config.threshold.toNat :=
    (degree_toPolynomial_lt f).trans_le (Nat.cast_le.mpr hf)
  obtain ⟨G, hG, hzero, hsame⟩ := hh.exists_same_values hfdeg s
  obtain ⟨g, hlen, rfl⟩ := exists_coefficients hG
  have hg : g.length ≤ 65535 := hlen.trans_le (threshold_le config)
  refine ⟨g, hlen, by rw [value_zero hg, hzero], fun p hp hmem => ?_⟩
  rw [polynomialDerivativeValue_eq hg, polynomialDerivativeValue_eq (hf.trans (threshold_le config)),
    hsame _ (mem_conditions_points hc hp hmem)]

theorem not_sharesHide_of_reveals (hc : config.Accepted)
    (hmem : coalition ⊆ config.participants.map RankedParticipant.id) {w : ParticipantId → Scalar}
    (hw : config.Reveals coalition w) : ¬ config.SharesHide coalition := by
  intro hhide
  obtain ⟨g, hlen, hone, hsame⟩ := hhide [] (Nat.zero_le _) 1
  have hg : g.length ≤ 65535 := hlen.trans_le (threshold_le config)
  rw [value_zero hg, Except.ok.injEq] at hone
  have hsecret := hw (toPolynomial g) (hlen ▸ degree_toPolynomial_lt g)
  have hzero : ∀ x ∈ (config.points coalition).map (fun point => w point.participantId *
      (derivative^[point.derivativeOrder.toNat] (toPolynomial g)).eval (point.x.toNat : Scalar)),
      x = 0 := by
    intro x hx
    obtain ⟨point, hpoint, rfl⟩ := List.mem_map.mp hx
    obtain ⟨s, hs, rfl⟩ := List.mem_map.mp hpoint
    obtain ⟨p, hp, rfl⟩ := List.mem_map.mp (hmem hs)
    have hshare := hsame p hp hs
    rw [polynomialDerivativeValue_eq hg, polynomialDerivativeValue, List.zipIdx_nil,
      addDerivativeTerms, Except.ok.injEq] at hshare
    simp only [HierarchicalThresholdConfig.point, hc.rankOf_of_mem hp, Option.getD_some, hshare,
      mul_zero]
  rw [hone, List.sum_eq_zero hzero] at hsecret
  exact one_ne_zero hsecret

theorem exists_reveals_of_recovers (hnd : coalition.Nodup)
    {c : Fin (conditions (config.points coalition)).length → Scalar}
    (hc : Recovers config.threshold.toNat (conditions (config.points coalition)) c) :
    ∃ w, config.Reveals coalition w := by
  have hids := HierarchicalThresholdConfig.map_participantId_points config coalition
  obtain ⟨w, hw⟩ := exists_weighted (map_fst_zip_ofFn (length_conditions _) c) (hids.symm ▸ hnd)
  refine ⟨w, fun f hf => ?_⟩
  rw [hc f hf, ← sum_zip_ofFn, hw, List.map_map]
  rfl

theorem sharesHide_iff_not_reveals (hc : config.Accepted) (hnd : coalition.Nodup)
    (hmem : coalition ⊆ config.participants.map RankedParticipant.id) :
    config.SharesHide coalition ↔ ¬ ∃ w, config.Reveals coalition w := by
  constructor
  · rintro hhide ⟨w, hw⟩
    exact not_sharesHide_of_reveals hc hmem hw hhide
  · intro hno
    rcases @exists_hides_or_recovers Scalar _ _ hc.threshold_pos
      (conditions (config.points coalition)) with
      ⟨h, hh⟩ | ⟨c, hrec⟩
    · exact sharesHide_of_hides hc hh
    · exact absurd (exists_reveals_of_recovers hnd hrec) hno

theorem sharesHide_of_no_rank_zero (hc : config.Accepted)
    (hmem : coalition ⊆ config.participants.map RankedParticipant.id)
    (hrank : ∀ p ∈ config.participants, p.id ∈ coalition → p.rank ≠ 0) :
    config.SharesHide coalition := by
  refine @sharesHide_of_hides _ _ hc 1 ⟨?_, eval_one, ?_⟩
  · rw [degree_one]
    exact Nat.cast_pos.mpr hc.threshold_pos
  · intro a ha
    rw [conditions_points] at ha
    obtain ⟨s, hs, rfl⟩ := List.mem_map.mp ha
    obtain ⟨p, hp, rfl⟩ := List.mem_map.mp (hmem hs)
    have hpos : 0 < p.rank.toNat :=
      Nat.pos_of_ne_zero fun h0 => hrank p hp hs (UInt16.toNat_inj.mp h0)
    rw [HierarchicalThresholdConfig.point, hc.rankOf_of_mem hp, Option.getD_some,
      iterate_derivative_one hpos, eval_zero]

theorem short_of_rejected (hc : config.Accepted)
    (hids : ∀ p ∈ config.participants, p.id.toNat ≤ config.participants.length)
    (hnd : coalition.Nodup) (hmem : coalition ⊆ config.participants.map RankedParticipant.id)
    (hreject : validateHierarchicalSignerSet coalition config ≠ .ok ()) :
    ∃ i < config.threshold.toNat,
      (conditions (config.points coalition)).countP (fun a => a.2 ≤ i) ≤ i := by
  have hsome : ∀ s ∈ coalition, (config.rankOf s).isSome :=
    fun s hs => findRank_isSome_iff.mpr (hmem hs)
  by_contra hno
  push Not at hno
  simp only [countP_conditions_points hsome] at hno
  refine hreject ((validateHierarchicalSignerSet_eq_ok hc).mpr ⟨?_, ?_, hnd, hsome, hno⟩)
  · -- the rule at the last position already needs `threshold` members
    have hlast := hno (config.threshold.toNat - 1) (by have := hc.threshold_pos; omega)
    have hle := coalition.countP_le_length (p := config.rankAtMost (config.threshold.toNat - 1))
    omega
  · intro s hs
    obtain ⟨p, hp, rfl⟩ := List.mem_map.mp (hmem hs)
    exact hids p hp

theorem sharesHide_of_rejected (hc : config.Accepted)
    (hids : ∀ p ∈ config.participants,
      1 ≤ p.id.toNat ∧ p.id.toNat ≤ config.participants.length)
    (hnd : coalition.Nodup) (hmem : coalition ⊆ config.participants.map RankedParticipant.id)
    (hreject : validateHierarchicalSignerSet coalition config ≠ .ok ())
    (hordered : ∀ a ∈ config.participants, ∀ b ∈ config.participants, a.id ∈ coalition →
      b.id ∈ coalition → a.rank < b.rank → a.id < b.id)
    (hbound : WithinBound config.threshold.toNat config.participants.length) :
    config.SharesHide coalition := by
  have hsome : ∀ s ∈ coalition, (config.rankOf s).isSome :=
    fun s hs => findRank_isSome_iff.mpr (hmem hs)
  have hrespect := idsRespectRanks_of_participants hc hsome hordered
  have hrange : ∀ s ∈ coalition, 0 < s.toNat ∧ s.toNat ≤ config.participants.length := by
    intro s hs
    obtain ⟨p, hp, rfl⟩ := List.mem_map.mp (hmem hs)
    exact hids p hp
  have hshort := short_of_rejected hc (fun p hp => (hids p hp).2) hnd hmem hreject
  rw [conditions_points] at hshort
  obtain ⟨h, hh⟩ := @exists_hides_of_short _ groupOrder _ config.participants.length _
    (by rw [List.map_map]; exact hnd.map fun a b hab => UInt16.toNat_inj.mp hab)
    (by
      intro a ha b hb hab
      obtain ⟨s, hs, rfl⟩ := List.mem_map.mp ha
      obtain ⟨s', hs', rfl⟩ := List.mem_map.mp hb
      exact hrespect s hs s' hs' hab)
    (by
      intro a ha
      obtain ⟨s, hs, rfl⟩ := List.mem_map.mp ha
      exact hrange s hs)
    (hc.threshold_pos.trans_le hc.threshold_le) hshort hbound
  rw [← conditions_points] at hh
  exact sharesHide_of_hides hc hh

end Coalitions

section Secrecy

variable {config : HierarchicalThresholdConfig} {coalition : List ParticipantId}
  {threshold : UInt16} {participants : List RankedParticipant}

/-- When ids respect ranks no rejected coalition learns anything about the secret. -/
theorem rejected_sharesHide (hnew : HierarchicalThresholdConfig.new threshold participants = .ok config)
    (hids : ∀ p ∈ config.participants,
      1 ≤ p.id.toNat ∧ p.id.toNat ≤ config.participants.length)
    (hordered : ∀ a ∈ config.participants, ∀ b ∈ config.participants, a.rank < b.rank → a.id < b.id)
    (hbound : WithinBound config.threshold.toNat config.participants.length)
    (hnd : coalition.Nodup) (hmem : coalition ⊆ config.participants.map RankedParticipant.id)
    (hreject : validateHierarchicalSignerSet coalition config ≠ .ok ()) :
    ∀ f : List Scalar, f.length ≤ config.threshold.toNat → ∀ s : Scalar, ∃ g : List Scalar,
      g.length = config.threshold.toNat ∧ polynomialDerivativeValue g 0 0 = .ok s ∧
      ∀ p ∈ config.participants, p.id ∈ coalition →
        polynomialDerivativeValue g p.id p.rank = polynomialDerivativeValue f p.id p.rank :=
  sharesHide_of_rejected (HierarchicalThresholdConfig.accepted_of_new hnew) hids hnd hmem hreject
    (fun a ha b hb _ _ => hordered a ha b hb) hbound

theorem rejected_sharesHide_pair : ∃ g : List Scalar, g.length = 2 ∧
    polynomialDerivativeValue g 0 0 = .ok 3 ∧
    polynomialDerivativeValue g 1 0 = polynomialDerivativeValue [5, 7] 1 0 := by
  obtain ⟨g, hlen, hzero, hsame⟩ := @rejected_sharesHide _ [1] _ _ pairConfig_new (by decide)
    (by decide) withinBound_pair (by decide) (by decide) (by decide) [5, 7] le_rfl 3
  exact ⟨g, hlen, hzero, hsame ⟨1, 0, none⟩ (by decide) (by decide)⟩

/-- A rejected coalition learns nothing exactly when no weighted sum of its shares is
the secret. That is so when nobody in it has rank zero, and when ids respect ranks
inside it. -/
theorem rejected_sharesHide_iff
    (hnew : HierarchicalThresholdConfig.new threshold participants = .ok config)
    (hids : ∀ p ∈ config.participants,
      1 ≤ p.id.toNat ∧ p.id.toNat ≤ config.participants.length)
    (hnd : coalition.Nodup) (hmem : coalition ⊆ config.participants.map RankedParticipant.id)
    (hreject : validateHierarchicalSignerSet coalition config ≠ .ok ()) :
    (config.SharesHide coalition ↔ ¬ ∃ w, config.Reveals coalition w) ∧
    ((∀ p ∈ config.participants, p.id ∈ coalition → p.rank ≠ 0) → config.SharesHide coalition) ∧
    ((∀ a ∈ config.participants, ∀ b ∈ config.participants, a.id ∈ coalition → b.id ∈ coalition →
        a.rank < b.rank → a.id < b.id) →
      WithinBound config.threshold.toNat config.participants.length →
        config.SharesHide coalition) := by
  have hc := HierarchicalThresholdConfig.accepted_of_new hnew
  exact ⟨sharesHide_iff_not_reveals hc hnd hmem, sharesHide_of_no_rank_zero hc hmem,
    sharesHide_of_rejected hc hids hnd hmem hreject⟩

theorem rejected_sharesHide_iff_pair :
    pairConfig.SharesHide [2] ∧ ¬ ∃ w, pairConfig.Reveals [2] w := by
  obtain ⟨hiff, hrank, -⟩ := @rejected_sharesHide_iff _ [2] _ _ pairConfig_new (by decide)
    (by decide) (by decide) (by decide)
  have hhide := hrank (by decide)
  exact ⟨hhide, hiff.mp hhide⟩

def leakConfig : HierarchicalThresholdConfig := ⟨3, [⟨1, 1, none⟩, ⟨2, 0, none⟩, ⟨3, 0, none⟩]⟩

/-- Below degree three, `f(0) = f(2) - 2 f'(1)`. -/
theorem leakConfig_reveals :
    leakConfig.Reveals [1, 2] fun participantId => if participantId = 1 then -2 else 1 := by
  intro f hf
  have hvalue : ∀ r (x : Scalar), (derivative^[r] f).eval x =
      ∑ k : Fin 3, f.coeff k * basis k r x := fun r x => eval_iterate_derivative hf r x
  change (derivative^[0] f).eval 0 = -2 * (derivative^[1] f).eval ((1 : ℕ) : Scalar) +
    (1 * (derivative^[0] f).eval ((2 : ℕ) : Scalar) + 0)
  simp only [hvalue, Fin.sum_univ_three, basis]
  norm_num [Nat.descFactorial]
  ring

theorem leakConfig_leaks :
    HierarchicalThresholdConfig.new 3 leakConfig.participants = .ok leakConfig ∧
      (∀ p ∈ leakConfig.participants,
        1 ≤ p.id.toNat ∧ p.id.toNat ≤ leakConfig.participants.length) ∧
      [1, 2] ⊆ leakConfig.participants.map RankedParticipant.id ∧
      validateHierarchicalSignerSet [1, 2] leakConfig ≠ .ok () ∧
      ¬ ∀ f : List Scalar, f.length ≤ leakConfig.threshold.toNat → ∀ s : Scalar, ∃ g : List Scalar,
        g.length = leakConfig.threshold.toNat ∧ polynomialDerivativeValue g 0 0 = .ok s ∧
        ∀ p ∈ leakConfig.participants, p.id ∈ [1, 2] →
          polynomialDerivativeValue g p.id p.rank = polynomialDerivativeValue f p.id p.rank :=
  ⟨rfl, by decide, by decide, by decide, not_sharesHide_of_reveals
    (HierarchicalThresholdConfig.accepted_of_new (rfl : HierarchicalThresholdConfig.new 3
      leakConfig.participants = .ok leakConfig)) (by decide) leakConfig_reveals⟩

end Secrecy

end DkgKit
