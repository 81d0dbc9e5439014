import DkgKit.Signing

/-! Which accepted signer sets can sign. The rank rule alone does not decide it; the
Birkhoff determinant does, and it never vanishes when ids grow with ranks. -/

open Polynomial BigEndian BirkhoffMatrix

namespace DkgKit

section RankOrdered

/-- The bound under which a nonzero integer determinant stays nonzero modulo the group order. -/
def WithinBound (m maxId : ℕ) : Prop :=
  m.factorial * (m * maxId) ^ (m * (m - 1) / 2) < groupOrder

instance (m maxId : ℕ) : Decidable (WithinBound m maxId) := inferInstanceAs (Decidable (_ < _))

theorem det_ne_zero_of_rankOrdered {points : List BirkhoffPoint}
    (hordered : RankOrdered (conditions points)) {maxId : ℕ}
    (hmax : ∀ point ∈ points, point.x.toNat ≤ maxId)
    (hbound : WithinBound points.length maxId) : (matrix Scalar (conditions points)).det ≠ 0 := by
  have hle : ∀ a ∈ conditions points, a.1 ≤ maxId := by
    intro a ha
    obtain ⟨point, hp, rfl⟩ := List.mem_map.mp ha
    exact hmax point hp
  refine hordered.det_zmod_ne_zero hle ?_ (by rw [length_conditions]; exact hbound)
  -- with every abscissa zero there is one point only
  by_contra hX
  rw [not_or, not_lt, Nat.le_zero, not_le] at hX
  have hzero : ∀ x ∈ (conditions points).map Prod.fst, x = 0 := by
    intro x hx
    obtain ⟨a, ha, rfl⟩ := List.mem_map.mp hx
    exact Nat.le_zero.mp (hX.1 ▸ hle a ha)
  have hrep := List.eq_replicate_of_mem hzero
  have hnd := hordered.distinct
  rw [hrep, List.nodup_replicate, List.length_map] at hnd
  omega

variable {config : HierarchicalThresholdConfig} {signers : List ParticipantId}

def HierarchicalThresholdConfig.IdsRespectRanks (config : HierarchicalThresholdConfig)
    (signers : List ParticipantId) : Prop :=
  ∀ a ∈ signers, ∀ b ∈ signers, (config.point a).derivativeOrder.toNat <
    (config.point b).derivativeOrder.toNat → a.toNat < b.toNat

theorem conditions_points (config : HierarchicalThresholdConfig) (signers : List ParticipantId) :
    conditions (config.points signers) =
      signers.map fun s => (s.toNat, (config.point s).derivativeOrder.toNat) := by
  rw [conditions, HierarchicalThresholdConfig.points, List.map_map]
  rfl

theorem countP_conditions_points (hmem : ∀ s ∈ signers, (config.rankOf s).isSome) (i : ℕ) :
    (conditions (config.points signers)).countP (fun a => a.2 ≤ i) =
      signers.countP (config.rankAtMost i) := by
  rw [conditions_points, List.countP_map, ← countP_rankAtMost hmem, List.countP_map]
  rfl

theorem rankOrdered_of_rankRule (hnd : signers.Nodup)
    (hmem : ∀ s ∈ signers, (config.rankOf s).isSome)
    (hrule : ∀ i < signers.length, i < signers.countP (config.rankAtMost i))
    (hids : config.IdsRespectRanks signers) : RankOrdered (conditions (config.points signers)) where
  distinct := by
    rw [conditions_points, List.map_map]
    exact hnd.map fun a b hab => UInt16.toNat_inj.mp hab
  ordered := by
    rw [conditions_points]
    intro a ha b hb hab
    obtain ⟨s, hs, rfl⟩ := List.mem_map.mp ha
    obtain ⟨s', hs', rfl⟩ := List.mem_map.mp hb
    exact hids s hs s' hs' hab
  enough := by
    intro j hj
    rw [length_conditions, HierarchicalThresholdConfig.points, List.length_map] at hj
    rw [countP_conditions_points hmem]
    exact hrule j hj

theorem determinant_ne_zero_of_rankRule (hnd : signers.Nodup)
    (hmem : ∀ s ∈ signers, (config.rankOf s).isSome)
    (hrule : ∀ i < signers.length, i < signers.countP (config.rankAtMost i))
    (hids : config.IdsRespectRanks signers) {maxId : ℕ} (hmax : ∀ s ∈ signers, s.toNat ≤ maxId)
    (hbound : WithinBound signers.length maxId) : config.determinant signers ≠ 0 := by
  apply det_ne_zero_of_rankOrdered (rankOrdered_of_rankRule hnd hmem hrule hids)
  · intro point hp
    obtain ⟨s, hs, rfl⟩ := List.mem_map.mp hp
    exact hmax s hs
  · rwa [HierarchicalThresholdConfig.points, List.length_map]

theorem determinant_ne_zero_of_idsRespectRanks (hset : config.SignerSet signers)
    (hlen : signers.length = config.threshold.toNat) (hids : config.IdsRespectRanks signers)
    {maxId : ℕ} (hmax : ∀ s ∈ signers, s.toNat ≤ maxId)
    (hbound : WithinBound signers.length maxId) : config.determinant signers ≠ 0 :=
  determinant_ne_zero_of_rankRule hset.distinct hset.members
    (fun i hi => hset.rank_rule i (hlen ▸ hi)) hids hmax hbound

theorem le_of_max {α : Type*} {l : List α} {f : α → ℕ} {maxId : ℕ}
    (hmax : (l.map f).max? = some maxId) : ∀ a ∈ l, f a ≤ maxId :=
  fun _ ha => (List.max?_eq_some_iff.mp hmax).2 _ (List.mem_map_of_mem ha)

theorem idsRespectRanks_of_participants (hc : config.Accepted)
    (hmem : ∀ s ∈ signers, (config.rankOf s).isSome)
    (h : ∀ a ∈ config.participants, ∀ b ∈ config.participants, a.id ∈ signers → b.id ∈ signers →
      a.rank < b.rank → a.id < b.id) : config.IdsRespectRanks signers := by
  intro a ha b hb hab
  obtain ⟨rank, hrank⟩ := Option.isSome_iff_exists.mp (hmem a ha)
  obtain ⟨rank', hrank'⟩ := Option.isSome_iff_exists.mp (hmem b hb)
  obtain ⟨p, hp, rfl, rfl⟩ := hc.rankOf_eq_some.mp hrank
  obtain ⟨p', hp', rfl, rfl⟩ := hc.rankOf_eq_some.mp hrank'
  simp only [HierarchicalThresholdConfig.point, hrank, hrank', Option.getD_some] at hab
  exact UInt16.lt_iff_toNat_lt.mp (h p hp p' hp' ha hb (UInt16.lt_iff_toNat_lt.mpr hab))

theorem SignerSet.ids_ne_zero (hset : config.SignerSet signers)
    (h : ∀ p ∈ config.participants, p.id ≠ 0) : 0 ∉ signers := by
  intro hz
  obtain ⟨p, hp, hid⟩ := List.mem_map.mp (findRank_isSome_iff.mp (hset.members 0 hz))
  exact h p hp hid

theorem ids_ne_zero_of_range (hset : config.SignerSet signers) (hids : ∀ p ∈ config.participants,
    1 ≤ p.id.toNat ∧ p.id.toNat ≤ config.participants.length) : 0 ∉ signers := by
  refine SignerSet.ids_ne_zero hset fun p hp h0 => ?_
  have hone := (hids p hp).1
  rw [h0] at hone
  exact absurd hone (by decide)

def pointsOf (S : List RankedParticipant) : List BirkhoffPoint := S.map fun p => ⟨p.id, p.id, p.rank⟩

theorem rankOrdered_pointsOf {S : List RankedParticipant}
    (hnd : (S.map RankedParticipant.id).Nodup)
    (hordered : ∀ a ∈ S, ∀ b ∈ S, a.rank < b.rank → a.id < b.id)
    (hranks : ∀ i (hi : i < (sortRanks (S.map RankedParticipant.rank)).length),
      (sortRanks (S.map RankedParticipant.rank))[i].toNat ≤ i) :
    RankOrdered (conditions (pointsOf S)) := by
  have hconditions : conditions (pointsOf S) = S.map fun p => (p.id.toNat, p.rank.toNat) := by
    rw [conditions, pointsOf, List.map_map]
    rfl
  rw [hconditions]
  refine ⟨?_, ?_, fun j hj => ?_⟩
  · have hmap := hnd.map fun a b hab => UInt16.toNat_inj.mp hab
    rwa [List.map_map] at hmap ⊢
  · intro a ha b hb hab
    obtain ⟨p, hp, rfl⟩ := List.mem_map.mp ha
    obtain ⟨p', hp', rfl⟩ := List.mem_map.mp hb
    exact UInt16.lt_iff_toNat_lt.mp (hordered p hp p' hp' (UInt16.lt_iff_toNat_lt.mpr hab))
  · rw [List.length_map] at hj
    have hpos := hranks j (by simpa [sortRanks, List.length_insertionSort] using hj)
    simp only [sortRanks, ListCounting.getElem_insertionSort_le_iff, List.countP_map] at hpos
    rw [List.countP_map]
    exact hpos

/-- Coefficients exist for every rank-ordered set of participants of any size, and an
accepted set of the exact size with such ids can sign. -/
theorem rankOrdered_wellPosed {threshold : UInt16} {participants : List RankedParticipant}
    (hnew : HierarchicalThresholdConfig.new threshold participants = .ok config) :
    (∀ S : List RankedParticipant, S ⊆ config.participants → S.Nodup →
      (∀ a ∈ S, ∀ b ∈ S, a.rank < b.rank → a.id < b.id) →
      (∀ i (hi : i < (sortRanks (S.map RankedParticipant.rank)).length),
        (sortRanks (S.map RankedParticipant.rank))[i].toNat ≤ i) →
      ∀ maxId, (S.map fun p => p.id.toNat).max? = some maxId → WithinBound S.length maxId →
        ∃ coefficients, birkhoffInterpolationCoefficients (pointsOf S) = .ok coefficients) ∧
    ((∀ p ∈ config.participants, p.id ≠ 0) → ∀ signers : List ParticipantId,
      validateHierarchicalSignerSet signers config = .ok () →
      signers.length = config.threshold.toNat →
      (∀ a ∈ config.participants, ∀ b ∈ config.participants, a.id ∈ signers → b.id ∈ signers →
        a.rank < b.rank → a.id < b.id) →
      ∀ maxId, (signers.map UInt16.toNat).max? = some maxId → WithinBound signers.length maxId →
        ∀ schnorr keySet F digest session (k : ParticipantId → NonZeroScalar),
          keySet.Consistent config F → (signers.map fun s => (k s).val).sum ≠ 0 →
          ∃ P share signature reconstructed, SigningRound schnorr config keySet signers digest
            session k P share signature reconstructed) := by
  have hc := HierarchicalThresholdConfig.accepted_of_new hnew
  constructor
  · intro S hS hnd hordered hranks maxId hmax hbound
    have hids : (S.map RankedParticipant.id).Nodup := List.Nodup.map_on
      (fun a ha b hb hab => List.inj_on_of_nodup_map hc.distinct (hS ha) (hS hb) hab) hnd
    have hlen : S.length ≤ config.participants.length := (hnd.subperm hS).length_le
    have hlt := hc.length_lt
    have hdet : (matrix Scalar (conditions (pointsOf S))).det ≠ 0 := by
      apply det_ne_zero_of_rankOrdered (rankOrdered_pointsOf hids hordered hranks)
      · intro point hp
        obtain ⟨p, hpS, rfl⟩ := List.mem_map.mp hp
        exact le_of_max hmax p hpS
      · rwa [pointsOf, List.length_map]
    have hne : pointsOf S ≠ [] := by
      rintro hnil
      rw [pointsOf, List.map_eq_nil_iff] at hnil
      simp [hnil] at hmax
    rcases birkhoffInterpolationCoefficients_cases hne (by rw [pointsOf, List.length_map]; omega)
      (by rw [pointsOf, List.map_map]; exact hids) with ⟨-, w, -, hok⟩ | ⟨hzero, -⟩
    · exact ⟨_, hok⟩
    · exact absurd hzero hdet
  · intro hz signers hvalid hlen hordered maxId hmax hbound schnorr keySet F digest session k hkeys hk
    have hset := (validateHierarchicalSignerSet_eq_ok hc).mp hvalid
    have hrespect := idsRespectRanks_of_participants hc hset.members hordered
    have hdet := determinant_ne_zero_of_idsRespectRanks hset hlen hrespect (le_of_max hmax) hbound
    have hq : config.Quorum signers := ⟨hset, SignerSet.ids_ne_zero hset hz, hdet⟩
    exact hq.signingRound schnorr hc hkeys digest session hk

theorem withinBound_pair : WithinBound 2 2 := by norm_num [WithinBound, groupOrder]

theorem rankOrdered_wellPosed_pair :
    (∃ coefficients, birkhoffInterpolationCoefficients
      (pointsOf [⟨2, 1, none⟩, ⟨1, 0, none⟩]) = .ok coefficients) ∧
    ∃ P share signature reconstructed, SigningRound sampleSchnorr pairConfig pairKeySet [1, 2]
      (List.Vector.replicate 32 0) "session" (fun _ => NonZeroScalar.one) P share signature
      reconstructed :=
  ⟨(rankOrdered_wellPosed pairConfig_new).1 _ (by decide) (by decide) (by decide) (by decide) 2 rfl
      withinBound_pair,
    (rankOrdered_wellPosed pairConfig_new).2 (by decide) _ pairConfig_signerSet rfl (by decide) 2 rfl
      withinBound_pair _ _ _ _ _ _ pairKeySet_dealt.toConsistent sum_ones_ne_zero⟩

end RankOrdered

section Singular

variable {config : HierarchicalThresholdConfig} {signers : List ParticipantId}

theorem singular_of_determinant (hc : config.Accepted) (hset : config.SignerSet signers)
    (hz : 0 ∉ signers) (hdet : config.determinant signers = 0) :
    birkhoffPointsFromHierarchicalSignerSet signers config = .ok (config.points signers) ∧
      birkhoffInterpolationCoefficients (config.points signers) = fail singularSystem := by
  refine ⟨(birkhoffPointsFromHierarchicalSignerSet_eq_ok hc).mpr ⟨hset, hz, rfl⟩, ?_⟩
  rcases signerCoefficients_cases hc hset with ⟨hne, -⟩ | ⟨-, hfail⟩
  · exact absurd hdet hne
  · exact hfail

theorem coefficients_iff_determinant (hc : config.Accepted) (hset : config.SignerSet signers) :
    (∃ coefficients, birkhoffInterpolationCoefficients (config.points signers) = .ok coefficients) ↔
      config.determinant signers ≠ 0 := by
  rcases signerCoefficients_cases hc hset with ⟨hne, w, -, hok⟩ | ⟨hzero, hfail⟩
  · exact ⟨fun _ => hne, fun _ => ⟨_, hok⟩⟩
  · simp [hfail, hzero]

/-- For an accepted list of exactly `threshold` signers the Birkhoff determinant decides
whether coefficients exist; without them reconstruction, share signing and resharing
report the singular system. -/
theorem exactQuorum_iff_determinant {threshold : UInt16} {participants : List RankedParticipant}
    (hnew : HierarchicalThresholdConfig.new threshold participants = .ok config)
    (hids : ∀ p ∈ config.participants,
      1 ≤ p.id.toNat ∧ p.id.toNat ≤ config.participants.length)
    (hvalid : validateHierarchicalSignerSet signers config = .ok ())
    (hlen : signers.length = config.threshold.toNat) :
    birkhoffPointsFromHierarchicalSignerSet signers config = .ok (config.points signers) ∧
    ((∃ coefficients, birkhoffInterpolationCoefficients (config.points signers) = .ok coefficients) ↔
      (matrix Scalar (conditions (config.points signers))).det ≠ 0) ∧
    ((matrix Scalar (conditions (config.points signers))).det = 0 →
      birkhoffInterpolationCoefficients (config.points signers) = fail singularSystem ∧
      (∀ shares, reconstructHtssSecretScalar shares signers config = fail singularSystem) ∧
      (∀ old newConfig rng, reshareHtss old config signers newConfig rng = fail singularSystem) ∧
      ∀ schnorr groupKey digest (localShare : HtssLocalKeyShare) (nonce : HtssLocalNonce) nonces,
        localShare.participantId = nonce.package.participantId → localShare.participantId ∈ signers →
          htssSignShare schnorr groupKey digest localShare nonce nonces signers config =
            fail singularSystem) ∧
    ((∀ a ∈ config.participants, ∀ b ∈ config.participants, a.id ∈ signers → b.id ∈ signers →
        a.rank < b.rank → a.id < b.id) →
      ∀ maxId, (signers.map UInt16.toNat).max? = some maxId → WithinBound signers.length maxId →
        (matrix Scalar (conditions (config.points signers))).det ≠ 0) := by
  have hc := HierarchicalThresholdConfig.accepted_of_new hnew
  have hset := (validateHierarchicalSignerSet_eq_ok hc).mp hvalid
  have hz := ids_ne_zero_of_range hset hids
  have hpoints := (birkhoffPointsFromHierarchicalSignerSet_eq_ok hc).mpr ⟨hset, hz, rfl⟩
  refine ⟨hpoints, coefficients_iff_determinant hc hset, fun hdet => ?_,
    fun hordered maxId hmax hbound => ?_⟩
  · obtain ⟨-, hfail⟩ := singular_of_determinant hc hset hz hdet
    have hrec : ∀ shares, reconstructHtssSecretScalar shares signers config = fail singularSystem := by
      intro shares
      rw [reconstructHtssSecretScalar, hpoints, ok_bind, hfail]
      rfl
    refine ⟨hfail, hrec, fun old newConfig rng => ?_,
      fun schnorr groupKey digest localShare nonce nonces hnonce hmem => ?_⟩
    · rw [reshareHtss, hrec]
      rfl
    · rw [htssSignShare, signShareUnder, if_neg (not_not.mpr hnonce), if_neg (not_not.mpr hmem),
        hpoints, ok_bind, hfail]
      rfl
  · exact determinant_ne_zero_of_idsRespectRanks hset hlen
      (idsRespectRanks_of_participants hc hset.members hordered) (le_of_max hmax) hbound

theorem exactQuorum_iff_determinant_pair :
    ∃ coefficients, birkhoffInterpolationCoefficients (pairConfig.points [1, 2]) = .ok coefficients :=
  (exactQuorum_iff_determinant pairConfig_new (by decide) pairConfig_signerSet rfl).2.1.mpr
    pairConfig_quorum.det_ne_zero

def mixedConfig : HierarchicalThresholdConfig := ⟨3, [⟨1, 0, none⟩, ⟨2, 1, none⟩, ⟨3, 0, none⟩]⟩

/-- The parabola with zeros one and three has derivative zero at two. -/
theorem mixedConfig_determinant : mixedConfig.determinant [1, 2, 3] = 0 := by
  by_contra hdet
  let v : Fin 3 → Scalar := ![3, -4, 1]
  have hconditions : conditions (mixedConfig.points [1, 2, 3]) = [(1, 0), (2, 1), (3, 0)] := rfl
  have hzero := det_ne_zero_iff.mp hdet (ofVector v) (degree_ofVector_lt v) (by
    intro a ha
    rw [hconditions] at ha
    simp only [List.mem_cons, List.not_mem_nil, or_false] at ha
    rw [eval_iterate_derivative_ofVector, Fin.sum_univ_three]
    rcases ha with rfl | rfl | rfl
    all_goals
      simp only [v, basis, Matrix.cons_val]
      norm_num [Nat.descFactorial])
  have hcoeff := coeff_ofVector v 2
  rw [hzero] at hcoeff
  simp [v] at hcoeff

theorem mixedConfig_accepted_singular :
    HierarchicalThresholdConfig.new 3 mixedConfig.participants = .ok mixedConfig ∧
      (∀ p ∈ mixedConfig.participants,
        1 ≤ p.id.toNat ∧ p.id.toNat ≤ mixedConfig.participants.length) ∧
      validateHierarchicalSignerSet [1, 2, 3] mixedConfig = .ok () ∧
      ([1, 2, 3] : List ParticipantId).length = mixedConfig.threshold.toNat ∧
      (birkhoffPointsFromHierarchicalSignerSet [1, 2, 3] mixedConfig >>=
        birkhoffInterpolationCoefficients) = fail singularSystem := by
  have hnew : HierarchicalThresholdConfig.new 3 mixedConfig.participants = .ok mixedConfig := rfl
  have hc := HierarchicalThresholdConfig.accepted_of_new hnew
  have hvalid : validateHierarchicalSignerSet [1, 2, 3] mixedConfig = .ok () := rfl
  obtain ⟨hpoints, hfail⟩ := singular_of_determinant hc
    ((validateHierarchicalSignerSet_eq_ok hc).mp hvalid) (by decide) mixedConfig_determinant
  exact ⟨hnew, by decide, hvalid, rfl, by rw [hpoints, ok_bind, hfail]⟩

end Singular

section Overfull

variable {config : HierarchicalThresholdConfig} {signers extended : List ParticipantId}

/-- Adding participants keeps a signer set a signer set. -/
theorem SignerSet.extend (h : config.SignerSet signers) (hsub : signers ⊆ extended)
    (hnd : extended.Nodup) (hrange : ∀ s ∈ extended, s.toNat ≤ config.participants.length)
    (hmem : ∀ s ∈ extended, (config.rankOf s).isSome) : config.SignerSet extended := by
  have hsubperm := h.distinct.subperm hsub
  refine ⟨h.enough.trans hsubperm.length_le, hrange, hnd, hmem, fun i hi => ?_⟩
  exact (h.rank_rule i hi).trans_le (hsubperm.countP_le _)

/-- Every extension of a signer set is a signer set. It has coefficients exactly when its
own determinant does not vanish, which needs the rank rule at all of its positions and
not only at the first `threshold`. -/
theorem extraSigners_iff_determinant {threshold : UInt16} {participants : List RankedParticipant}
    (hnew : HierarchicalThresholdConfig.new threshold participants = .ok config)
    (hids : ∀ p ∈ config.participants,
      1 ≤ p.id.toNat ∧ p.id.toNat ≤ config.participants.length)
    (hvalid : validateHierarchicalSignerSet signers config = .ok ()) (hnd : extended.Nodup)
    (hsub : signers ⊆ extended)
    (hdrawn : extended ⊆ config.participants.map RankedParticipant.id) :
    validateHierarchicalSignerSet extended config = .ok () ∧
    birkhoffPointsFromHierarchicalSignerSet extended config = .ok (config.points extended) ∧
    ((∃ coefficients, birkhoffInterpolationCoefficients (config.points extended) =
        .ok coefficients) ↔ (matrix Scalar (conditions (config.points extended))).det ≠ 0) ∧
    ((matrix Scalar (conditions (config.points extended))).det ≠ 0 →
      ∀ i < extended.length, i + 1 ≤ extended.countP (config.rankAtMost i)) ∧
    ((∀ i < extended.length, i + 1 ≤ extended.countP (config.rankAtMost i)) →
      (∀ a ∈ config.participants, ∀ b ∈ config.participants, a.id ∈ extended → b.id ∈ extended →
        a.rank < b.rank → a.id < b.id) →
      ∀ maxId, (extended.map UInt16.toNat).max? = some maxId → WithinBound extended.length maxId →
        (matrix Scalar (conditions (config.points extended))).det ≠ 0) := by
  have hc := HierarchicalThresholdConfig.accepted_of_new hnew
  have hmem : ∀ s ∈ extended, (config.rankOf s).isSome := fun s hs =>
    findRank_isSome_iff.mpr (hdrawn hs)
  have hrange : ∀ s ∈ extended, s.toNat ≤ config.participants.length := by
    intro s hs
    obtain ⟨p, hp, rfl⟩ := List.mem_map.mp (hdrawn hs)
    exact (hids p hp).2
  have hset := SignerSet.extend ((validateHierarchicalSignerSet_eq_ok hc).mp hvalid) hsub hnd
    hrange hmem
  have hz := ids_ne_zero_of_range hset hids
  refine ⟨(validateHierarchicalSignerSet_eq_ok hc).mpr hset,
    (birkhoffPointsFromHierarchicalSignerSet_eq_ok hc).mpr ⟨hset, hz, rfl⟩,
    coefficients_iff_determinant hc hset, fun hdet i hi => ?_,
    fun hrule hordered maxId hmax hbound => ?_⟩
  · rw [← countP_conditions_points hmem]
    apply lt_countP_of_det_ne_zero hdet
    rwa [conditions_points, List.length_map]
  · exact determinant_ne_zero_of_rankRule hnd hmem hrule
      (idsRespectRanks_of_participants hc hmem hordered) (le_of_max hmax) hbound

def soloConfig : HierarchicalThresholdConfig := ⟨1, pairConfig.participants⟩

theorem extraSigners_iff_determinant_solo :
    ∃ coefficients, birkhoffInterpolationCoefficients (soloConfig.points [1, 2]) = .ok coefficients :=
  (@extraSigners_iff_determinant soloConfig [1] [1, 2] 1 soloConfig.participants rfl (by decide) rfl
    (by decide) (by decide) (by decide)).2.2.1.mpr pairConfig_quorum.det_ne_zero

def overfullConfig : HierarchicalThresholdConfig := ⟨2, mixedConfig.participants⟩

/-- The pair can sign; with the third participant the system is singular. -/
theorem overfullConfig_extra_signer_hurts :
    HierarchicalThresholdConfig.new 2 overfullConfig.participants = .ok overfullConfig ∧
      (∀ p ∈ overfullConfig.participants,
        1 ≤ p.id.toNat ∧ p.id.toNat ≤ overfullConfig.participants.length) ∧
      ([1, 2, 3] : List ParticipantId).Nodup ∧ ([1, 2] : List ParticipantId) ⊆ [1, 2, 3] ∧
      [1, 2, 3] ⊆ overfullConfig.participants.map RankedParticipant.id ∧
      validateHierarchicalSignerSet [1, 2] overfullConfig = .ok () ∧
      (∃ coefficients, (birkhoffPointsFromHierarchicalSignerSet [1, 2] overfullConfig >>=
        birkhoffInterpolationCoefficients) = .ok coefficients) ∧
      (birkhoffPointsFromHierarchicalSignerSet [1, 2, 3] overfullConfig >>=
        birkhoffInterpolationCoefficients) = fail singularSystem := by
  have hnew : HierarchicalThresholdConfig.new 2 overfullConfig.participants = .ok overfullConfig := rfl
  have hc := HierarchicalThresholdConfig.accepted_of_new hnew
  have hpair : validateHierarchicalSignerSet [1, 2] overfullConfig = .ok () := rfl
  have htrio : validateHierarchicalSignerSet [1, 2, 3] overfullConfig = .ok () := rfl
  have hset := (validateHierarchicalSignerSet_eq_ok hc).mp hpair
  obtain ⟨w, -, hpoints, hcoeff⟩ := HierarchicalThresholdConfig.Quorum.exists_weights hc
    ⟨hset, by decide, pairConfig_quorum.det_ne_zero⟩
  obtain ⟨hpoints', hfail⟩ := singular_of_determinant hc
    ((validateHierarchicalSignerSet_eq_ok hc).mp htrio) (by decide) mixedConfig_determinant
  exact ⟨hnew, by decide, by decide, by decide, by decide, hpair, ⟨_, by rw [hpoints, ok_bind, hcoeff]⟩,
    by rw [hpoints', ok_bind, hfail]⟩

end Overfull

end DkgKit
