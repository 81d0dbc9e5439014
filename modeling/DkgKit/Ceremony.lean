import DkgKit.Dkg

/-! The honest key-generation ceremony: what every participant publishes and sends, and
that all three rounds succeed whatever the order in which packages arrive. -/

open Polynomial BigEndian BirkhoffMatrix LoopRules

namespace DkgKit

section Honest

variable (config : HierarchicalThresholdConfig) (rng : ParticipantId → ℕ → NonZeroScalar)

def honestCoefficients (p : RankedParticipant) : List Scalar :=
  (List.range config.threshold.toNat).map fun k => (rng p.id k).val

def honestState (p : RankedParticipant) : HtssDkgRound1State :=
  ⟨⟨p.id, p.rank, (honestCoefficients config rng p).map fun c => (pointToBytes (c • generator)).toList⟩,
    (honestCoefficients config rng p).map scalarToBytes⟩

/-- The derivative of the polynomial of `p`, of the order of the rank of `q`, at the id of `q`:
what `p` sends to `q`. -/
noncomputable def honestValue (p q : RankedParticipant) : Scalar :=
  (derivative^[q.rank.toNat] (toPolynomial (honestCoefficients config rng p))).eval
    (q.id.toNat : Scalar)

noncomputable def honestShare (p q : RankedParticipant) : HtssDkgRound2Package :=
  ⟨p.id, q.id, q.rank, scalarToBytes (honestValue config rng p q)⟩

variable {config rng}

theorem length_honestCoefficients (p : RankedParticipant) :
    (honestCoefficients config rng p).length = config.threshold.toNat := by
  rw [honestCoefficients, List.length_map, List.length_range]

theorem htssDkgRound1_honest (hc : config.Accepted) {p : RankedParticipant}
    (hp : p ∈ config.participants) :
    htssDkgRound1 p.id config (rng p.id) = .ok (honestState config rng p) := by
  rw [htssDkgRound1, hc.rankOf_of_mem hp]
  rfl

theorem honestPoints_ne_zero (p : RankedParticipant) :
    ∀ P ∈ (honestCoefficients config rng p).map fun c => c • generator, P ≠ 0 := by
  intro P hP
  obtain ⟨c, hc, rfl⟩ := List.mem_map.mp hP
  obtain ⟨k, -, rfl⟩ := List.mem_map.mp hc
  exact fun h => (rng p.id k).property (smul_generator_eq_zero.mp h)

theorem honestBytes (p : RankedParticipant) : (honestState config rng p).package.commitmentBytes =
    ((honestCoefficients config rng p).map fun c => c • generator).map
      fun P => (pointToBytes P).toList := by
  rw [List.map_map]
  rfl

theorem commitment_honest (p : RankedParticipant) {k : ℕ} (hk : k < config.threshold.toNat) :
    (honestState config rng p).package.commitment k = (rng p.id k).val • generator := by
  rw [HtssDkgRound1Package.commitment_of_bytes (honestPoints_ne_zero p) (honestBytes p)]
  simp [honestCoefficients, hk]

theorem round1Valid_honest (hc : config.Accepted) {round1Packages : List HtssDkgRound1Package}
    (hperm : round1Packages.Perm
      (config.participants.map fun p => (honestState config rng p).package)) :
    Round1Valid config round1Packages where
  senders := by
    have hids := hperm.map HtssDkgRound1Package.participantId
    rw [List.map_map] at hids
    exact hids
  ranks := by
    intro package hpackage
    obtain ⟨p, hp, rfl⟩ := List.mem_map.mp (hperm.mem_iff.mp hpackage)
    exact hc.rankOf_of_mem hp
  committed := by
    intro package hpackage
    obtain ⟨p, -, rfl⟩ := List.mem_map.mp (hperm.mem_iff.mp hpackage)
    refine ⟨_, ?_, honestPoints_ne_zero p, honestBytes p⟩
    rw [List.length_map, length_honestCoefficients]

/-- The shares open the commitments. -/
theorem promised_honest (p q : RankedParticipant) :
    (honestState config rng p).package.promised config.threshold.toNat q =
      honestValue config rng p q • generator := by
  have hcoeff : ∀ k : Fin (honestCoefficients config rng p).length,
      (honestCoefficients config rng p).get k = (rng p.id k).val := by
    intro k
    rw [List.get_eq_getElem]
    simp only [honestCoefficients, List.getElem_map, List.getElem_range]
  rw [HtssDkgRound1Package.promised, honestValue, toPolynomial, eval_iterate_derivative_ofVector,
    Finset.sum_smul, ← length_honestCoefficients p, Finset.sum_range]
  refine Finset.sum_congr rfl fun k _ => ?_
  have hk : k.val < config.threshold.toNat := by
    rw [← length_honestCoefficients p]
    exact k.isLt
  rw [commitment_honest p hk, hcoeff, smul_smul, mul_comm]

theorem round2Valid_honest (hc : config.Accepted) {q : RankedParticipant}
    {round1Packages : List HtssDkgRound1Package} {round2Packages : List HtssDkgRound2Package}
    (h1 : round1Packages.Perm (config.participants.map fun p => (honestState config rng p).package))
    (h2 : round2Packages.Perm (config.participants.map fun p => honestShare config rng p q)) :
    Round2Valid config q round1Packages round2Packages where
  senders := by
    have hids := h2.map HtssDkgRound2Package.sender
    rw [List.map_map] at hids
    exact hids
  recipients := by
    intro package hpackage
    obtain ⟨p, -, rfl⟩ := List.mem_map.mp (h2.mem_iff.mp hpackage)
    exact ⟨rfl, rfl⟩
  opens := by
    intro package hpackage round1 hround1 hsender
    obtain ⟨p, hp, rfl⟩ := List.mem_map.mp (h2.mem_iff.mp hpackage)
    obtain ⟨p', hp', rfl⟩ := List.mem_map.mp (h1.mem_iff.mp hround1)
    obtain rfl : p' = p := List.inj_on_of_nodup_map hc.distinct hp' hp hsender
    exact ⟨_, scalarFromBytes_toBytes _, (promised_honest p' q).symm⟩

theorem htssDkgRound2_honest (hc : config.Accepted) {p : RankedParticipant}
    (hp : p ∈ config.participants) {round1Packages : List HtssDkgRound1Package}
    (hperm : round1Packages.Perm
      (config.participants.map fun p => (honestState config rng p).package)) :
    htssDkgRound2 (honestState config rng p) round1Packages config =
      .ok (config.participants.map (honestShare config rng p)) := by
  have hvalid : validateHtssDkgRound1Set round1Packages config = .ok () :=
    (validateHtssDkgRound1Set_eq_ok hc).mpr (round1Valid_honest hc hperm)
  have hown : round1Packages.any fun package =>
      package.participantId == (honestState config rng p).package.participantId := by
    refine List.any_eq_true.mpr ⟨(honestState config rng p).package, ?_, beq_self_eq_true _⟩
    exact hperm.mem_iff.mpr (List.mem_map_of_mem hp)
  have hlen : (honestState config rng p).secretCoefficientBytes.length = config.threshold.toNat := by
    rw [honestState, List.length_map, length_honestCoefficients]
  have hcoeff : ∀ message, collectResults (fun bytes => okOr (.protocol message) (scalarFromBytes bytes))
      (honestState config rng p).secretCoefficientBytes = .ok (honestCoefficients config rng p) := by
    intro message
    rw [collectResults_eq_ok, honestState, List.forall₂_map_left_iff, List.forall₂_same]
    exact fun c _ => by rw [scalarFromBytes_toBytes, okOr]
  rw [htssDkgRound2, hvalid, ok_bind, if_neg (not_not.mpr hown), if_neg (not_not.mpr hlen), hcoeff,
    ok_bind]
  apply collectResults_eq_map
  intro q _
  have hle : (honestCoefficients config rng p).length ≤ 65535 := by
    rw [length_honestCoefficients]
    exact Nat.le_of_lt_succ config.threshold.toNat_lt
  rw [polynomialDerivativeValue_eq hle, ok_bind]
  rfl

/-- The sum of the constant terms: the joint secret, up to its sign. -/
def honestSecret (config : HierarchicalThresholdConfig) (rng : ParticipantId → ℕ → NonZeroScalar) :
    Scalar := (config.participants.map fun p => (rng p.id 0).val).sum

theorem constantSum_honest (hc : config.Accepted) {round1Packages : List HtssDkgRound1Package}
    (hperm : round1Packages.Perm
      (config.participants.map fun p => (honestState config rng p).package)) :
    constantSum round1Packages = honestSecret config rng • generator := by
  have hsum : ∀ l : List RankedParticipant,
      (l.map fun p => (honestState config rng p).package.commitment 0).sum =
        (l.map fun p => (rng p.id 0).val).sum • generator := by
    intro l
    induction l with
    | nil => exact (smul_generator_eq_zero.mpr rfl).symm
    | cons p rest ih =>
      rw [List.map_cons, List.sum_cons, List.map_cons, List.sum_cons, ih, add_smul,
        commitment_honest p hc.threshold_pos]
  rw [constantSum, (hperm.map _).sum_eq, List.map_map, honestSecret, ← hsum]
  rfl

/-- Everybody finalizes, in any order of arrival, unless the secrets cancel. -/
theorem finalizeHtssDkg_honest (hc : config.Accepted) (hsecret : honestSecret config rng ≠ 0)
    {q : RankedParticipant} (hq : q ∈ config.participants)
    {round1Packages : List HtssDkgRound1Package} {round2Packages : List HtssDkgRound2Package}
    (h1 : round1Packages.Perm (config.participants.map fun p => (honestState config rng p).package))
    (h2 : round2Packages.Perm (config.participants.map fun p => honestShare config rng p q)) :
    finalizeHtssDkg q.id round1Packages round2Packages config =
      .ok (⟨pointToXonlyBytes (honestSecret config rng • generator), []⟩, ⟨q.id, q.rank,
        scalarToBytes (conditionalNegate (isOddY (honestSecret config rng • generator))
          (config.participants.map fun p => honestValue config rng p q).sum)⟩) := by
  have hconst := constantSum_honest hc h1
  have hshares : (round2Packages.map HtssDkgRound2Package.shareScalar).sum =
      (config.participants.map fun p => honestValue config rng p q).sum := by
    rw [(h2.map _).sum_eq, List.map_map]
    congr 1
    refine List.map_congr_left fun p _ => ?_
    rw [Function.comp_apply, HtssDkgRound2Package.shareScalar, honestShare, scalarFromBytes_toBytes,
      Option.getD_some]
  rw [finalizeHtssDkg_eq_ok hc hq, hconst, hshares]
  exact ⟨round1Valid_honest hc h1, round2Valid_honest hc h1 h2,
    fun h => hsecret (smul_generator_eq_zero.mp h), rfl⟩

theorem finalizeHtssDkg_honest_cancelled (hc : config.Accepted) (hsecret : honestSecret config rng = 0)
    {q : RankedParticipant} (hq : q ∈ config.participants)
    {round1Packages : List HtssDkgRound1Package} {round2Packages : List HtssDkgRound2Package}
    (h1 : round1Packages.Perm (config.participants.map fun p => (honestState config rng p).package))
    (h2 : round2Packages.Perm (config.participants.map fun p => honestShare config rng p q)) :
    finalizeHtssDkg q.id round1Packages round2Packages config =
      fail (.protocol "HTSS DKG group key cannot be zero") := by
  refine finalizeHtssDkg_of_sum_eq_zero hc hq (round1Valid_honest hc h1) (round2Valid_honest hc h1 h2) ?_
  rw [constantSum_honest hc h1]
  exact smul_generator_eq_zero.mpr hsecret

theorem filter_recipient_honest (hc : config.Accepted) {q : RankedParticipant}
    (hq : q ∈ config.participants) :
    ((config.participants.map fun p => config.participants.map (honestShare config rng p)).flatten.filter
      fun package => package.recipient == q.id) =
        config.participants.map fun p => honestShare config rng p q := by
  have hone : ∀ p, (config.participants.map (honestShare config rng p)).filter
      (fun package => package.recipient == q.id) = [honestShare config rng p q] := by
    intro p
    rw [List.filter_map]
    exact congrArg (List.map (honestShare config rng p))
      (ListCounting.filter_key_eq_singleton hc.distinct hq)
  have hmap : config.participants.map (List.filter (fun package => package.recipient == q.id) ∘
      fun p => config.participants.map (honestShare config rng p)) =
        config.participants.map fun p => [honestShare config rng p q] :=
    List.map_congr_left fun p _ => hone p
  rw [List.filter_flatten, List.map_map, hmap]
  exact List.map_eq_flatMap.symm

/-- The share that `q` ends up with. -/
noncomputable def finalShare (config : HierarchicalThresholdConfig)
    (rng : ParticipantId → ℕ → NonZeroScalar) (q : RankedParticipant) : HtssLocalKeyShare :=
  ⟨q.id, q.rank, scalarToBytes (conditionalNegate (isOddY (honestSecret config rng • generator))
    (config.participants.map fun p => honestValue config rng p q).sum)⟩

def honestKey (config : HierarchicalThresholdConfig) (rng : ParticipantId → ℕ → NonZeroScalar) :
    GroupKey := ⟨pointToXonlyBytes (honestSecret config rng • generator), []⟩

theorem foldlM_finalizeParticipant_honest (hc : config.Accepted)
    (hsecret : honestSecret config rng ≠ 0) {participants : List RankedParticipant}
    (hsub : participants ⊆ config.participants) {state : Option GroupKey × List HtssLocalKeyShare}
    (hstate : state.1 = none ∨ state.1 = some (honestKey config rng)) :
    participants.foldlM (finalizeParticipant
        (config.participants.map fun p => (honestState config rng p).package)
        (config.participants.map fun p => config.participants.map (honestShare config rng p)).flatten
        config) state =
      .ok (if participants = [] then state.1 else some (honestKey config rng),
        state.2 ++ participants.map (finalShare config rng)) := by
  induction participants generalizing state with
  | nil => simp [pure, Except.pure]
  | cons q rest ih =>
    have hq := hsub List.mem_cons_self
    have hfinal : finalizeHtssDkg q.id
        (config.participants.map fun p => (honestState config rng p).package)
        (config.participants.map fun p => honestShare config rng p q) config =
          .ok (honestKey config rng, finalShare config rng q) :=
      finalizeHtssDkg_honest hc hsecret hq (List.Perm.refl _) (List.Perm.refl _)
    have hstep : finalizeParticipant
        (config.participants.map fun p => (honestState config rng p).package)
        (config.participants.map fun p => config.participants.map (honestShare config rng p)).flatten
        config state q = .ok (some (honestKey config rng), state.2 ++ [finalShare config rng q]) := by
      rw [finalizeParticipant]
      dsimp only
      rw [filter_recipient_honest hc hq, hfinal, ok_bind]
      rcases hstate with hnone | hsome
      · rw [hnone]
      · rw [hsome]
        simp
    rw [List.foldlM_cons, hstep, ok_bind,
      ih (fun p hp => hsub (List.mem_cons_of_mem q hp)) (.inr rfl)]
    simp [List.append_assoc]

theorem participants_ne_nil_of_accepted (hc : config.Accepted) : config.participants ≠ [] := by
  intro hnil
  have hpos := hc.threshold_pos
  have hle := hc.threshold_le
  rw [hnil, List.length_nil] at hle
  omega

/-- The two rounds of the ceremony in one process. -/
theorem runDistributedHtssKeygen_rounds (hc : config.Accepted) :
    runDistributedHtssKeygen config rng = config.participants.foldlM (finalizeParticipant
        (config.participants.map fun p => (honestState config rng p).package)
        (config.participants.map fun p => config.participants.map (honestShare config rng p)).flatten
        config) (none, []) >>= fun state =>
      okOr (.protocol "missing HTSS DKG group key") state.1 >>= fun groupKey => .ok ⟨groupKey, state.2⟩ := by
  have hstates : collectResults (fun participant => htssDkgRound1 participant.id config
      (rng participant.id)) config.participants =
        .ok (config.participants.map (honestState config rng)) :=
    collectResults_eq_map fun p hp => htssDkgRound1_honest hc hp
  have hround2 : collectResults (fun state => htssDkgRound2 state
      (config.participants.map fun p => (honestState config rng p).package) config)
      (config.participants.map (honestState config rng)) =
        .ok (config.participants.map fun p => config.participants.map (honestShare config rng p)) := by
    rw [collectResults_eq_ok, List.forall₂_map_left_iff, List.forall₂_map_right_iff, List.forall₂_same]
    exact fun p hp => htssDkgRound2_honest hc hp (List.Perm.refl _)
  have hpackages : (config.participants.map (honestState config rng)).map HtssDkgRound1State.package =
      config.participants.map fun p => (honestState config rng p).package := List.map_map
  rw [runDistributedHtssKeygen, hstates, ok_bind]
  dsimp only
  rw [hpackages, hround2, ok_bind]

/-- The ceremony in one process completes unless the constant terms cancel. -/
theorem runDistributedHtssKeygen_honest (hc : config.Accepted) (hsecret : honestSecret config rng ≠ 0) :
    runDistributedHtssKeygen config rng =
      .ok ⟨honestKey config rng, config.participants.map (finalShare config rng)⟩ := by
  rw [runDistributedHtssKeygen_rounds hc,
    foldlM_finalizeParticipant_honest hc hsecret (List.Subset.refl _) (.inl rfl), ok_bind]
  simp [participants_ne_nil_of_accepted hc, okOr]

theorem runDistributedHtssKeygen_cancelled (hc : config.Accepted) (hsecret : honestSecret config rng = 0) :
    runDistributedHtssKeygen config rng = fail (.protocol "HTSS DKG group key cannot be zero") := by
  obtain ⟨p, rest, hparticipants⟩ := List.exists_cons_of_ne_nil (participants_ne_nil_of_accepted hc)
  have hp : p ∈ config.participants := hparticipants ▸ List.mem_cons_self
  have hfinal := finalizeHtssDkg_honest_cancelled hc hsecret hp (List.Perm.refl _) (List.Perm.refl _)
  have hfirst : ∀ state, finalizeParticipant
      (config.participants.map fun p => (honestState config rng p).package)
      (config.participants.map fun p => config.participants.map (honestShare config rng p)).flatten
      config state p = fail (.protocol "HTSS DKG group key cannot be zero") := by
    intro state
    rw [finalizeParticipant]
    dsimp only
    rw [filter_recipient_honest hc hp, hfinal]
    rfl
  rw [runDistributedHtssKeygen_rounds hc]
  generalize (config.participants.map fun p => config.participants.map
    (honestShare config rng p)).flatten = packages at hfirst ⊢
  generalize (config.participants.map fun p => (honestState config rng p).package) = states at hfirst ⊢
  rw [hparticipants, List.foldlM_cons, hfirst]
  rfl

theorem honestValue_of_threshold_le {p q : RankedParticipant}
    (h : config.threshold.toNat ≤ q.rank.toNat) : honestValue config rng p q = 0 := by
  rw [honestValue, toPolynomial, eval_iterate_derivative_ofVector]
  refine Finset.sum_eq_zero fun k _ => ?_
  have hk : k.val < config.threshold.toNat := k.isLt.trans_eq (length_honestCoefficients p)
  rw [basis_of_lt (by omega), mul_zero]

theorem finalizeHtssDkg_cancelled (hc : config.Accepted) (hsecret : honestSecret config rng = 0)
    {q : RankedParticipant} (hq : q ∈ config.participants)
    {round1Packages : List HtssDkgRound1Package}
    (h1 : round1Packages.Perm (config.participants.map fun p => (honestState config rng p).package))
    (round2Packages : List HtssDkgRound2Package) (result : GroupKey × HtssLocalKeyShare) :
    finalizeHtssDkg q.id round1Packages round2Packages config ≠ .ok result := by
  intro h
  obtain ⟨-, -, hne, -⟩ := (finalizeHtssDkg_eq_ok hc hq).mp h
  rw [constantSum_honest hc h1] at hne
  exact hne (smul_generator_eq_zero.mpr hsecret)

/-- The ceremony completes for everybody, whatever the order in which everybody sees the
packages, exactly unless the constant terms cancel; all agree on the key and on the sign. -/
theorem honestCeremony_completes {threshold : UInt16} {participants : List RankedParticipant}
    (hnew : HierarchicalThresholdConfig.new threshold participants = .ok config)
    (rng : ParticipantId → ℕ → NonZeroScalar) :
    ∃ (state : RankedParticipant → HtssDkgRound1State)
      (sent : RankedParticipant → List HtssDkgRound2Package),
      (∀ p ∈ config.participants, htssDkgRound1 p.id config (rng p.id) = .ok (state p)) ∧
      (∀ p ∈ config.participants, ∀ round1Packages : List HtssDkgRound1Package,
        round1Packages.Perm (config.participants.map fun q => (state q).package) →
        htssDkgRound2 (state p) round1Packages config = .ok (sent p)) ∧
      (honestSecret config rng ≠ 0 → ∃ e : Scalar, (e = 1 ∨ e = -1) ∧
        isOddY ((e * honestSecret config rng) • generator) = false ∧
        ∀ p ∈ config.participants,
        ∀ (round1Packages : List HtssDkgRound1Package) (round2Packages : List HtssDkgRound2Package),
          round1Packages.Perm (config.participants.map fun q => (state q).package) →
          round2Packages.Perm ((config.participants.flatMap sent).filter
            fun package => package.recipient == p.id) →
          finalizeHtssDkg p.id round1Packages round2Packages config = .ok
            (⟨pointToXonlyBytes ((e * honestSecret config rng) • generator), []⟩, ⟨p.id, p.rank,
              scalarToBytes (e * (config.participants.map fun i => honestValue config rng i p).sum)⟩)) ∧
      (honestSecret config rng = 0 → ∀ p ∈ config.participants,
        ∀ (round1Packages : List HtssDkgRound1Package) round2Packages result,
          round1Packages.Perm (config.participants.map fun q => (state q).package) →
          finalizeHtssDkg p.id round1Packages round2Packages config ≠ .ok result) ∧
      ∀ p ∈ config.participants, config.threshold.toNat ≤ p.rank.toNat →
        (config.participants.map fun i => honestValue config rng i p).sum = 0 := by
  have hc := HierarchicalThresholdConfig.accepted_of_new hnew
  refine ⟨honestState config rng, fun p => config.participants.map (honestShare config rng p),
    fun p hp => htssDkgRound1_honest hc hp, fun p hp round1Packages hperm =>
      htssDkgRound2_honest hc hp hperm, fun hsecret => ?_, fun hsecret p hp round1Packages
      round2Packages result hperm => finalizeHtssDkg_cancelled hc hsecret hp hperm _ _,
    fun p _ hrank => ?_⟩
  · have hne : honestSecret config rng • generator ≠ 0 := fun h =>
      hsecret (smul_generator_eq_zero.mp h)
    have heven := conditionalNegate_smul_generator (honestSecret config rng)
    rw [conditionalNegate_eq_mul] at heven
    refine ⟨conditionalNegate (isOddY (honestSecret config rng • generator)) 1, ?_, ?_,
      fun p hp round1Packages round2Packages h1 h2 => ?_⟩
    · rw [conditionalNegate]
      split_ifs
      · exact .inr rfl
      · exact .inl rfl
    · rw [heven]
      exact isOddY_intoPointWithEvenY hne
    · rw [List.flatMap, filter_recipient_honest hc hp] at h2
      rw [finalizeHtssDkg_honest hc hsecret hp h1 h2, heven, pointToXonlyBytes_intoPointWithEvenY,
        ← conditionalNegate_eq_mul]
  · apply List.sum_eq_zero
    intro value hvalue
    obtain ⟨i, -, rfl⟩ := List.mem_map.mp hvalue
    exact honestValue_of_threshold_le hrank

end Honest

theorem honestSecret_pair_ne_zero :
    honestSecret pairConfig (fun _ _ => NonZeroScalar.one) ≠ 0 := by
  have hsum : honestSecret pairConfig (fun _ _ => NonZeroScalar.one) =
      (([1, 2] : List ParticipantId).map fun _ => (1 : Scalar)).sum := rfl
  rw [hsum]
  exact sum_ones_ne_zero

/-- Both members of the pair see the packages in the reverse order of the roster. -/
theorem honestCeremony_completes_pair : ∃ state₁ state₂ sent₁ sent₂ groupKey share₁ share₂,
    htssDkgRound1 1 pairConfig (fun _ => NonZeroScalar.one) = .ok state₁ ∧
    htssDkgRound1 2 pairConfig (fun _ => NonZeroScalar.one) = .ok state₂ ∧
    htssDkgRound2 state₁ [state₂.package, state₁.package] pairConfig = .ok sent₁ ∧
    htssDkgRound2 state₂ [state₂.package, state₁.package] pairConfig = .ok sent₂ ∧
    finalizeHtssDkg 1 [state₂.package, state₁.package]
      ((sent₁ ++ sent₂).filter fun package => package.recipient == 1) pairConfig =
        .ok (groupKey, share₁) ∧
    finalizeHtssDkg 2 [state₂.package, state₁.package]
      ((sent₁ ++ sent₂).filter fun package => package.recipient == 2) pairConfig =
        .ok (groupKey, share₂) := by
  obtain ⟨state, sent, hround1, hround2, hfinal, -⟩ :=
    honestCeremony_completes pairConfig_new fun _ _ => NonZeroScalar.one
  obtain ⟨e, -, -, hfinal⟩ := hfinal honestSecret_pair_ne_zero
  have hswap : [(state ⟨2, 1, none⟩).package, (state ⟨1, 0, none⟩).package].Perm
      (pairConfig.participants.map fun q => (state q).package) := .swap _ _ _
  have hsent : pairConfig.participants.flatMap sent = sent ⟨1, 0, none⟩ ++ sent ⟨2, 1, none⟩ := by
    simp [pairConfig]
  have hfirst := hfinal ⟨1, 0, none⟩ (by decide) _ _ hswap (.refl _)
  have hsecond := hfinal ⟨2, 1, none⟩ (by decide) _ _ hswap (.refl _)
  rw [hsent] at hfirst hsecond
  exact ⟨_, _, _, _, _, _, _, hround1 ⟨1, 0, none⟩ (by decide), hround1 ⟨2, 1, none⟩ (by decide),
    hround2 ⟨1, 0, none⟩ (by decide) _ hswap, hround2 ⟨2, 1, none⟩ (by decide) _ hswap, hfirst, hsecond⟩

end DkgKit
