import DkgKit.DkgSession
import DkgKit.Secrecy
import DkgKit.Verification

/-! Contributions to an HTSS key generation. The packages of round one carry no proof that their
sender knows the constant term. Whether one is needed depends on what the shares of the honest
participants determine. -/

open Polynomial BigEndian BirkhoffMatrix LoopRules

namespace DkgKit

section Contributions

variable {config : HierarchicalThresholdConfig} {honest : List ParticipantId}
  {w : ParticipantId → Scalar}

/-- The share that a sender has sent, among those of one recipient. -/
def shareFrom (round2Packages : List HtssDkgRound2Package) (sender : ParticipantId) : Scalar :=
  ((round2Packages.find? fun package => package.sender == sender).map
    HtssDkgRound2Package.shareScalar).getD 0

theorem shareFrom_smul {q : RankedParticipant} {round1Packages : List HtssDkgRound1Package}
    {round2Packages : List HtssDkgRound2Package} (h1 : Round1Valid config round1Packages)
    (h2 : Round2Valid config q round1Packages round2Packages) {package : HtssDkgRound1Package}
    (hpackage : package ∈ round1Packages) :
    shareFrom round2Packages package.participantId • generator =
      package.promised config.threshold.toNat q := by
  cases hfind : round2Packages.find? fun share => share.sender == package.participantId with
  | none =>
    have hmem : package.participantId ∈ round2Packages.map HtssDkgRound2Package.sender :=
      h2.senders.mem_iff.mpr (h1.senders.mem_iff.mp (List.mem_map_of_mem hpackage))
    obtain ⟨share, hshare, hsender⟩ := List.mem_map.mp hmem
    have hnot := List.find?_eq_none.mp hfind share hshare
    exact absurd (beq_iff_eq.mpr hsender) hnot
  | some share =>
    have hsender : share.sender = package.participantId := by simpa using List.find?_some hfind
    obtain ⟨s, hs, hopen⟩ := h2.opens share (List.mem_of_find?_eq_some hfind) package hpackage hsender.symm
    rw [shareFrom, hfind, Option.map_some, Option.getD_some, HtssDkgRound2Package.shareScalar, hs]
    exact hopen

/-- The polynomial that a package commits to. -/
theorem exists_committed (config : HierarchicalThresholdConfig) (package : HtssDkgRound1Package) :
    ∃ F : Scalar[X], F.degree < config.threshold.toNat ∧
      (0 < config.threshold.toNat → package.commitment 0 = F.eval 0 • generator) ∧
      ∀ q : RankedParticipant, package.promised config.threshold.toNat q =
        (derivative^[q.rank.toNat] F).eval (q.id.toNat : Scalar) • generator := by
  choose log hlog using fun k : ℕ => exists_smul_generator (package.commitment k)
  refine ⟨ofVector fun k : Fin config.threshold.toNat => log k, degree_ofVector_lt _, fun hpos => ?_,
    fun q => ?_⟩
  · have hcoeff := coeff_ofVector (fun k : Fin config.threshold.toNat => log k) ⟨0, hpos⟩
    rw [← coeff_zero_eq_eval_zero, hcoeff, hlog]
  · rw [HtssDkgRound1Package.promised, eval_iterate_derivative_ofVector, Finset.sum_smul, Finset.sum_range]
    refine Finset.sum_congr rfl fun k _ => ?_
    rw [mul_comm, mul_smul, hlog]

end Contributions

/-- If the shares of the honest participants determine a secret, then a ceremony that they all
accept tells them every contribution: the constant term of each sender is the same weighted sum
of the shares that it has sent them. -/
theorem contribution_determined {threshold : UInt16} {participants : List RankedParticipant}
    {config : HierarchicalThresholdConfig}
    (hnew : HierarchicalThresholdConfig.new threshold participants = .ok config)
    {honest : List ParticipantId} (hmem : honest ⊆ config.participants.map RankedParticipant.id)
    {w : ParticipantId → Scalar} (hw : config.Reveals honest w)
    {round1Packages : List HtssDkgRound1Package}
    {round2Packages : ParticipantId → List HtssDkgRound2Package}
    (haccepted : ∀ id ∈ honest, ∃ round1Packages' result, round1Packages'.Perm round1Packages ∧
      finalizeHtssDkg id round1Packages' (round2Packages id) config = .ok result) :
    ∀ package ∈ round1Packages, package.commitment 0 = (honest.map fun id =>
      w id * shareFrom (round2Packages id) package.participantId).sum • generator := by
  have hc := HierarchicalThresholdConfig.accepted_of_new hnew
  intro package hpackage
  obtain ⟨F, hdeg, hconstant, hpromised⟩ := exists_committed config package
  have hshare : ∀ id ∈ honest, shareFrom (round2Packages id) package.participantId =
      (derivative^[(config.point id).derivativeOrder.toNat] F).eval
        ((config.point id).x.toNat : Scalar) := by
    intro id hid
    obtain ⟨q, hq, rfl⟩ := List.mem_map.mp (hmem hid)
    obtain ⟨round1Packages', result, hperm, hfinal⟩ := haccepted q.id hid
    obtain ⟨h1, h2, -, -⟩ := (finalizeHtssDkg_eq_ok hc hq).mp hfinal
    apply smul_generator_injective
    have hopen := (shareFrom_smul h1 h2 (hperm.mem_iff.mpr hpackage)).trans (hpromised q)
    rw [HierarchicalThresholdConfig.point, hc.rankOf_of_mem hq, Option.getD_some]
    exact hopen
  have hsum : (honest.map fun id => w id * shareFrom (round2Packages id) package.participantId).sum =
      F.eval 0 := by
    rw [hw F hdeg, HierarchicalThresholdConfig.points, List.map_map]
    refine congrArg List.sum (List.map_congr_left fun id hid => ?_)
    rw [hshare id hid]
    rfl
  rw [hconstant hc.threshold_pos, hsum]

def pairDraws : ParticipantId → ℕ → NonZeroScalar := fun _ _ => NonZeroScalar.one

theorem contribution_determined_pair : ∃ (round1Packages : List HtssDkgRound1Package)
    (w : ParticipantId → Scalar) (round2Packages : ParticipantId → List HtssDkgRound2Package),
    round1Packages.length = 2 ∧ ∀ package ∈ round1Packages, package.commitment 0 =
      (([1, 2] : List ParticipantId).map fun id =>
        w id * shareFrom (round2Packages id) package.participantId).sum • generator := by
  have hc := HierarchicalThresholdConfig.accepted_of_new pairConfig_new
  obtain ⟨w, hw, -, -⟩ := pairConfig_quorum.exists_weights hc
  have hfinal : ∀ q ∈ pairConfig.participants, finalizeHtssDkg q.id
      (pairConfig.participants.map fun p => (honestState pairConfig pairDraws p).package)
      (pairConfig.participants.map fun p => honestShare pairConfig pairDraws p q) pairConfig = .ok _ :=
    fun q hq => finalizeHtssDkg_honest hc honestSecret_pair_ne_zero hq (List.Perm.refl _) (List.Perm.refl _)
  refine ⟨pairConfig.participants.map fun p => (honestState pairConfig pairDraws p).package, w,
    fun id => pairConfig.participants.map fun p => honestShare pairConfig pairDraws p
      (if id = 1 then ⟨1, 0, none⟩ else ⟨2, 1, none⟩),
    rfl, contribution_determined pairConfig_new (by decide) hw fun id hid => ?_⟩
  rcases List.mem_cons.mp hid with rfl | hid
  · exact ⟨_, _, List.Perm.refl _, hfinal ⟨1, 0, none⟩ (by decide)⟩
  · obtain rfl := List.mem_singleton.mp hid
    exact ⟨_, _, List.Perm.refl _, hfinal ⟨2, 1, none⟩ (by decide)⟩

section Rogue

variable (config : HierarchicalThresholdConfig) (rogue : RankedParticipant) (mask : Scalar[X])

/-- Where the mask has no term, one is put in its place. -/
def rogueFill (k : ℕ) : Scalar := if k ≠ 0 ∧ mask.coeff k = 0 then 1 else 0

/-- What is missing of the target once the others have published. -/
def rogueGap (target : Scalar) (published : List HtssDkgRound1Package) : Point :=
  target • generator - constantSum published

noncomputable def rogueCommitment (gap : Point) (k : ℕ) : Point :=
  mask.coeff k • gap + rogueFill mask k • generator

/-- A package computed from the packages of the others. -/
noncomputable def roguePackage (gap : Point) : HtssDkgRound1Package :=
  ⟨rogue.id, rogue.rank,
    (List.range config.threshold.toNat).map fun k => (pointToBytes (rogueCommitment mask gap k)).toList⟩

noncomputable def rogueShare (q : RankedParticipant) : HtssDkgRound2Package :=
  ⟨rogue.id, q.id, q.rank, scalarToBytes ((derivative^[q.rank.toNat] (ofVector fun k :
    Fin config.threshold.toNat => rogueFill mask k)).eval (q.id.toNat : Scalar))⟩

variable {config rogue mask} {honest : List ParticipantId} {gap : Point}
  {rng : ParticipantId → ℕ → NonZeroScalar} {target : Scalar}

theorem rogueCommitment_ne_zero (hmask : mask.eval 0 = 1) (hgap : gap ≠ 0) (k : ℕ) :
    rogueCommitment mask gap k ≠ 0 := by
  rw [rogueCommitment, rogueFill]
  by_cases hk : k ≠ 0 ∧ mask.coeff k = 0
  · rw [if_pos hk, hk.2, zero_smul Scalar gap, zero_add, one_smul]
    exact generator_ne_zero
  · have hcoeff : mask.coeff k ≠ 0 := by
      intro hzero
      by_cases h0 : k = 0
      · rw [h0, coeff_zero_eq_eval_zero, hmask] at hzero
        exact one_ne_zero hzero
      · exact hk ⟨h0, hzero⟩
    rw [if_neg hk, zero_smul Scalar generator, add_zero]
    exact smul_ne_zero hcoeff hgap

theorem roguePoints_ne_zero (hmask : mask.eval 0 = 1) (hgap : gap ≠ 0) :
    ∀ P ∈ (List.range config.threshold.toNat).map (rogueCommitment mask gap), P ≠ 0 := by
  intro P hP
  obtain ⟨k, -, rfl⟩ := List.mem_map.mp hP
  exact rogueCommitment_ne_zero hmask hgap k

theorem rogueBytes : (roguePackage config rogue mask gap).commitmentBytes =
    ((List.range config.threshold.toNat).map (rogueCommitment mask gap)).map
      fun P => (pointToBytes P).toList := by
  rw [List.map_map]
  rfl

theorem commitment_rogue (hmask : mask.eval 0 = 1) (hgap : gap ≠ 0) {k : ℕ}
    (hk : k < config.threshold.toNat) :
    (roguePackage config rogue mask gap).commitment k = rogueCommitment mask gap k := by
  rw [HtssDkgRound1Package.commitment_of_bytes (roguePoints_ne_zero hmask hgap) rogueBytes]
  simp [hk]

/-- Where the mask vanishes, the shares open the commitments. -/
theorem promised_rogue (hdeg : mask.degree < config.threshold.toNat) (hmask : mask.eval 0 = 1)
    (hgap : gap ≠ 0) {q : RankedParticipant}
    (hq : (derivative^[q.rank.toNat] mask).eval (q.id.toNat : Scalar) = 0) :
    (rogueShare config rogue mask q).shareScalar • generator =
      (roguePackage config rogue mask gap).promised config.threshold.toNat q := by
  rw [eval_iterate_derivative hdeg] at hq
  rw [HtssDkgRound2Package.shareScalar, rogueShare, scalarFromBytes_toBytes, Option.getD_some,
    eval_iterate_derivative_ofVector, Finset.sum_smul, HtssDkgRound1Package.promised, Finset.sum_range]
  have hterm : ∀ k : Fin config.threshold.toNat,
      basis k q.rank.toNat (q.id.toNat : Scalar) • (roguePackage config rogue mask gap).commitment k =
        (mask.coeff k * basis k q.rank.toNat (q.id.toNat : Scalar)) • gap +
          (rogueFill mask k * basis k q.rank.toNat (q.id.toNat : Scalar)) • generator := by
    intro k
    rw [commitment_rogue hmask hgap k.isLt, rogueCommitment, smul_add, smul_smul, smul_smul,
      mul_comm (mask.coeff k), mul_comm (rogueFill mask k)]
  rw [Finset.sum_congr rfl fun k _ => hterm k, Finset.sum_add_distrib, ← Finset.sum_smul,
    ← Finset.sum_smul, hq, zero_smul Scalar gap, zero_add]

/-- The participants besides the rogue, in the order of the config. -/
def others (config : HierarchicalThresholdConfig) (rogue : RankedParticipant) : List RankedParticipant :=
  config.participants.filter fun q => !(q.id == rogue.id)

theorem rogue_others_perm (hc : config.Accepted) (hrogue : rogue ∈ config.participants) :
    (rogue :: others config rogue).Perm config.participants := by
  have hself := ListCounting.filter_key_eq_singleton hc.distinct hrogue
  have hsplit := List.filter_append_perm (fun q : RankedParticipant => q.id == rogue.id)
    config.participants
  rwa [hself] at hsplit

/-- The packages that the others publish. -/
def published (config : HierarchicalThresholdConfig) (rogue : RankedParticipant)
    (rng : ParticipantId → ℕ → NonZeroScalar) : List HtssDkgRound1Package :=
  (others config rogue).map fun q => (honestState config rng q).package

theorem mem_participants_of_mem_others {q : RankedParticipant} (hq : q ∈ others config rogue) :
    q ∈ config.participants := List.mem_of_mem_filter hq

theorem round1Valid_rogue (hc : config.Accepted) (hrogue : rogue ∈ config.participants)
    (hmask : mask.eval 0 = 1) (hgap : gap ≠ 0) {round1Packages : List HtssDkgRound1Package}
    (hperm : round1Packages.Perm (roguePackage config rogue mask gap :: published config rogue rng)) :
    Round1Valid config round1Packages where
  senders := by
    have hids := hperm.map HtssDkgRound1Package.participantId
    rw [List.map_cons, published, List.map_map] at hids
    exact hids.trans ((rogue_others_perm hc hrogue).map RankedParticipant.id)
  ranks := by
    intro package hpackage
    rcases List.mem_cons.mp (hperm.mem_iff.mp hpackage) with rfl | hpublished
    · exact hc.rankOf_of_mem hrogue
    · obtain ⟨q, hq, rfl⟩ := List.mem_map.mp hpublished
      exact hc.rankOf_of_mem (mem_participants_of_mem_others hq)
  committed := by
    intro package hpackage
    rcases List.mem_cons.mp (hperm.mem_iff.mp hpackage) with rfl | hpublished
    · exact ⟨_, by rw [List.length_map, List.length_range], roguePoints_ne_zero hmask hgap, rogueBytes⟩
    · obtain ⟨q, -, rfl⟩ := List.mem_map.mp hpublished
      exact ⟨_, by rw [List.length_map, length_honestCoefficients], honestPoints_ne_zero q, honestBytes q⟩

theorem rogue_id_ne {q : RankedParticipant} (hq : q ∈ others config rogue) : q.id ≠ rogue.id := by
  have hnot := List.of_mem_filter hq
  simpa using hnot

theorem round2Valid_rogue (hc : config.Accepted) (hrogue : rogue ∈ config.participants)
    (hdeg : mask.degree < config.threshold.toNat) (hmask : mask.eval 0 = 1) (hgap : gap ≠ 0)
    {q : RankedParticipant} (hq : (derivative^[q.rank.toNat] mask).eval (q.id.toNat : Scalar) = 0)
    {round1Packages : List HtssDkgRound1Package} {round2Packages : List HtssDkgRound2Package}
    (h1 : round1Packages.Perm (roguePackage config rogue mask gap :: published config rogue rng))
    (h2 : round2Packages.Perm (rogueShare config rogue mask q ::
      (others config rogue).map fun p => honestShare config rng p q)) :
    Round2Valid config q round1Packages round2Packages where
  senders := by
    have hids := h2.map HtssDkgRound2Package.sender
    rw [List.map_cons, List.map_map] at hids
    exact hids.trans ((rogue_others_perm hc hrogue).map RankedParticipant.id)
  recipients := by
    intro package hpackage
    rcases List.mem_cons.mp (h2.mem_iff.mp hpackage) with rfl | hhonest
    · exact ⟨rfl, rfl⟩
    · obtain ⟨p, -, rfl⟩ := List.mem_map.mp hhonest
      exact ⟨rfl, rfl⟩
  opens := by
    intro package hpackage round1 hround1 hsender
    rcases List.mem_cons.mp (h2.mem_iff.mp hpackage) with rfl | hhonest
    · rcases List.mem_cons.mp (h1.mem_iff.mp hround1) with rfl | hpublished
      · refine ⟨_, scalarFromBytes_toBytes _, ?_⟩
        have hopen := @promised_rogue config rogue mask gap hdeg hmask hgap q hq
        rwa [HtssDkgRound2Package.shareScalar, rogueShare, scalarFromBytes_toBytes,
          Option.getD_some] at hopen
      · obtain ⟨p, hp, rfl⟩ := List.mem_map.mp hpublished
        exact absurd hsender (rogue_id_ne hp)
    · obtain ⟨p, hp, rfl⟩ := List.mem_map.mp hhonest
      rcases List.mem_cons.mp (h1.mem_iff.mp hround1) with rfl | hpublished
      · exact absurd hsender.symm (rogue_id_ne hp)
      · obtain ⟨p', hp', rfl⟩ := List.mem_map.mp hpublished
        obtain rfl : p' = p := List.inj_on_of_nodup_map hc.distinct
          (mem_participants_of_mem_others hp') (mem_participants_of_mem_others hp) hsender
        exact ⟨_, scalarFromBytes_toBytes _, (promised_honest p' q).symm⟩

/-- The constant terms add up to the target. -/
theorem constantSum_rogue (hc : config.Accepted) (hmask : mask.eval 0 = 1)
    (hgap : rogueGap target (published config rogue rng) ≠ 0)
    {round1Packages : List HtssDkgRound1Package} (hperm : round1Packages.Perm
      (roguePackage config rogue mask (rogueGap target (published config rogue rng)) ::
        published config rogue rng)) : constantSum round1Packages = target • generator := by
  have hfill : rogueFill mask 0 = 0 := if_neg fun h => h.1 rfl
  have hsplit : constantSum round1Packages =
      (roguePackage config rogue mask (rogueGap target (published config rogue rng))).commitment 0 +
        constantSum (published config rogue rng) := (hperm.map _).sum_eq.trans List.sum_cons
  rw [hsplit, commitment_rogue hmask hgap hc.threshold_pos, rogueCommitment, hfill,
    coeff_zero_eq_eval_zero, hmask, one_smul, zero_smul Scalar generator, add_zero, rogueGap,
    sub_add_cancel]

/-- The second round of an honest participant does not look at what the packages commit to. -/
theorem htssDkgRound2_of_valid (hc : config.Accepted) {q : RankedParticipant}
    (hq : q ∈ config.participants) {round1Packages : List HtssDkgRound1Package}
    (hvalid : Round1Valid config round1Packages) :
    htssDkgRound2 (honestState config rng q) round1Packages config =
      .ok (config.participants.map (honestShare config rng q)) := by
  have hown : ∃ package ∈ round1Packages,
      package.participantId = (honestState config rng q).package.participantId :=
    List.mem_map.mp (hvalid.senders.mem_iff.mpr (List.mem_map_of_mem hq))
  have hhonest := @htssDkgRound2_honest config rng hc q hq _ (List.Perm.refl _)
  obtain ⟨-, -, husable⟩ := htssDkgRound2_isOk_iff.mp ⟨_, hhonest⟩
  obtain ⟨shares, hshares⟩ := htssDkgRound2_isOk_iff.mpr
    ⟨(validateHtssDkgRound1Set_eq_ok hc).mpr hvalid, hown, husable⟩
  rw [hshares]
  simp only [htssDkgRound2, bind_eq_ok, ifFail_eq_ok] at hhonest hshares
  obtain ⟨_, -, -, -, coefficients, hcoefficients, hresult⟩ := hhonest
  obtain ⟨_, -, -, -, coefficients', hcoefficients', hresult'⟩ := hshares
  rw [hcoefficients, Except.ok.injEq] at hcoefficients'
  subst hcoefficients'
  exact hresult'.symm.trans hresult

end Rogue

theorem exists_mask {config : HierarchicalThresholdConfig} (hc : config.Accepted)
    {honest : List ParticipantId} (hnd : honest.Nodup)
    (hhidden : ¬∃ w, config.Reveals honest w) :
    ∃ mask : Scalar[X], mask.degree < config.threshold.toNat ∧ mask.eval 0 = 1 ∧
      ∀ q ∈ config.participants, q.id ∈ honest →
        (derivative^[q.rank.toNat] mask).eval (q.id.toNat : Scalar) = 0 := by
  rcases @exists_hides_or_recovers Scalar _ _ hc.threshold_pos (conditions (config.points honest)) with
    ⟨mask, hmask⟩ | ⟨c, hrecovers⟩
  · exact ⟨mask, hmask.degree_lt, hmask.eval_zero, fun q hq hid =>
      hmask.vanishes _ (mem_conditions_points hc hq hid)⟩
  · exact absurd (exists_reveals_of_recovers hnd hrecovers) hhidden

/-- If the shares of the honest participants leave the secret open, then a participant that
publishes last picks the group key: from the packages of the others it computes a package and
shares that every honest participant accepts, and alone it signs under the key they get. -/
theorem rogue_chooses_key {threshold : UInt16} {participants : List RankedParticipant}
    {config : HierarchicalThresholdConfig}
    (hnew : HierarchicalThresholdConfig.new threshold participants = .ok config)
    {rogue : RankedParticipant} (hrogue : rogue ∈ config.participants) {honest : List ParticipantId}
    (hnd : honest.Nodup) (hhidden : ¬∃ w, config.Reveals honest w) :
    ∃ mask : Scalar[X], ∀ (rng : ParticipantId → ℕ → NonZeroScalar) (target : NonZeroScalar),
      rogueGap target.val (published config rogue rng) ≠ 0 →
      let package := roguePackage config rogue mask (rogueGap target.val (published config rogue rng))
      let groupKey : GroupKey := ⟨pointToXonlyBytes (target.val • generator), []⟩
      (∀ q ∈ others config rogue, q.id ∈ honest → ∀ round1Packages round2Packages,
        round1Packages.Perm (package :: published config rogue rng) →
        round2Packages.Perm (rogueShare config rogue mask q ::
          (others config rogue).map fun p => honestShare config rng p q) →
        htssDkgRound2 (honestState config rng q) round1Packages config =
            .ok (config.participants.map (honestShare config rng q)) ∧
          ∃ share, finalizeHtssDkg q.id round1Packages round2Packages config = .ok (groupKey, share)) ∧
      ∀ (library : BitcoinLibrary) (hash : ChallengeHash) (schnorr : Schnorr), schnorr.Implements hash →
        ∀ digest,
        verifyAggregateSignatureDigest library hash groupKey digest
          ⟨(schnorr.sign (newKeypair target) digest).toBytes⟩ = .ok true := by
  have hc := HierarchicalThresholdConfig.accepted_of_new hnew
  obtain ⟨mask, hdeg, hmask, hvanishes⟩ := exists_mask hc hnd hhidden
  refine ⟨mask, fun rng target hgap => ⟨fun q hq hhonest round1Packages round2Packages h1 h2 => ?_,
    fun library hash schnorr himpl digest => ?_⟩⟩
  · have hmember := mem_participants_of_mem_others hq
    have hround1 := round1Valid_rogue hc hrogue hmask hgap h1
    have hround2 := round2Valid_rogue hc hrogue hdeg hmask hgap (hvanishes q hmember hhonest) h1 h2
    have hsum := constantSum_rogue hc hmask hgap h1
    have htarget : constantSum round1Packages ≠ 0 := by
      rw [hsum]
      exact fun hzero => target.property (smul_generator_eq_zero.mp hzero)
    refine ⟨htssDkgRound2_of_valid hc hmember hround1, ?_⟩
    rw [← hsum]
    exact ⟨_, (finalizeHtssDkg_eq_ok hc hmember).mpr ⟨hround1, hround2, htarget, rfl⟩⟩
  · have hvalid := sign_valid schnorr (newKeypair target) digest
    have hx : pointToXonlyBytes (newKeypair target).publicKey =
        pointToXonlyBytes (target.val • generator) := pointToXonlyBytes_intoPointWithEvenY _
    have hne : (newKeypair target).publicKey ≠ 0 := intoPointWithEvenY_ne_zero
      fun hzero => target.property (smul_generator_eq_zero.mp hzero)
    have hkey := pointFromXonlyBytes_eq_some.mpr ⟨hne, hx, (newKeypair target).even⟩
    exact @verifyAggregate_of_valid library hash schnorr himpl ⟨_, []⟩ _ hkey _ digest hvalid

theorem rogue_chooses_key_pair : ∃ package round2Packages share,
    finalizeHtssDkg 2 [package, (honestState pairConfig pairDraws ⟨2, 1, none⟩).package]
      round2Packages pairConfig =
        .ok (⟨pointToXonlyBytes ((2 : Scalar) • generator), []⟩, share) := by
  have hc := HierarchicalThresholdConfig.accepted_of_new pairConfig_new
  have hhidden : ¬∃ w, pairConfig.Reveals [2] w := (sharesHide_iff_not_reveals hc (by decide)
    (by decide)).mp (sharesHide_of_no_rank_zero hc (by decide) (by decide))
  obtain ⟨mask, hmask⟩ := @rogue_chooses_key _ _ _ pairConfig_new ⟨1, 0, none⟩ (by decide) [2] (by decide)
    hhidden
  have hpublished : constantSum (published pairConfig ⟨1, 0, none⟩ pairDraws) =
      generator := by
    have hsum := @commitment_honest pairConfig pairDraws ⟨2, 1, none⟩ 0 hc.threshold_pos
    have hone : (honestState pairConfig pairDraws ⟨2, 1, none⟩).package.commitment 0 =
      generator := hsum.trans (one_smul Scalar generator)
    exact (add_zero _).trans hone
  have hgap : rogueGap 2 (published pairConfig ⟨1, 0, none⟩ pairDraws) ≠ 0 := by
    rw [rogueGap, hpublished, two_smul, add_sub_cancel_right]
    exact generator_ne_zero
  obtain ⟨haccept, -⟩ := hmask pairDraws ⟨2, two_ne_zero_scalar⟩ hgap
  obtain ⟨-, share, hfinal⟩ := haccept ⟨2, 1, none⟩ (by decide) (by decide) _ _ (List.Perm.refl _)
    (List.Perm.refl _)
  exact ⟨_, _, share, hfinal⟩


end DkgKit
