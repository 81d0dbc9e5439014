import DkgKit.Birkhoff

/-! Dealer key generation, reconstruction of the secret and resharing. Random
scalars are read from `rng`, sample by sample. -/

open Polynomial BigEndian BirkhoffMatrix LoopRules

namespace DkgKit

abbrev NonZeroScalar := {s : Scalar // s ≠ 0}

def NonZeroScalar.one : NonZeroScalar := ⟨1, one_ne_zero⟩

structure GroupKey where
  xonlyPublicKey : Bytes 32
  verificationKeyBytes : List UInt8
  deriving DecidableEq

structure HtssLocalKeyShare where
  participantId : ParticipantId
  rank : UInt16
  shareValueBytes : Bytes 32
  deriving DecidableEq

structure HtssLocalKeySet where
  groupKey : GroupKey
  shares : List HtssLocalKeyShare
  deriving DecidableEq

section KeyPair

/-- A key pair in the x-only convention: the public key has an even ordinate. -/
structure KeyPair where
  secretKey : NonZeroScalar
  publicKey : Point
  publicKey_eq : secretKey.val • generator = publicKey
  even : isOddY publicKey = false

/-- `Schnorr::new_keypair` negates the secret when its point is odd. -/
def newKeypair (secret : NonZeroScalar) : KeyPair where
  secretKey := ⟨conditionalNegate (isOddY (secret.val • generator)) secret.val, by
    rw [conditionalNegate]
    split_ifs
    · exact neg_ne_zero.mpr secret.property
    · exact secret.property⟩
  publicKey := (intoPointWithEvenY (secret.val • generator)).1
  publicKey_eq := conditionalNegate_smul_generator secret.val
  even := isOddY_intoPointWithEvenY fun h => secret.property (smul_generator_eq_zero.mp h)

theorem newKeypair_of_even {secret : NonZeroScalar}
    (h : isOddY (secret.val • generator) = false) : (newKeypair secret).secretKey = secret := by
  simp [newKeypair, h, conditionalNegate]

end KeyPair

section Dealer

def dealShare (polynomial : List Scalar) (participant : RankedParticipant) :
    Result HtssLocalKeyShare := do
  let value ← polynomialDerivativeValue polynomial participant.id participant.rank
  .ok ⟨participant.id, participant.rank, scalarToBytes value⟩

def drawPolynomial (constantTerm : Scalar) (threshold : UInt16) (rng : ℕ → NonZeroScalar) :
    List Scalar :=
  constantTerm :: (List.range (threshold.toNat - 1)).map fun k => (rng k).val

def runLocalHtssKeygen (config : HierarchicalThresholdConfig) (initialSecret : NonZeroScalar)
    (rng : ℕ → NonZeroScalar) : Result HtssLocalKeySet := do
  let keypair := newKeypair initialSecret
  let polynomial := drawPolynomial keypair.secretKey.val config.threshold rng
  let shares ← collectResults (dealShare polynomial) config.participants
  .ok ⟨⟨pointToXonlyBytes keypair.publicKey, []⟩, shares⟩

end Dealer

section Reconstruction

def shareMap (shares : List HtssLocalKeyShare) : ParticipantId → Option HtssLocalKeyShare :=
  lastWith HtssLocalKeyShare.participantId shares

def addWeightedShare (shares : List HtssLocalKeyShare) (secret : Scalar)
    (coefficient : BirkhoffCoefficient) : Result Scalar := do
  let share ← okOr (.missingRankedParticipant coefficient.participantId)
    (shareMap shares coefficient.participantId)
  if share.rank ≠ coefficient.derivativeOrder then
    fail (.protocol s!"HTSS share rank mismatch for participant {share.participantId}: share rank {share.rank}, coefficient rank {coefficient.derivativeOrder}")
  else
    let shareValue ← okOr (.protocol s!"invalid HTSS share scalar for participant {share.participantId}")
      (scalarFromBytes share.shareValueBytes)
    let coefficientValue ← okOr
      (.protocol s!"invalid Birkhoff coefficient scalar for participant {coefficient.participantId}")
      (scalarFromBytes coefficient.coefficientBytes)
    .ok (secret + coefficientValue * shareValue)

def reconstructHtssSecretScalar (shares : List HtssLocalKeyShare) (signerSet : List ParticipantId)
    (config : HierarchicalThresholdConfig) : Result (Bytes 32) := do
  let points ← birkhoffPointsFromHierarchicalSignerSet signerSet config
  let coefficients ← birkhoffInterpolationCoefficients points
  let secret ← coefficients.foldlM (addWeightedShare shares) 0
  .ok (scalarToBytes secret)

def nonZeroFromBytes (bytes : Bytes 32) : Option NonZeroScalar :=
  (scalarFromBytes bytes).bind fun s => if h : s = 0 then none else some ⟨s, h⟩

def reshareHtss (old : HtssLocalKeySet) (oldConfig : HierarchicalThresholdConfig)
    (reconstructSet : List ParticipantId) (newConfig : HierarchicalThresholdConfig)
    (rng : ℕ → NonZeroScalar) : Result HtssLocalKeySet := do
  let secretBytes ← reconstructHtssSecretScalar old.shares reconstructSet oldConfig
  let secret ← okOr (.protocol "reconstructed HTSS secret is zero") (nonZeroFromBytes secretBytes)
  let keypair := newKeypair secret
  if pointToXonlyBytes keypair.publicKey ≠ old.groupKey.xonlyPublicKey then
    fail (.protocol "reshare would change the group key")
  else
    let polynomial := drawPolynomial keypair.secretKey.val newConfig.threshold rng
    let shares ← collectResults (dealShare polynomial) newConfig.participants
    .ok ⟨old.groupKey, shares⟩

end Reconstruction

section Consistency

noncomputable def derivativeShare (F : Scalar[X]) (participant : RankedParticipant) :
    HtssLocalKeyShare :=
  ⟨participant.id, participant.rank,
    scalarToBytes ((derivative^[participant.rank.toNat] F).eval (participant.id.toNat : Scalar))⟩

/-- The key set holds the derivative shares of `F`, one per participant, and its
group key is the even point of the secret `F(0)`. -/
structure HtssLocalKeySet.Consistent (keySet : HtssLocalKeySet)
    (config : HierarchicalThresholdConfig) (F : Scalar[X]) : Prop where
  degree_lt : F.degree < config.threshold.toNat
  secret_ne_zero : F.eval 0 ≠ 0
  even : isOddY (F.eval 0 • generator) = false
  groupKey_eq : keySet.groupKey.xonlyPublicKey = pointToXonlyBytes (F.eval 0 • generator)
  shares_perm : keySet.shares.Perm (config.participants.map (derivativeShare F))

/-- A consistent key set whose shares stand in the order of the participants. -/
structure HtssLocalKeySet.Dealt (keySet : HtssLocalKeySet) (config : HierarchicalThresholdConfig)
    (F : Scalar[X]) : Prop extends keySet.Consistent config F where
  shares_eq : keySet.shares = config.participants.map (derivativeShare F)

theorem length_drawPolynomial (constantTerm : Scalar) {threshold : UInt16}
    (h : 0 < threshold.toNat) (rng : ℕ → NonZeroScalar) :
    (drawPolynomial constantTerm threshold rng).length = threshold.toNat := by
  rw [drawPolynomial, List.length_cons, List.length_map, List.length_range]
  omega

theorem eval_zero_toPolynomial_cons (c : Scalar) (rest : List Scalar) :
    (toPolynomial (c :: rest)).eval 0 = c := by
  have h := coeff_ofVector (c :: rest).get ⟨0, by simp⟩
  rwa [← coeff_zero_eq_eval_zero]

theorem collectShares_eq {polynomial : List Scalar} (h : polynomial.length ≤ 65535)
    (participants : List RankedParticipant) : collectResults (dealShare polynomial) participants =
      .ok (participants.map (derivativeShare (toPolynomial polynomial))) := by
  apply collectResults_eq_map
  intro participant _
  rw [dealShare, polynomialDerivativeValue_eq h, ok_bind]
  rfl

theorem collectShares_drawPolynomial (constantTerm : Scalar) {threshold : UInt16}
    (h : 0 < threshold.toNat) (rng : ℕ → NonZeroScalar) (participants : List RankedParticipant) :
    collectResults (dealShare (drawPolynomial constantTerm threshold rng)) participants =
      .ok (participants.map
        (derivativeShare (toPolynomial (drawPolynomial constantTerm threshold rng)))) := by
  apply collectShares_eq
  rw [length_drawPolynomial constantTerm h rng]
  have := threshold.toNat_lt
  omega

theorem dealt_of_keypair (keypair : KeyPair) {config : HierarchicalThresholdConfig}
    (hpos : 0 < config.threshold.toNat) (rng : ℕ → NonZeroScalar) (groupKey : GroupKey)
    (hkey : groupKey.xonlyPublicKey = pointToXonlyBytes keypair.publicKey) :
    HtssLocalKeySet.Dealt ⟨groupKey, config.participants.map (derivativeShare
        (toPolynomial (drawPolynomial keypair.secretKey.val config.threshold rng)))⟩ config
      (toPolynomial (drawPolynomial keypair.secretKey.val config.threshold rng)) := by
  have hzero : (toPolynomial (drawPolynomial keypair.secretKey.val config.threshold rng)).eval 0 =
      keypair.secretKey.val := eval_zero_toPolynomial_cons _ _
  refine ⟨⟨?_, ?_, ?_, ?_, List.Perm.refl _⟩, rfl⟩
  · have hdeg := degree_toPolynomial_lt (drawPolynomial keypair.secretKey.val config.threshold rng)
    rwa [length_drawPolynomial _ hpos rng] at hdeg
  · rw [hzero]
    exact keypair.secretKey.property
  · rw [hzero, keypair.publicKey_eq]
    exact keypair.even
  · rw [hzero, keypair.publicKey_eq]
    exact hkey

theorem exists_runLocalHtssKeygen_dealt {config : HierarchicalThresholdConfig} (hc : config.Accepted)
    (initialSecret : NonZeroScalar) (rng : ℕ → NonZeroScalar) :
    ∃ keySet F, runLocalHtssKeygen config initialSecret rng = .ok keySet ∧
      keySet.Dealt config F := by
  refine ⟨_, _, ?_, dealt_of_keypair (newKeypair initialSecret) hc.threshold_pos rng
    ⟨pointToXonlyBytes (newKeypair initialSecret).publicKey, []⟩ rfl⟩
  rw [runLocalHtssKeygen, collectShares_drawPolynomial _ hc.threshold_pos]
  rfl

theorem map_participantId_derivativeShare (F : Scalar[X]) (participants : List RankedParticipant) :
    (participants.map (derivativeShare F)).map HtssLocalKeyShare.participantId =
      participants.map RankedParticipant.id := by
  rw [List.map_map]
  rfl

theorem shareMap_derivativeShare {config : HierarchicalThresholdConfig} (hc : config.Accepted)
    {F : Scalar[X]} {shares : List HtssLocalKeyShare}
    (hshares : shares.Perm (config.participants.map (derivativeShare F))) {signer : ParticipantId}
    (hs : (config.rankOf signer).isSome) :
    shareMap shares signer = some ⟨signer,
      (config.point signer).derivativeOrder,
      scalarToBytes ((derivative^[(config.point signer).derivativeOrder.toNat] F).eval
        (signer.toNat : Scalar))⟩ := by
  obtain ⟨rank, hrank⟩ := Option.isSome_iff_exists.mp hs
  obtain ⟨p, hp, rfl, rfl⟩ := hc.rankOf_eq_some.mp hrank
  have hnd : (shares.map HtssLocalKeyShare.participantId).Nodup := by
    rw [(hshares.map _).nodup_iff, map_participantId_derivativeShare]
    exact hc.distinct
  rw [shareMap, lastWith_eq_some hnd]
  refine ⟨hshares.mem_iff.mpr (List.mem_map.mpr ⟨p, hp, ?_⟩), rfl⟩
  simp [HierarchicalThresholdConfig.point, hrank, derivativeShare]

theorem foldlM_addWeightedShare {config : HierarchicalThresholdConfig} (hc : config.Accepted)
    {F : Scalar[X]} {shares : List HtssLocalKeyShare}
    (hshares : shares.Perm (config.participants.map (derivativeShare F)))
    (w : ParticipantId → Scalar) {signers : List ParticipantId}
    (hs : ∀ s ∈ signers, (config.rankOf s).isSome) (secret : Scalar) :
    ((config.points signers).map (coefficientOf w)).foldlM (addWeightedShare shares) secret =
      .ok (secret + ((config.points signers).map fun point => w point.participantId *
        (derivative^[point.derivativeOrder.toNat] F).eval (point.x.toNat : Scalar)).sum) := by
  induction signers generalizing secret with
  | nil =>
    simp only [HierarchicalThresholdConfig.points, List.map_nil, List.sum_nil, add_zero]
    rfl
  | cons signer rest ih =>
    rw [List.forall_mem_cons] at hs
    have hstep : addWeightedShare shares secret (coefficientOf w (config.point signer)) =
          .ok (secret + w signer * (derivative^[(config.point signer).derivativeOrder.toNat] F).eval
            (signer.toNat : Scalar)) := by
      simp [addWeightedShare, coefficientOf, HierarchicalThresholdConfig.point,
        shareMap_derivativeShare hc hshares hs.1, okOr]
    have hrest := ih hs.2 (secret + w signer *
      (derivative^[(config.point signer).derivativeOrder.toNat] F).eval (signer.toNat : Scalar))
    simp only [HierarchicalThresholdConfig.points, List.map_cons, List.foldlM_cons] at hrest ⊢
    rw [hstep, ok_bind, hrest, List.sum_cons, add_assoc]
    rfl

theorem reconstructHtssSecretScalar_eq {config : HierarchicalThresholdConfig} (hc : config.Accepted)
    {F : Scalar[X]} (hF : F.degree < config.threshold.toNat) {shares : List HtssLocalKeyShare}
    (hshares : shares.Perm (config.participants.map (derivativeShare F)))
    {signers : List ParticipantId} (hq : config.Quorum signers) :
    reconstructHtssSecretScalar shares signers config = .ok (scalarToBytes (F.eval 0)) := by
  obtain ⟨w, hw, hpoints, hcoeff⟩ := hq.exists_weights hc
  have hdeg : F.degree < (config.points signers).length :=
    hF.trans_le (Nat.cast_le.mpr hq.length_points)
  rw [reconstructHtssSecretScalar, hpoints, ok_bind, hcoeff, ok_bind,
    foldlM_addWeightedShare hc hshares w hq.members, ok_bind, zero_add, ← hw F hdeg]

theorem quorum_of_reconstruct {config : HierarchicalThresholdConfig} (hc : config.Accepted)
    {shares : List HtssLocalKeyShare} {signers : List ParticipantId} {secretBytes : Bytes 32}
    (h : reconstructHtssSecretScalar shares signers config = .ok secretBytes) :
    config.Quorum signers := by
  obtain ⟨points, hpoints, h⟩ := bind_eq_ok.mp h
  obtain ⟨coefficients, hcoeff, -⟩ := bind_eq_ok.mp h
  exact HierarchicalThresholdConfig.quorum_of_coefficients hc hpoints hcoeff

theorem nonZeroFromBytes_toBytes {s : Scalar} (h : s ≠ 0) :
    nonZeroFromBytes (scalarToBytes s) = some ⟨s, h⟩ := by
  simp [nonZeroFromBytes, h]

theorem nonZeroFromBytes_eq_some {bytes : Bytes 32} {s : NonZeroScalar} :
    nonZeroFromBytes bytes = some s ↔ scalarFromBytes bytes = some s.val := by
  simp only [nonZeroFromBytes, Option.bind_eq_some_iff]
  constructor
  · rintro ⟨t, ht, h⟩
    split_ifs at h with hzero
    rw [← Option.some.inj h]
    exact ht
  · intro h
    exact ⟨s.val, h, by simp [s.property]⟩

/-- A reshare deals fresh shares of the reconstructed secret, whatever key set it started from. -/
theorem reshareHtss_eq_ok {old new : HtssLocalKeySet}
    {oldConfig newConfig : HierarchicalThresholdConfig} (hnew : newConfig.Accepted)
    {reconstructSet : List ParticipantId} {rng : ℕ → NonZeroScalar} :
    reshareHtss old oldConfig reconstructSet newConfig rng = .ok new ↔
      ∃ secret : NonZeroScalar, reconstructHtssSecretScalar old.shares reconstructSet oldConfig =
          .ok (scalarToBytes secret.val) ∧
        pointToXonlyBytes (newKeypair secret).publicKey = old.groupKey.xonlyPublicKey ∧
        new = ⟨old.groupKey, newConfig.participants.map (derivativeShare (toPolynomial
          (drawPolynomial (newKeypair secret).secretKey.val newConfig.threshold rng)))⟩ := by
  simp only [reshareHtss, bind_eq_ok, okOr_eq_ok, nonZeroFromBytes_eq_some]
  constructor
  · rintro ⟨bytes, hrec, secret, hsecret, h⟩
    split_ifs at h with hmatch
    · exact absurd h (fail_ne_ok _ _)
    · obtain ⟨shares, hshares, h⟩ := bind_eq_ok.mp h
      rw [collectShares_drawPolynomial _ hnew.threshold_pos, Except.ok.injEq] at hshares
      refine ⟨secret, ?_, not_not.mp hmatch, ?_⟩
      · rw [hrec, scalarFromBytes_eq_some.mp hsecret]
      · rw [← Except.ok.inj h, hshares]
  · rintro ⟨secret, hrec, hmatch, rfl⟩
    refine ⟨_, hrec, secret, scalarFromBytes_toBytes _, ?_⟩
    rw [if_neg (not_not.mpr hmatch), collectShares_drawPolynomial _ hnew.threshold_pos, ok_bind]

theorem dealt_of_reshareHtss {old new : HtssLocalKeySet}
    {oldConfig newConfig : HierarchicalThresholdConfig} (hnew : newConfig.Accepted)
    {reconstructSet : List ParticipantId} {rng : ℕ → NonZeroScalar}
    (h : reshareHtss old oldConfig reconstructSet newConfig rng = .ok new) :
    ∃ G : Scalar[X], new.Dealt newConfig G := by
  obtain ⟨secret, -, hmatch, rfl⟩ := (reshareHtss_eq_ok hnew).mp h
  exact ⟨_, dealt_of_keypair (newKeypair secret) hnew.threshold_pos rng old.groupKey hmatch.symm⟩

theorem reshareHtss_keeps_secret {old new : HtssLocalKeySet}
    {oldConfig newConfig : HierarchicalThresholdConfig} (hold : oldConfig.Accepted)
    (hnew : newConfig.Accepted) {F : Scalar[X]} (hcons : old.Consistent oldConfig F)
    {reconstructSet : List ParticipantId} {rng : ℕ → NonZeroScalar}
    (h : reshareHtss old oldConfig reconstructSet newConfig rng = .ok new) :
    ∃ G : Scalar[X], new.Dealt newConfig G ∧ G.eval 0 = F.eval 0 ∧ new.groupKey = old.groupKey := by
  obtain ⟨secret, hrec, hmatch, rfl⟩ := (reshareHtss_eq_ok hnew).mp h
  have hq := quorum_of_reconstruct hold hrec
  rw [reconstructHtssSecretScalar_eq hold hcons.degree_lt hcons.shares_perm hq,
    Except.ok.injEq] at hrec
  -- the reconstructed secret already has an even point
  have hsecret : secret.val = F.eval 0 := by
    have hbytes := congrArg scalarFromBytes hrec
    rw [scalarFromBytes_toBytes, scalarFromBytes_toBytes, Option.some.injEq] at hbytes
    exact hbytes.symm
  have hkey := newKeypair_of_even (hsecret ▸ hcons.even)
  refine ⟨_, dealt_of_keypair (newKeypair secret) hnew.threshold_pos rng old.groupKey hmatch.symm, ?_,
    rfl⟩
  rw [drawPolynomial, eval_zero_toPolynomial_cons, hkey, hsecret]

noncomputable def pairPolynomial : Scalar[X] := toPolynomial (drawPolynomial
  (newKeypair NonZeroScalar.one).secretKey.val pairConfig.threshold fun _ => NonZeroScalar.one)

noncomputable def pairKeySet : HtssLocalKeySet :=
  ⟨⟨pointToXonlyBytes (newKeypair NonZeroScalar.one).publicKey, []⟩,
    pairConfig.participants.map (derivativeShare pairPolynomial)⟩

theorem sum_ones_ne_zero : (([1, 2] : List ParticipantId).map fun _ => (1 : Scalar)).sum ≠ 0 := by
  have hcast : (([1, 2] : List ParticipantId).map fun _ => (1 : Scalar)).sum = ((2 : ℕ) : Scalar) := by
    norm_num
  rw [hcast]
  exact scalar_natCast_ne_zero (by decide) (by decide)

theorem pairKeySet_dealt : pairKeySet.Dealt pairConfig pairPolynomial :=
  dealt_of_keypair (newKeypair NonZeroScalar.one) (by decide) _ _ rfl

end Consistency

end DkgKit
