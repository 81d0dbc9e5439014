import DkgKit.Signing

/-! Signing for a derived output key `A • P + B • G` of the group point `P`: the three
sign corrections of the signers and the aggregator combine to one BIP340 equation. -/

open Polynomial BigEndian BirkhoffMatrix

namespace DkgKit

section OutputKey

variable (schnorr : Schnorr) {config : HierarchicalThresholdConfig} {keySet : HtssLocalKeySet}
  {F : Scalar[X]} {signers : List ParticipantId} {w : ParticipantId → Scalar}
  {k : ParticipantId → NonZeroScalar}

/-- The signature that the aggregator assembles: the shares and the tweak times the challenge. -/
noncomputable def outputSignature (config : HierarchicalThresholdConfig) (F : Scalar[X])
    (w : ParticipantId → Scalar) (k : ParticipantId → NonZeroScalar) (signers : List ParticipantId)
    (negateKey : Bool) (Q : Point) (B : Scalar) (digest : Bytes 32) : Signature :=
  let R := (intoPointWithEvenY (nonceSum k signers • generator)).1
  ⟨R, ((config.points signers).map (signatureShare schnorr F w k signers negateKey Q digest)).sum +
    schnorr.challenge R Q digest * B⟩

theorem outputSignature_valid (hw : Weights (config.points signers) w)
    (hdeg : F.degree < (config.points signers).length) (hk : nonceSum k signers ≠ 0)
    {negateKey : Bool} {Q : Point} {B : Scalar}
    (hQ : conditionalNegate negateKey 1 • (F.eval 0 • generator) + B • generator = Q)
    (digest : Bytes 32) :
    (outputSignature schnorr config F w k signers negateKey Q B digest).Valid schnorr Q digest := by
  have hne : nonceSum k signers • generator ≠ 0 := fun h => hk (smul_generator_eq_zero.mp h)
  refine ⟨intoPointWithEvenY_ne_zero hne, isOddY_intoPointWithEvenY hne, ?_⟩
  -- the challenge stays opaque: it commits to the output point itself
  generalize hchallenge : schnorr.challenge
    (outputSignature schnorr config F w k signers negateKey Q B digest).R Q digest = e
  have hs : (outputSignature schnorr config F w k signers negateKey Q B digest).s =
      conditionalNegate (isOddY (nonceSum k signers • generator)) (nonceSum k signers) +
        e * (conditionalNegate negateKey 1 * F.eval 0 + B) := by
    rw [← hchallenge]
    simp only [outputSignature, sum_signatureShare schnorr hw hdeg]
    rw [conditionalNegate_eq_mul negateKey (schnorr.challenge _ _ _)]
    ring
  rw [hs, add_smul, conditionalNegate_smul_generator, mul_smul, add_smul, mul_smul, hQ]
  rfl

theorem aggregateHtssSignatureSharesForOutput_eq (hc : config.Accepted) (hq : config.Quorum signers)
    (hw : Weights (config.points signers) w) (hdeg : F.degree < (config.points signers).length)
    {session : SessionId} (hk : nonceSum k signers ≠ 0) {negateKey : Bool} {outputXonly : Bytes 32}
    {Q : Point} (houtput : pointFromXonlyBytes outputXonly = some Q) {B : Scalar}
    (hQ : conditionalNegate negateKey 1 • (F.eval 0 • generator) + B • generator = Q)
    {digest : Bytes 32} {signerSet : List ParticipantId} (hset : signerSet.Perm signers)
    {nonces : List HtssNoncePackage} (hnonces : nonces.Perm (signers.map (honestNonce session k)))
    {shares : List HtssSignatureSharePackage} (hshares : shares.Perm (signers.map
      (signaturePackage schnorr config F w session k signers negateKey Q digest))) :
    aggregateHtssSignatureSharesForOutput schnorr digest outputXonly (scalarToBytes B) nonces shares
        signerSet config =
      .ok ⟨(outputSignature schnorr config F w k signers negateKey Q B digest).toBytes⟩ := by
  have hverify := (outputSignature_valid schnorr hw hdeg hk hQ digest).verify
  rw [aggregateHtssSignatureSharesForOutput,
    collectSignatureShares_eq schnorr hc hq hk hset hnonces hshares, ok_bind]
  simp only [houtput, okOr, ok_bind, scalarFromBytes_toBytes]
  simp only [outputSignature] at hverify ⊢
  rw [if_pos hverify, AggregateSignature.new_toBytes]

/-- A signing round for an output key, in which every party may have its copies of the
signer set, the nonces and the signature shares in an order of its own. -/
structure OutputRound (config : HierarchicalThresholdConfig) (keySet : HtssLocalKeySet)
    (signers : List ParticipantId) (digest : Bytes 32) (session : SessionId)
    (k : ParticipantId → NonZeroScalar) (outputXonly : Bytes 32) (B : Scalar) (negateKey : Bool)
    (Q : Point) (share : ParticipantId → HtssSignatureSharePackage) (signature : Signature) :
    Prop where
  signs : ∀ s ∈ signers, ∃ localShare ∈ keySet.shares, localShare.participantId = s ∧
    ∃ nonce, htssNonce session localShare (k s) = .ok nonce ∧
      nonce.package = honestNonce session k s ∧
      ∀ signerSet nonces, signerSet.Perm signers →
        nonces.Perm (signers.map (honestNonce session k)) →
        htssSignShareForOutput schnorr keySet.groupKey digest outputXonly negateKey localShare nonce
          nonces signerSet config = .ok (share s)
  aggregates : ∀ signerSet nonces shares, signerSet.Perm signers →
    nonces.Perm (signers.map (honestNonce session k)) → shares.Perm (signers.map share) →
    aggregateHtssSignatureSharesForOutput schnorr digest outputXonly (scalarToBytes B) nonces shares
      signerSet config = .ok ⟨signature.toBytes⟩
  valid : signature.Valid schnorr Q digest

theorem HierarchicalThresholdConfig.Quorum.outputRound (hc : config.Accepted)
    (hkeys : keySet.Consistent config F) (hq : config.Quorum signers) (digest : Bytes 32)
    (session : SessionId) (hk : nonceSum k signers ≠ 0) {outputXonly : Bytes 32} {negateKey : Bool}
    {Q : Point} {B : Scalar} (houtput : pointFromXonlyBytes outputXonly = some Q)
    (hQ : conditionalNegate negateKey 1 • (F.eval 0 • generator) + B • generator = Q) :
    ∃ share signature, OutputRound schnorr config keySet signers digest session k outputXonly B
      negateKey Q share signature := by
  obtain ⟨w, hw, -, -⟩ := hq.exists_weights hc
  have hdeg : F.degree < (config.points signers).length :=
    hkeys.degree_lt.trans_le (Nat.cast_le.mpr hq.length_points)
  refine ⟨signaturePackage schnorr config F w session k signers negateKey Q digest,
    outputSignature schnorr config F w k signers negateKey Q B digest, fun s hs => ?_,
    fun signerSet nonces shares hset hnonces hshares => aggregateHtssSignatureSharesForOutput_eq
      schnorr hc hq hw hdeg hk houtput hQ hset hnonces hshares,
    outputSignature_valid schnorr hw hdeg hk hQ digest⟩
  obtain ⟨rank, hrank⟩ := Option.isSome_iff_exists.mp (hq.members s hs)
  obtain ⟨p, hp, rfl, rfl⟩ := hc.rankOf_eq_some.mp hrank
  refine ⟨derivativeShare F p, hkeys.shares_perm.mem_iff.mpr (List.mem_map_of_mem hp), rfl, _, rfl,
    rfl, fun signerSet nonces hset hnonces => ?_⟩
  exact signShareUnder_eq schnorr hc hq hw hk hset hnonces houtput _ _ _ hp hs

end OutputKey

section GroupKeyOutput

variable (schnorr : Schnorr) {xonlyKey : Bytes 32} {P : Point}

/-- The error for a key that does not decode is the only use of the key's role. -/
theorem signShareUnder_invalidKey (hP : pointFromXonlyBytes xonlyKey = some P)
    (invalidKey invalidKey' : DkgKitError) (negateKey : Bool) (digest : Bytes 32)
    (localShare : HtssLocalKeyShare) (nonce : HtssLocalNonce) (nonces : List HtssNoncePackage)
    (signerSet : List ParticipantId) (config : HierarchicalThresholdConfig) :
    signShareUnder schnorr xonlyKey invalidKey negateKey digest localShare nonce nonces signerSet
        config =
      signShareUnder schnorr xonlyKey invalidKey' negateKey digest localShare nonce nonces signerSet
        config := by
  simp only [signShareUnder, hP, okOr]

theorem aggregateForOutput_groupKey {groupKey : GroupKey}
    (hP : pointFromXonlyBytes groupKey.xonlyPublicKey = some P) {digest : Bytes 32}
    {nonces : List HtssNoncePackage} {shares : List HtssSignatureSharePackage}
    {signerSet : List ParticipantId} {config : HierarchicalThresholdConfig}
    {signature : AggregateSignature} :
    aggregateHtssSignatureSharesForOutput schnorr digest groupKey.xonlyPublicKey (scalarToBytes 0)
        nonces shares signerSet config = .ok signature ↔
      aggregateHtssSignatureShares schnorr groupKey digest nonces shares signerSet config =
        .ok signature := by
  simp only [aggregateHtssSignatureSharesForOutput, aggregateHtssSignatureShares, bind_eq_ok, hP,
    okOr_eq_ok, scalarFromBytes_toBytes, Option.some.injEq, exists_eq_left', mul_zero, add_zero]
  refine exists_congr fun collected => and_congr_right fun _ => ?_
  split_ifs
  · exact Iff.rfl
  · simp

end GroupKeyOutput

section Correctness

variable (schnorr : Schnorr) {config : HierarchicalThresholdConfig} {keySet : HtssLocalKeySet}
  {F : Scalar[X]} {signers : List ParticipantId}

/-- The quorum can sign for every output key `A • P + B • G`, in any order of every
party's copies; for the group key itself the output functions are the plain ones. -/
theorem outputSigning_correct {threshold : UInt16} {participants : List RankedParticipant}
    (hnew : HierarchicalThresholdConfig.new threshold participants = .ok config)
    (hkeys : keySet.Consistent config F)
    (hcoefficients : ∃ points coefficients,
      birkhoffPointsFromHierarchicalSignerSet signers config = .ok points ∧
        birkhoffInterpolationCoefficients points = .ok coefficients)
    (digest : Bytes 32) (session : SessionId) {k : ParticipantId → NonZeroScalar}
    (hk : (signers.map fun s => (k s).val).sum ≠ 0) :
    (∀ (outputXonly : Bytes 32) (B : Scalar) (negateKey : Bool) (Q : Point),
      pointFromXonlyBytes outputXonly = some Q →
      (if negateKey then (-1 : Scalar) else 1) • (F.eval 0 • generator) + B • generator = Q →
      ∃ share signature, OutputRound schnorr config keySet signers digest session k outputXonly B
        negateKey Q share signature) ∧
    (∀ localShare nonce nonces signerSet,
      htssSignShareForOutput schnorr keySet.groupKey digest keySet.groupKey.xonlyPublicKey false
          localShare nonce nonces signerSet config =
        htssSignShare schnorr keySet.groupKey digest localShare nonce nonces signerSet config) ∧
    ∀ nonces shares signerSet signature,
      aggregateHtssSignatureSharesForOutput schnorr digest keySet.groupKey.xonlyPublicKey
          (scalarToBytes 0) nonces shares signerSet config = .ok signature ↔
        aggregateHtssSignatureShares schnorr keySet.groupKey digest nonces shares signerSet config =
          .ok signature := by
  have hc := HierarchicalThresholdConfig.accepted_of_new hnew
  obtain ⟨points, coefficients, hpoints, hcoeff⟩ := hcoefficients
  have hq := HierarchicalThresholdConfig.quorum_of_coefficients hc hpoints hcoeff
  refine ⟨fun outputXonly B negateKey Q houtput hQ => ?_, fun localShare nonce nonces signerSet => ?_,
    fun nonces shares signerSet signature => ?_⟩
  · exact hq.outputRound schnorr hc hkeys digest session hk houtput hQ
  · exact signShareUnder_invalidKey schnorr hkeys.groupKey_point _ _ _ _ _ _ _ _ _
  · exact aggregateForOutput_groupKey schnorr hkeys.groupKey_point

/-- With `A = -1` and `B` twice the secret the output key is the group key again. -/
theorem outputSigning_correct_pair : ∃ share signature,
    OutputRound sampleSchnorr pairConfig pairKeySet [1, 2] (List.Vector.replicate 32 0) "session"
      (fun _ => NonZeroScalar.one) pairKeySet.groupKey.xonlyPublicKey (2 * pairPolynomial.eval 0) true
      (pairPolynomial.eval 0 • generator) share signature := by
  obtain ⟨w, -, hpoints, hcoeff⟩ := pairConfig_quorum.exists_weights
    (HierarchicalThresholdConfig.accepted_of_new pairConfig_new)
  refine (outputSigning_correct sampleSchnorr pairConfig_new pairKeySet_dealt.toConsistent
    ⟨_, _, hpoints, hcoeff⟩ (List.Vector.replicate 32 0) "session" sum_ones_ne_zero).1 _ _ true _
    pairKeySet_dealt.groupKey_point ?_
  rw [if_pos rfl, mul_smul, two_smul, neg_one_smul, neg_add_cancel_left]

end Correctness

end DkgKit
