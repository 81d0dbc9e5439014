import DkgKit.HexText
import DkgKit.LocalSigning
import DkgKit.Policies
import DkgKit.SigningSession

/-! Signing requests under the three policies, and grouped vaults from key generation to
signatures under the keys of their addresses. -/

open Polynomial BigEndian BirkhoffMatrix LoopRules

namespace DkgKit

section Requests

inductive SigningPolicy
  | threshold (config : ThresholdConfig)
  | hierarchical (config : HierarchicalThresholdConfig)
  | grouped (config : GroupedThresholdConfig)

def validateSignerSetWithPolicy (signers : List ParticipantId) : SigningPolicy → Result Unit
  | .threshold threshold => validateSignerSet signers threshold
  | .hierarchical config => validateHierarchicalSignerSet signers config
  | .grouped config => validateGroupedThresholdSignerSet signers config

def SigningRequest.newWithPolicy (sessionId : SessionId) (groupKey : GroupKey)
    (messageDigest : Bytes 32) (signerSet : List ParticipantId) (policy : SigningPolicy) :
    Result SigningRequest := do
  validateSignerSetWithPolicy signerSet policy
  .ok ⟨sessionId, groupKey, messageDigest, signerSet⟩

structure HierarchicalSigningRequest where
  request : SigningRequest
  points : List BirkhoffPoint
  coefficients : List BirkhoffCoefficient

def HierarchicalSigningRequest.new (sessionId : SessionId) (groupKey : GroupKey)
    (messageDigest : Bytes 32) (signerSet : List ParticipantId)
    (config : HierarchicalThresholdConfig) : Result HierarchicalSigningRequest := do
  let points ← birkhoffPointsFromHierarchicalSignerSet signerSet config
  let coefficients ← birkhoffInterpolationCoefficients points
  let request ← SigningRequest.newWithPolicy sessionId groupKey messageDigest signerSet
    (.hierarchical config)
  .ok ⟨request, points, coefficients⟩

structure GroupedSigningRequest where
  request : SigningRequest
  config : GroupedThresholdConfig

def GroupedSigningRequest.new (sessionId : SessionId) (groupKey : GroupKey)
    (messageDigest : Bytes 32) (signerSet : List ParticipantId) (config : GroupedThresholdConfig) :
    Result GroupedSigningRequest := do
  let request ← SigningRequest.newWithPolicy sessionId groupKey messageDigest signerSet
    (.grouped config)
  .ok ⟨request, config⟩

def runLocalGroupedHtssKeygen (config : GroupedThresholdConfig) (initialSecret : NonZeroScalar)
    (rng : ℕ → NonZeroScalar) : Result HtssLocalKeySet := do
  let hierarchical ← hierarchicalConfigFromGroupedThreshold config
  runLocalHtssKeygen hierarchical initialSecret rng

end Requests

section Hierarchical

variable {config : HierarchicalThresholdConfig} {keySet : HtssLocalKeySet} {F : Scalar[X]}
  {signers : List ParticipantId} {sessionId : SessionId} {groupKey : GroupKey} {digest : Bytes 32}

theorem hierarchicalSigningRequest_new_eq_ok (hc : config.Accepted)
    {request : HierarchicalSigningRequest} :
    HierarchicalSigningRequest.new sessionId groupKey digest signers config = .ok request ↔
      config.Quorum signers ∧ ∃ w, Weights (config.points signers) w ∧
        request = ⟨⟨sessionId, groupKey, digest, signers⟩, config.points signers,
          (config.points signers).map (coefficientOf w)⟩ := by
  simp only [HierarchicalSigningRequest.new, SigningRequest.newWithPolicy,
    validateSignerSetWithPolicy, bind_eq_ok, Except.ok.injEq]
  constructor
  · rintro ⟨points, hpoints, coefficients, hcoeff, _, ⟨_, -, rfl⟩, rfl⟩
    have hq := HierarchicalThresholdConfig.quorum_of_coefficients hc hpoints hcoeff
    obtain ⟨w, hw, hpoints', hcoeff'⟩ := hq.exists_weights hc
    rw [hpoints, Except.ok.injEq] at hpoints'
    rw [← hpoints', hcoeff, Except.ok.injEq] at hcoeff'
    exact ⟨hq, w, hw, by rw [hcoeff', hpoints']⟩
  · rintro ⟨hq, w, hw, rfl⟩
    obtain ⟨w', hw', hpoints, hcoeff⟩ := hq.exists_weights hc
    have hsame : (config.points signers).map (coefficientOf w') =
        (config.points signers).map (coefficientOf w) := by
      refine List.map_congr_left fun point hpoint => ?_
      have hweight := hw'.unique hw (List.Perm.refl _) hq.det_ne_zero hpoint
      rw [coefficientOf, coefficientOf, hweight]
    have hvalid : validateHierarchicalSignerSet signers config = .ok () :=
      (validateHierarchicalSignerSet_eq_ok hc).mpr hq.toSignerSet
    exact ⟨_, hpoints, _, hcoeff, _, ⟨(), hvalid, rfl⟩, by rw [hsame]⟩

theorem nonceSum_ones (signers : List ParticipantId) :
    nonceSum (fun _ => NonZeroScalar.one) signers = (signers.length : Scalar) := by
  rw [nonceSum, List.map_const', List.sum_replicate, nsmul_eq_mul]
  exact mul_one _

theorem nonceSum_ones_ne_zero (hc : config.Accepted) (hset : config.SignerSet signers) :
    nonceSum (fun _ => NonZeroScalar.one) signers ≠ 0 := by
  have hpos := hc.threshold_pos
  have hen := hset.enough
  have hle := hset.length_le
  have hlt := hc.length_lt
  rw [nonceSum_ones]
  exact scalar_natCast_ne_zero (by omega) (by omega)

/-- A request can be made exactly for the signer sets that can sign. Its points and coefficients
belong to the signers in order and recover the secret from their shares. -/
theorem hierarchicalRequest_iff_signable {threshold : UInt16} {participants : List RankedParticipant}
    (hnew : HierarchicalThresholdConfig.new threshold participants = .ok config)
    (hkeys : keySet.Consistent config F) (schnorr : Schnorr) (sessionId : SessionId)
    (digest : Bytes 32) (signers : List ParticipantId) :
    ((∃ request, HierarchicalSigningRequest.new sessionId keySet.groupKey digest signers config =
        .ok request) ↔
      ∃ rng signature, signDigestWithLocalHtssThresholdShares schnorr keySet.groupKey digest
        keySet.shares signers config rng = .ok signature) ∧
    ∀ request, HierarchicalSigningRequest.new sessionId keySet.groupKey digest signers config =
        .ok request →
      request.request = ⟨sessionId, keySet.groupKey, digest, signers⟩ ∧
      request.points.map BirkhoffPoint.participantId = signers ∧
      ∃ values : List Scalar, List.Forall₂ (fun (coefficient : BirkhoffCoefficient) value =>
        ∃ share ∈ keySet.shares, ∃ c v, share.participantId = coefficient.participantId ∧
          share.rank = coefficient.derivativeOrder ∧
          scalarFromBytes coefficient.coefficientBytes = some c ∧
          scalarFromBytes share.shareValueBytes = some v ∧ value = c * v) request.coefficients values ∧
        values.sum = F.eval 0 := by
  have hc := HierarchicalThresholdConfig.accepted_of_new hnew
  constructor
  · constructor
    · rintro ⟨request, hrequest⟩
      obtain ⟨hq, w, hw, -⟩ := (hierarchicalSigningRequest_new_eq_ok hc).mp hrequest
      exact ⟨fun _ => NonZeroScalar.one, _, (localSigning_eq_ok schnorr hc hkeys).mpr
        ⟨hq, nonceSum_ones_ne_zero hc hq.toSignerSet, w, hw, rfl⟩⟩
    · rintro ⟨rng, signature, hsign⟩
      obtain ⟨hq, -, w, hw, -⟩ := (localSigning_eq_ok schnorr hc hkeys).mp hsign
      exact ⟨_, (hierarchicalSigningRequest_new_eq_ok hc).mpr ⟨hq, w, hw, rfl⟩⟩
  · intro request hrequest
    obtain ⟨hq, w, hw, rfl⟩ := (hierarchicalSigningRequest_new_eq_ok hc).mp hrequest
    have hdeg : F.degree < (config.points signers).length :=
      hkeys.degree_lt.trans_le (Nat.cast_le.mpr hq.length_points)
    refine ⟨rfl, HierarchicalThresholdConfig.map_participantId_points _ _, (config.points signers).map
      fun point => w point.participantId *
        (derivative^[point.derivativeOrder.toNat] F).eval (point.x.toNat : Scalar), ?_, ?_⟩
    · rw [List.forall₂_map_left_iff, List.forall₂_map_right_iff, List.forall₂_same]
      intro point hpoint
      obtain ⟨s, hs, rfl⟩ := List.mem_map.mp hpoint
      obtain ⟨rank, hrank⟩ := Option.isSome_iff_exists.mp (hq.members s hs)
      obtain ⟨p, hp, rfl, rfl⟩ := hc.rankOf_eq_some.mp hrank
      have horder : (config.point p.id).derivativeOrder = p.rank := by
        simp [HierarchicalThresholdConfig.point, hrank]
      refine ⟨derivativeShare F p, hkeys.shares_perm.mem_iff.mpr (List.mem_map_of_mem hp), w p.id, _,
        rfl, horder.symm, scalarFromBytes_toBytes _, scalarFromBytes_toBytes _, ?_⟩
      rw [horder]
      rfl
    · exact (hw F hdeg).symm

end Hierarchical

theorem hierarchicalRequest_iff_signable_pair : ∃ request,
    HierarchicalSigningRequest.new "session" pairKeySet.groupKey (List.Vector.replicate 32 0) [1, 2]
      pairConfig = .ok request := by
  have hc := HierarchicalThresholdConfig.accepted_of_new pairConfig_new
  obtain ⟨w, hw, -, -⟩ := pairConfig_quorum.exists_weights hc
  exact ((hierarchicalRequest_iff_signable pairConfig_new pairKeySet_dealt.toConsistent sampleSchnorr
    "session" (List.Vector.replicate 32 0) [1, 2]).1).mpr ⟨fun _ => NonZeroScalar.one, _,
      (localSigning_eq_ok sampleSchnorr hc pairKeySet_dealt.toConsistent).mpr
        ⟨pairConfig_quorum, sum_ones_ne_zero, w, hw, rfl⟩⟩

section Grouped

variable {config : GroupedThresholdConfig} {hierarchical : HierarchicalThresholdConfig}
  {keySet : HtssLocalKeySet} {signers : List ParticipantId}

theorem accepted_of_translation
    (h : hierarchicalConfigFromGroupedThreshold config = .ok hierarchical) : hierarchical.Accepted := by
  obtain ⟨required, -, hnew⟩ := bind_eq_ok.mp h
  exact HierarchicalThresholdConfig.accepted_of_new hnew

theorem dealt_of_groupedKeygen {initialSecret : NonZeroScalar} {draws : ℕ → NonZeroScalar}
    (h : runLocalGroupedHtssKeygen config initialSecret draws = .ok keySet) : ∃ hierarchical F,
      hierarchicalConfigFromGroupedThreshold config = .ok hierarchical ∧ keySet.Dealt hierarchical F := by
  obtain ⟨hierarchical, htranslate, hrun⟩ := bind_eq_ok.mp h
  obtain ⟨keySet', F, hkeygen, hdealt⟩ :=
    exists_runLocalHtssKeygen_dealt (accepted_of_translation htranslate) initialSecret draws
  rw [hrun, Except.ok.injEq] at hkeygen
  exact ⟨hierarchical, F, htranslate, hkeygen ▸ hdealt⟩

/-- The signers are a quorum exactly if the code can solve for their coefficients. -/
theorem quorum_iff_solvable (hc : hierarchical.Accepted) : hierarchical.Quorum signers ↔
    ∃ points coefficients, birkhoffPointsFromHierarchicalSignerSet signers hierarchical = .ok points ∧
      birkhoffInterpolationCoefficients points = .ok coefficients := by
  constructor
  · intro hq
    obtain ⟨w, -, hpoints, hcoeff⟩ := hq.exists_weights hc
    exact ⟨_, _, hpoints, hcoeff⟩
  · rintro ⟨points, coefficients, hpoints, hcoeff⟩
    exact HierarchicalThresholdConfig.quorum_of_coefficients hc hpoints hcoeff

/-- The tweaks that `dkgkit-bitcoin` derives for a group key. -/
inductive TweakOf (library : BitcoinLibrary) (groupKey : GroupKey) : TaprootKeyTweak → Prop
  | child {chainCode network path t}
      (h : taprootChildKeyTweak library ⟨groupKey, chainCode⟩ network path = .ok t) : TweakOf library groupKey t
  | silentPaymentOutput {k t} (h : silentPaymentOutputTweak library groupKey k = .ok t) :
      TweakOf library groupKey t
  | silentPaymentLeaf {k t} (h : silentPaymentLeafTweak library groupKey k = .ok t) :
      TweakOf library groupKey t

theorem TweakOf.describes {library : BitcoinLibrary} {groupKey : GroupKey} {t : TaprootKeyTweak}
    (h : TweakOf library groupKey t) {P : Point}
    (hP : pointFromXonlyBytes groupKey.xonlyPublicKey = some P) : t.Describes P := by
  cases h with
  | child h => exact (taprootChildKeyTweak_describes hP h).1
  | silentPaymentOutput h => exact (silentPaymentOutputTweak_describes hP h).1
  | silentPaymentLeaf h => exact (silentPaymentLeafTweak_describes hP h).1

theorem groupedOutputSigning_isOk (htranslate : hierarchicalConfigFromGroupedThreshold config =
      .ok hierarchical) {F : Scalar[X]} (hkeys : keySet.Consistent hierarchical F) (schnorr : Schnorr)
    (digest : Bytes 32) {t : TaprootKeyTweak} (ht : t.Describes (F.eval 0 • generator))
    (rng : ParticipantId → NonZeroScalar) :
    (∃ signature, signDigestWithLocalGroupedHtssThresholdSharesForOutput schnorr keySet.groupKey digest
        t.outputXonly t.tweak t.negateKey keySet.shares signers config rng = .ok signature) ↔
      validateGroupedThresholdSignerSet signers config = .ok () ∧ hierarchical.Quorum signers ∧
        nonceSum rng signers ≠ 0 := by
  have hc := accepted_of_translation htranslate
  obtain ⟨B, hB, houtput⟩ := ht
  simp only [signDigestWithLocalGroupedHtssThresholdSharesForOutput, bind_eq_ok, htranslate,
    Except.ok.injEq, exists_eq_left', ← scalarFromBytes_eq_some.mp hB,
    localOutputSigning_eq_ok schnorr hc hkeys houtput rfl]
  constructor
  · rintro ⟨signature, _, hvalid, hq, hk, -⟩
    exact ⟨hvalid, hq, hk⟩
  · rintro ⟨hvalid, hq, hk⟩
    obtain ⟨w, hw, -, -⟩ := hq.exists_weights hc
    exact ⟨_, (), hvalid, hq, hk, w, hw, rfl⟩

/-- A grouped vault, from its key generation on: the local signer signs for a derived output
exactly if the grouped policy accepts the signers, they are a quorum of the translated policy
and their nonces do not cancel, and then the output key verifies the signature. The key of a
child address is the one printed in its descriptor. -/
theorem groupedVault_signs_iff (library : BitcoinLibrary) {hash : ChallengeHash} {schnorr : Schnorr}
    (himpl : schnorr.Implements hash) {hexDecode : HexDecoder} (hhex : hexDecode.Inverts)
    {initialSecret : NonZeroScalar} {draws : ℕ → NonZeroScalar}
    (hkeygen : runLocalGroupedHtssKeygen config initialSecret draws = .ok keySet) :
    ∃ hierarchical, hierarchicalConfigFromGroupedThreshold config = .ok hierarchical ∧
      (∀ t, TweakOf library keySet.groupKey t → ∀ digest signers rng,
        ((∃ signature, signDigestWithLocalGroupedHtssThresholdSharesForOutput schnorr keySet.groupKey
            digest t.outputXonly t.tweak t.negateKey keySet.shares signers config rng = .ok signature) ↔
          validateGroupedThresholdSignerSet signers config = .ok () ∧
            (∃ points coefficients,
              birkhoffPointsFromHierarchicalSignerSet signers hierarchical = .ok points ∧
                birkhoffInterpolationCoefficients points = .ok coefficients) ∧
            (signers.map fun s => (rng s).val).sum ≠ 0) ∧
        ∀ signature, signDigestWithLocalGroupedHtssThresholdSharesForOutput schnorr keySet.groupKey
            digest t.outputXonly t.tweak t.negateKey keySet.shares signers config rng = .ok signature →
          verifyAggregateSignatureDigest library hash ⟨t.outputXonly, []⟩ digest signature = .ok true) ∧
      ∀ chainCode network path t,
        taprootChildKeyTweak library ⟨keySet.groupKey, chainCode⟩ network path = .ok t →
        ∃ descriptor, taprootChildAddressDescriptorForNetwork library ⟨keySet.groupKey, chainCode⟩
            network path = .ok descriptor ∧
          ∀ digest signers rng signature,
            signDigestWithLocalGroupedHtssThresholdSharesForOutput schnorr keySet.groupKey digest
              t.outputXonly t.tweak t.negateKey keySet.shares signers config rng = .ok signature →
            verifySchnorrDigestHex library hash hexDecode descriptor.xonlyPublicKeyHex (hexText digest.toList)
              (hexText signature.signatureBytes) = .ok true := by
  obtain ⟨hierarchical, F, htranslate, hdealt⟩ := dealt_of_groupedKeygen hkeygen
  have hc := accepted_of_translation htranslate
  refine ⟨hierarchical, htranslate, fun t ht digest signers rng => ⟨?_, fun signature hsign => ?_⟩,
    fun chainCode network path t ht => ?_⟩
  · have hdescribes := ht.describes hdealt.toConsistent.groupKey_point
    rw [groupedOutputSigning_isOk htranslate hdealt.toConsistent schnorr digest hdescribes]
    exact and_congr_right fun _ => and_congr_left fun _ => quorum_iff_solvable hc
  · obtain ⟨P, valid, hkey, hvalid, rfl⟩ := (Returned.groupedForOutput hsign).signatureFor
    exact verifyAggregate_of_valid himpl hkey hvalid
  · obtain ⟨descriptor, parsed, -, hdescriptor, hkey, -⟩ := taprootChildKeyTweak_address ht
    refine ⟨descriptor, hdescriptor, fun digest signers rng signature hsign => ?_⟩
    obtain ⟨P, valid, hP, hvalid, rfl⟩ := (Returned.groupedForOutput hsign).signatureFor
    rw [hkey]
    exact verifySchnorrDigestHex_of_valid himpl hhex hP hvalid

theorem pairGroups_translate : hierarchicalConfigFromGroupedThreshold pairGroups = .ok pairConfig := rfl

theorem pairGroups_keygen : ∃ keySet, runLocalGroupedHtssKeygen pairGroups NonZeroScalar.one
    (fun _ => NonZeroScalar.one) = .ok keySet ∧ keySet.groupKey = generatorKey := by
  have hone : NonZeroScalar.one.val • generator = generator := one_smul Scalar generator
  have hkey : (newKeypair NonZeroScalar.one).publicKey = generator := by
    change (intoPointWithEvenY (NonZeroScalar.one.val • generator)).1 = generator
    rw [hone, intoPointWithEvenY_fst, isOddY_generator]
    rfl
  have hpos : 0 < pairConfig.threshold.toNat := by decide
  have hrun : runLocalHtssKeygen pairConfig NonZeroScalar.one (fun _ => NonZeroScalar.one) =
      .ok ⟨generatorKey, pairConfig.participants.map (derivativeShare (toPolynomial (drawPolynomial
        (newKeypair NonZeroScalar.one).secretKey.val pairConfig.threshold
          fun _ => NonZeroScalar.one)))⟩ := by
    rw [runLocalHtssKeygen, collectShares_drawPolynomial _ hpos, ok_bind, hkey]
    rfl
  rw [runLocalGroupedHtssKeygen, pairGroups_translate, ok_bind, hrun]
  exact ⟨_, rfl, rfl⟩

theorem hexDecode_inverts : HexDecoder.Inverts hexDecode := hexDecode_hexText

theorem groupedVault_signs_iff_pair : ∃ keySet t signature,
    runLocalGroupedHtssKeygen pairGroups NonZeroScalar.one (fun _ => NonZeroScalar.one) = .ok keySet ∧
    taprootChildKeyTweak plainLibrary ⟨keySet.groupKey, List.Vector.replicate 32 0⟩ "bitcoin"
      (.bip86 0 0 0) = .ok t ∧
    signDigestWithLocalGroupedHtssThresholdSharesForOutput sampleSchnorr keySet.groupKey
      (List.Vector.replicate 32 0) t.outputXonly t.tweak t.negateKey keySet.shares [1, 2] pairGroups
      (fun _ => NonZeroScalar.one) = .ok signature ∧
    verifyAggregateSignatureDigest plainLibrary sampleHash ⟨t.outputXonly, []⟩
      (List.Vector.replicate 32 0) signature = .ok true := by
  obtain ⟨keySet, hkeygen, hkey⟩ := pairGroups_keygen
  obtain ⟨t, ht⟩ := taprootChildKeyTweak_plain (List.Vector.replicate 32 0)
  rw [← hkey] at ht
  obtain ⟨hierarchical, htranslate, hsigns, -⟩ := groupedVault_signs_iff plainLibrary
    sampleSchnorr_implements hexDecode_inverts hkeygen
  rw [pairGroups_translate, Except.ok.injEq] at htranslate
  subst htranslate
  obtain ⟨w, -, hpoints, hcoeff⟩ := pairConfig_quorum.exists_weights
    (HierarchicalThresholdConfig.accepted_of_new pairConfig_new)
  obtain ⟨hiff, hverify⟩ := hsigns t (.child ht) (List.Vector.replicate 32 0) [1, 2]
    fun _ => NonZeroScalar.one
  obtain ⟨signature, hsign⟩ := hiff.mpr ⟨rfl, ⟨_, _, hpoints, hcoeff⟩, sum_ones_ne_zero⟩
  exact ⟨keySet, t, signature, hkeygen, ht, hsign, hverify signature hsign⟩

end Grouped

end DkgKit
