import DkgKit.Verification

/-! The local signers of `dkgkit-frost`: they select shares, run one signing round in memory
and aggregate. They succeed exactly on quorums whose nonces do not cancel. -/

open Polynomial BigEndian BirkhoffMatrix LoopRules

namespace DkgKit

section Rounds

variable {config : HierarchicalThresholdConfig} {keySet : HtssLocalKeySet} {F : Scalar[X]}
  {signers : List ParticipantId} {rng : ParticipantId → NonZeroScalar}

theorem exists_members (hc : config.Accepted) (hmem : ∀ s ∈ signers, (config.rankOf s).isSome) :
    ∃ members, members ⊆ config.participants ∧ members.map RankedParticipant.id = signers := by
  induction signers with
  | nil => exact ⟨[], List.nil_subset _, rfl⟩
  | cons s rest ih =>
    rw [List.forall_mem_cons] at hmem
    obtain ⟨members, hsub, hids⟩ := ih hmem.2
    obtain ⟨rank, hrank⟩ := Option.isSome_iff_exists.mp hmem.1
    obtain ⟨p, hp, rfl, -⟩ := hc.rankOf_eq_some.mp hrank
    exact ⟨p :: members, List.cons_subset.mpr ⟨hp, hsub⟩, by rw [List.map_cons, hids]⟩

theorem find?_share (hc : config.Accepted) (hkeys : keySet.Consistent config F)
    {p : RankedParticipant} (hp : p ∈ config.participants) :
    (keySet.shares.find? fun share => share.participantId == p.id) = some (derivativeShare F p) := by
  have hnd : (keySet.shares.map HtssLocalKeyShare.participantId).Nodup := by
    rw [(hkeys.shares_perm.map _).nodup_iff, map_participantId_derivativeShare]
    exact hc.distinct
  have hmem : derivativeShare F p ∈ keySet.shares :=
    hkeys.shares_perm.mem_iff.mpr (List.mem_map_of_mem hp)
  exact find?_of_mem hnd hmem

/-- The nonce that a local signer draws for a participant. -/
def localNonce (session : SessionId) (rng : ParticipantId → NonZeroScalar) (id : ParticipantId) :
    HtssLocalNonce := ⟨honestNonce session rng id, scalarToBytes (rng id).val⟩

/-- With a share for every signer, the local round is one pass of the share signer. -/
theorem signLocally_eq_ok {sessionName : String} (hname : isBlank sessionName = false)
    {shares : List HtssLocalKeyShare} {members : List RankedParticipant}
    (hselect : ∀ p ∈ members, (shares.find? fun share => share.participantId == p.id) =
      some (derivativeShare F p))
    {signShare : HtssLocalKeyShare → HtssLocalNonce → List HtssNoncePackage →
      Result HtssSignatureSharePackage}
    {aggregate : List HtssNoncePackage → List HtssSignatureSharePackage → Result AggregateSignature}
    {signature : AggregateSignature} :
    signLocally sessionName shares (members.map RankedParticipant.id) rng signShare aggregate =
        .ok signature ↔
      ∃ signatureShares, List.Forall₂ (fun p share => signShare (derivativeShare F p)
        (localNonce sessionName rng p.id)
        ((members.map RankedParticipant.id).map (honestNonce sessionName rng)) = .ok share)
          members signatureShares ∧
        aggregate ((members.map RankedParticipant.id).map (honestNonce sessionName rng))
          signatureShares = .ok signature := by
  have hselected : collectResults (fun participantId => okOr (.missingRankedParticipant participantId)
      (shares.find? fun share => share.participantId == participantId))
      (members.map RankedParticipant.id) = .ok (members.map (derivativeShare F)) := by
    rw [collectResults_eq_ok, List.forall₂_map_left_iff, List.forall₂_map_right_iff, List.forall₂_same]
    exact fun p hp => okOr_eq_ok.mpr (hselect p hp)
  have hsession : SessionId.new sessionName = .ok sessionName := by
    rw [SessionId.new, hname]
    rfl
  have hnonces : collectResults (fun share : HtssLocalKeyShare => htssNonce sessionName share
      (rng share.participantId)) (members.map (derivativeShare F)) =
        .ok (members.map fun p => localNonce sessionName rng p.id) := by
    rw [collectResults_eq_ok, List.forall₂_map_left_iff, List.forall₂_map_right_iff, List.forall₂_same]
    exact fun p _ => rfl
  have hpublic : (members.map fun p => localNonce sessionName rng p.id).map HtssLocalNonce.package =
      (members.map RankedParticipant.id).map (honestNonce sessionName rng) := by
    rw [List.map_map, List.map_map]
    rfl
  have hzip : (members.map (derivativeShare F)).zip
      (members.map fun p => localNonce sessionName rng p.id) =
        members.map fun p => (derivativeShare F p, localNonce sessionName rng p.id) :=
    List.zip_map'
  rw [signLocally, hselected, ok_bind, hsession, ok_bind, hnonces, ok_bind]
  dsimp only
  rw [hpublic, hzip]
  simp only [bind_eq_ok, collectResults_eq_ok, List.forall₂_map_left_iff]

variable (schnorr : Schnorr) {xonlyKey digest : Bytes 32} {invalidKey : DkgKitError} {negateKey : Bool}
  {sessionName : String}
  {aggregate : List HtssNoncePackage → List HtssSignatureSharePackage → Result AggregateSignature}

theorem publicNonceSum_honest (session : SessionId) (signers : List ParticipantId) :
    publicNonceSum (signers.map (honestNonce session rng)) = nonceSum rng signers • generator := by
  have h := foldlM_addPublicNonce_eq_sum (foldlM_addPublicNonce session rng signers 0)
  rw [zero_add, zero_add] at h
  exact h.symm

/-- A local round that ends in an aggregator's answer was one of a quorum. -/
theorem quorum_of_signLocally (hc : config.Accepted) (hkeys : keySet.Consistent config F)
    (hname : isBlank sessionName = false)
    (haggregate : ∀ nonces shares signature, aggregate nonces shares = .ok signature →
      ∃ collected, collectSignatureShares nonces shares signers config = .ok collected)
    {signature : AggregateSignature}
    (h : signLocally sessionName keySet.shares signers rng (fun share nonce nonces =>
      signShareUnder schnorr xonlyKey invalidKey negateKey digest share nonce nonces signers config)
      aggregate = .ok signature) : config.Quorum signers ∧ nonceSum rng signers ≠ 0 := by
  obtain ⟨_, _, hresult⟩ := exists_aggregate_of_signLocally h
  obtain ⟨collected, hcollected⟩ := haggregate _ _ _ hresult
  simp only [collectSignatureShares, bind_eq_ok] at hcollected
  obtain ⟨_, hvalid, -⟩ := hcollected
  have hset := (validateHierarchicalSignerSet_eq_ok hc).mp hvalid
  obtain ⟨members, hsub, rfl⟩ := exists_members hc hset.members
  obtain ⟨signatureShares, hsigned, hresult⟩ := (signLocally_eq_ok hname fun p hp =>
    find?_share hc hkeys (hsub hp)).mp h
  constructor
  · -- the first signer has computed the coefficients
    cases members with
    | nil =>
      have hpos := hc.threshold_pos
      have hle := hset.enough
      simp only [List.map_nil, List.length_nil] at hle
      omega
    | cons p rest =>
      obtain ⟨share, _, hsign, -⟩ := List.forall₂_cons_left_iff.mp hsigned
      obtain ⟨-, -, points, hpoints, coefficients, hcoeff, -⟩ := (signShareUnder_eq_ok schnorr).mp hsign
      exact HierarchicalThresholdConfig.quorum_of_coefficients hc hpoints hcoeff
  · obtain ⟨collected, hcollected⟩ := haggregate _ _ _ hresult
    simp only [collectSignatureShares, bind_eq_ok] at hcollected
    obtain ⟨_, -, _, -, _, -, aggregateNonce, hnonce, -⟩ := hcollected
    have hne := (evenPublicNonce_of_ok hnonce).1
    rw [publicNonceSum_honest] at hne
    exact fun h0 => hne (smul_generator_eq_zero.mpr h0)

/-- The quorum's members sign, and the aggregator gets their packages in the order of the set. -/
theorem signLocally_quorum (hc : config.Accepted) (hkeys : keySet.Consistent config F)
    (hq : config.Quorum signers) (hk : nonceSum rng signers ≠ 0) (hname : isBlank sessionName = false)
    {w : ParticipantId → Scalar} (hw : Weights (config.points signers) w) {P : Point}
    (hkey : pointFromXonlyBytes xonlyKey = some P) {signature : AggregateSignature}
    (haggregate : aggregate (signers.map (honestNonce sessionName rng)) (signers.map
      (signaturePackage schnorr config F w sessionName rng signers negateKey P digest)) =
        .ok signature) :
    signLocally sessionName keySet.shares signers rng (fun share nonce nonces =>
      signShareUnder schnorr xonlyKey invalidKey negateKey digest share nonce nonces signers config)
      aggregate = .ok signature := by
  obtain ⟨members, hsub, rfl⟩ := exists_members hc hq.members
  refine (signLocally_eq_ok hname fun p hp => find?_share hc hkeys (hsub hp)).mpr ⟨_, ?_, haggregate⟩
  rw [List.forall₂_map_right_iff, List.forall₂_map_right_iff, List.forall₂_same]
  intro p hp
  exact signShareUnder_eq schnorr hc hq hw hk (List.Perm.refl _) (List.Perm.refl _) hkey _ _ _
    (hsub hp) (List.mem_map_of_mem hp)

end Rounds

section Signers

variable (schnorr : Schnorr) {config : HierarchicalThresholdConfig} {keySet : HtssLocalKeySet}
  {F : Scalar[X]} {signers : List ParticipantId} {rng : ParticipantId → NonZeroScalar}

theorem isBlank_localSession : isBlank "local-htss-threshold-signing" = false ∧
    isBlank "local-htss-threshold-output-signing" = false := by
  decide

theorem localSigning_eq_ok (hc : config.Accepted) (hkeys : keySet.Consistent config F)
    {digest : Bytes 32} {signature : AggregateSignature} :
    signDigestWithLocalHtssThresholdShares schnorr keySet.groupKey digest keySet.shares signers config
        rng = .ok signature ↔
      config.Quorum signers ∧ nonceSum rng signers ≠ 0 ∧ ∃ w, Weights (config.points signers) w ∧
        signature = ⟨(quorumSignature schnorr config F w rng signers digest).toBytes⟩ := by
  have hsign : ∀ {w}, config.Quorum signers → nonceSum rng signers ≠ 0 →
      Weights (config.points signers) w →
      signDigestWithLocalHtssThresholdShares schnorr keySet.groupKey digest keySet.shares signers
        config rng = .ok ⟨(quorumSignature schnorr config F w rng signers digest).toBytes⟩ :=
    fun hq hk hw => signLocally_quorum schnorr hc hkeys hq hk isBlank_localSession.1 hw
      hkeys.groupKey_point (aggregateHtssSignatureShares_eq schnorr hc hkeys hq hw hk
        (List.Perm.refl _) (List.Perm.refl _) (List.Perm.refl _))
  constructor
  · intro h
    obtain ⟨hq, hk⟩ := quorum_of_signLocally schnorr hc hkeys isBlank_localSession.1
      (fun nonces shares signature hresult => by
        obtain ⟨collected, hcollected, -⟩ := bind_eq_ok.mp hresult
        exact ⟨collected, hcollected⟩) h
    obtain ⟨w, hw, -, -⟩ := hq.exists_weights hc
    refine ⟨hq, hk, w, hw, ?_⟩
    rw [hsign hq hk hw] at h
    exact (Except.ok.inj h).symm
  · rintro ⟨hq, hk, w, hw, rfl⟩
    exact hsign hq hk hw

theorem localOutputSigning_eq_ok (hc : config.Accepted) (hkeys : keySet.Consistent config F)
    {digest outputXonly : Bytes 32} {negateKey : Bool} {Q : Point} {B : Scalar}
    (houtput : pointFromXonlyBytes outputXonly = some Q)
    (hQ : conditionalNegate negateKey 1 • (F.eval 0 • generator) + B • generator = Q)
    {signature : AggregateSignature} :
    signDigestWithLocalHtssThresholdSharesForOutput schnorr keySet.groupKey digest outputXonly
        (scalarToBytes B) negateKey keySet.shares signers config rng = .ok signature ↔
      config.Quorum signers ∧ nonceSum rng signers ≠ 0 ∧ ∃ w, Weights (config.points signers) w ∧
        signature = ⟨(outputSignature schnorr config F w rng signers negateKey Q B digest).toBytes⟩ := by
  have hsign : ∀ {w}, config.Quorum signers → nonceSum rng signers ≠ 0 →
      Weights (config.points signers) w →
      signDigestWithLocalHtssThresholdSharesForOutput schnorr keySet.groupKey digest outputXonly
        (scalarToBytes B) negateKey keySet.shares signers config rng =
          .ok ⟨(outputSignature schnorr config F w rng signers negateKey Q B digest).toBytes⟩ :=
    fun hq hk hw => signLocally_quorum schnorr hc hkeys hq hk isBlank_localSession.2 hw houtput
      (aggregateHtssSignatureSharesForOutput_eq schnorr hc hq hw
        (hkeys.degree_lt.trans_le (Nat.cast_le.mpr hq.length_points)) hk houtput hQ
        (List.Perm.refl _) (List.Perm.refl _) (List.Perm.refl _))
  constructor
  · intro h
    obtain ⟨hq, hk⟩ := quorum_of_signLocally schnorr hc hkeys isBlank_localSession.2
      (fun nonces shares signature hresult => by
        obtain ⟨collected, hcollected, -⟩ := bind_eq_ok.mp hresult
        exact ⟨collected, hcollected⟩) h
    obtain ⟨w, hw, -, -⟩ := hq.exists_weights hc
    refine ⟨hq, hk, w, hw, ?_⟩
    rw [hsign hq hk hw] at h
    exact (Except.ok.inj h).symm
  · rintro ⟨hq, hk, w, hw, rfl⟩
    exact hsign hq hk hw

end Signers

end DkgKit
