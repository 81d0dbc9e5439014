import DkgKit.OutputSigning
import DkgKit.SigningSession

/-! Which nonce a signer signs under. The secret nonce comes from the signer, the public ones
from a list; in both protocols the list is searched by participant id only. -/

open BigEndian

namespace DkgKit

section HtssNonces

variable {schnorr : Schnorr} {xonlyKey digest : Bytes 32} {invalidKey : DkgKitError} {negateKey : Bool}
  {localShare : HtssLocalKeyShare} {nonce : HtssLocalNonce} {nonces : List HtssNoncePackage}
  {signerSet : List ParticipantId} {config : HierarchicalThresholdConfig}

structure HtssSignable (xonlyKey : Bytes 32) (localShare : HtssLocalKeyShare) (nonce : HtssLocalNonce)
    (nonces : List HtssNoncePackage) (signerSet : List ParticipantId)
    (config : HierarchicalThresholdConfig) : Prop where
  participant : localShare.participantId = nonce.package.participantId
  member : localShare.participantId ∈ signerSet
  coefficient : ∃ points coefficients coefficient,
    birkhoffPointsFromHierarchicalSignerSet signerSet config = .ok points ∧
    birkhoffInterpolationCoefficients points = .ok coefficients ∧
    (coefficients.find? fun coefficient => coefficient.participantId == localShare.participantId) =
      some coefficient ∧
    localShare.rank = coefficient.derivativeOrder ∧
    (scalarFromBytes coefficient.coefficientBytes).isSome
  aggregate : ∃ aggregate, aggregateHtssPublicNonce nonces signerSet = .ok aggregate ∧
    aggregate.signingSessionId = nonce.package.signingSessionId
  key : (pointFromXonlyBytes xonlyKey).isSome
  secretNonce : (scalarFromBytes nonce.secretNonceBytes).isSome
  shareValue : (scalarFromBytes localShare.shareValueBytes).isSome

theorem signShareUnder_isOk_iff :
    (∃ share, signShareUnder schnorr xonlyKey invalidKey negateKey digest localShare nonce nonces
      signerSet config = .ok share) ↔
      HtssSignable xonlyKey localShare nonce nonces signerSet config := by
  simp only [signShareUnder_eq_ok]
  constructor
  · rintro ⟨share, hparticipant, hmember, points, hpoints, coefficients, hcoefficients, coefficient,
      hfind, hrank, aggregate, haggregate, hsession, key, hkey, secret, hsecret, weight, hweight, value,
      hvalue, -⟩
    exact ⟨hparticipant, hmember, ⟨points, coefficients, coefficient, hpoints, hcoefficients, hfind, hrank,
      by simp [hweight]⟩, ⟨aggregate, haggregate, hsession⟩, by simp [hkey], by simp [hsecret],
      by simp [hvalue]⟩
  · intro h
    obtain ⟨points, coefficients, coefficient, hpoints, hcoefficients, hfind, hrank, hweight⟩ := h.coefficient
    obtain ⟨aggregate, haggregate, hsession⟩ := h.aggregate
    obtain ⟨weight, hweight⟩ := Option.isSome_iff_exists.mp hweight
    obtain ⟨key, hkey⟩ := Option.isSome_iff_exists.mp h.key
    obtain ⟨secret, hsecret⟩ := Option.isSome_iff_exists.mp h.secretNonce
    obtain ⟨value, hvalue⟩ := Option.isSome_iff_exists.mp h.shareValue
    exact ⟨_, h.participant, h.member, points, hpoints, coefficients, hcoefficients, coefficient, hfind,
      hrank, aggregate, haggregate, hsession, key, hkey, secret, hsecret, weight, hweight, value, hvalue,
      rfl⟩

theorem nodup_of_points {points : List BirkhoffPoint}
    (h : birkhoffPointsFromHierarchicalSignerSet signerSet config = .ok points) : signerSet.Nodup := by
  simp only [birkhoffPointsFromHierarchicalSignerSet, validateHierarchicalSignerSet, bind_eq_ok,
    validateSignerSet_eq_ok] at h
  obtain ⟨-, ⟨-, -, -, ⟨-, -, hnd⟩, -⟩, -⟩ := h
  exact hnd

/-- The nonce list of a signable request has one entry for each signer, all of the session
of the signer's own nonce. -/
theorem HtssSignable.nonces_perm (h : HtssSignable xonlyKey localShare nonce nonces signerSet config) :
    (nonces.map HtssNoncePackage.participantId).Perm signerSet ∧
      (nonces.map HtssNoncePackage.participantId).Nodup ∧
      ∀ package ∈ nonces, package.signingSessionId = nonce.package.signingSessionId := by
  obtain ⟨points, _, _, hpoints, -⟩ := h.coefficient
  obtain ⟨aggregate, haggregate, hsession⟩ := h.aggregate
  have hnd := nodup_of_points hpoints
  simp only [aggregateHtssPublicNonce, bind_eq_ok, okOr_eq_ok, ifFail_eq_ok,
    validateHtssNonceSet_eq_ok hnd] at haggregate
  obtain ⟨-, ⟨hperm, hsame⟩, first, hfirst, _, -, -, haggregate⟩ := haggregate
  have hid : first.signingSessionId = nonce.package.signingSessionId := by
    rw [← hsession, ← Except.ok.inj haggregate]
  exact ⟨hperm, hperm.nodup_iff.mpr hnd, fun package hpackage =>
    (hsame package hpackage first (List.mem_of_head? hfirst)).trans hid⟩

/-- No other public nonce stands under the id of the signer. -/
def HtssLocalNonce.OnlyOwn (nonce : HtssLocalNonce) (nonces : List HtssNoncePackage) : Prop :=
  ∀ package ∈ nonces, package.participantId = nonce.package.participantId →
    package.publicNonceBytes = nonce.package.publicNonceBytes

theorem signShareUnder_contains_own_iff :
    (∀ share, signShareUnder schnorr xonlyKey invalidKey negateKey digest localShare nonce nonces
      signerSet config = .ok share → nonce.package ∈ nonces) ↔
      (HtssSignable xonlyKey localShare nonce nonces signerSet config → nonce.OnlyOwn nonces) := by
  constructor
  · intro h hsignable package hpackage hid
    obtain ⟨share, hshare⟩ := signShareUnder_isOk_iff.mpr hsignable
    have heq : package = nonce.package :=
      List.inj_on_of_nodup_map hsignable.nonces_perm.2.1 hpackage (h share hshare) hid
    rw [heq]
  · intro h share hshare
    have hsignable := signShareUnder_isOk_iff.mp ⟨share, hshare⟩
    obtain ⟨hperm, -, hsession⟩ := hsignable.nonces_perm
    obtain ⟨package, hpackage, hid⟩ := List.mem_map.mp (hperm.mem_iff.mpr hsignable.member)
    rw [hsignable.participant] at hid
    have heq : package = nonce.package :=
      calc package = ⟨package.participantId, package.signingSessionId, package.publicNonceBytes⟩ := rfl
        _ = nonce.package := by rw [hid, hsession package hpackage, h hsignable package hpackage hid]
    exact heq ▸ hpackage

end HtssNonces

section FrostNonces

variable {frost : FrostSigner} {session : FrostSigningSession frost} {localShare : LocalKeyShare}
  {nonces : List NoncePackage}

theorem noncesLoop_eq_ok {request : SigningRequest} {map : Scalar → Option frost.Nonce} {len : ℕ}
    {result : (Scalar → Option frost.Nonce) × ℕ}
    (h : noncesLoop frost request nonces map len = .ok result) :
    (∀ nonce ∈ nonces, nonce.signingSessionId = request.sessionId ∧
      map (nonce.participantId.toNat : Scalar) = none) ∧
      (nonces.map NoncePackage.participantId).Nodup := by
  induction nonces generalizing map len with
  | nil => simp
  | cons nonce rest ih =>
    simp only [noncesLoop, participantShareIndex, ifFail_eq_ok, bind_eq_ok, not_not, ne_eq] at h
    obtain ⟨hsession, -, publicNonce, -, index, hindex, hnew, hrest⟩ := h
    obtain ⟨hfresh, hnd⟩ := ih hrest
    split_ifs at hindex
    rw [← Except.ok.inj hindex] at hnew hfresh
    have hnone : map (nonce.participantId.toNat : Scalar) = none := by simpa using hnew
    refine ⟨List.forall_mem_cons.mpr ⟨⟨hsession, hnone⟩, fun other hother => ?_⟩, ?_⟩
    · obtain ⟨hsession', hother'⟩ := hfresh other hother
      by_cases hindex' : (other.participantId.toNat : Scalar) = nonce.participantId.toNat
      · rw [hindex', Function.update_self] at hother'
        cases hother'
      · rw [Function.update_of_ne hindex'] at hother'
        exact ⟨hsession', hother'⟩
    · rw [List.map_cons, List.nodup_cons]
      refine ⟨fun hmem => ?_, hnd⟩
      obtain ⟨other, hother, hid⟩ := List.mem_map.mp hmem
      have hnone' := (hfresh other hother).2
      rw [hid, Function.update_self] at hnone'
      cases hnone'

theorem prepareShare_eq_ok {request : SigningRequest}
    {prepared : List UInt8 × frost.PairedSecretShare × frost.PartySignSession}
    (h : FrostSigningSession.prepareShare request localShare nonces = .ok prepared) :
    (∃ own ∈ nonces, own.participantId = localShare.participantId ∧ prepared.1 = own.publicNonceBytes) ∧
      (∀ nonce ∈ nonces, nonce.signingSessionId = request.sessionId) ∧
      (nonces.map NoncePackage.participantId).Nodup := by
  simp only [FrostSigningSession.prepareShare, noncesToMap, bind_eq_ok, okOr_eq_ok, ifFail_eq_ok] at h
  obtain ⟨own, hown, _, -, _, -, _, ⟨_, hloop, -⟩, _, -, hprepared⟩ := h
  obtain ⟨hsession, hnd⟩ := noncesLoop_eq_ok hloop
  refine ⟨⟨own, List.mem_of_find?_eq_some hown, by simpa using List.find?_some hown, ?_⟩,
    fun nonce hnonce => (hsession nonce hnonce).1, hnd⟩
  rw [← Except.ok.inj hprepared]

/-- What `sign_share` checks of its inputs and of the session, up to the signing operation. -/
structure FrostSigningSession.Signable (session : FrostSigningSession frost) (localShare : LocalKeyShare)
    (nonces : List NoncePackage) : Prop where
  groupKey : localShare.groupKey = session.request.groupKey
  member : localShare.participantId ∈ session.request.signerSet
  signs : ∃ nonce prepared sigShare bytes, session.nonceRuntime = some nonce ∧
    FrostSigningSession.prepareShare session.request localShare nonces = .ok prepared ∧
    frost.sign prepared.2.2 prepared.2.1 nonce = .ok sigShare ∧
    frost.signatureShares.serialize sigShare = .ok bytes

theorem signShare_isOk_iff : (∃ share, (session.signShare localShare nonces).1 = .ok share) ↔
    session.Signable localShare nonces := by
  constructor
  · rintro ⟨share, hshare⟩
    obtain ⟨hkey, hmem, nonce, prepared, sigShare, bytes, hruntime, hprepare, hsign, hbytes, -⟩ :=
      signShare_eq_ok.mp hshare
    exact ⟨hkey, hmem, nonce, prepared, sigShare, bytes, hruntime, hprepare, hsign, hbytes⟩
  · rintro ⟨hkey, hmem, nonce, prepared, sigShare, bytes, hruntime, hprepare, hsign, hbytes⟩
    exact ⟨_, signShare_eq_ok.mpr ⟨hkey, hmem, nonce, prepared, sigShare, bytes, hruntime, hprepare, hsign,
      hbytes, rfl⟩⟩

end FrostNonces

section LastNonce

variable {frost : FrostSigner} {ι : Type} [DecidableEq ι]

def SigningRecord.returnedNonce (i : ι) (record : SigningRecord frost ι) : Option NoncePackage :=
  match record.reply with
  | .nonce (.ok package) => if record.session = i then some package else none
  | _ => none

def SigningRun.lastNonce (run : SigningRun frost ι) (i : ι) : Option NoncePackage :=
  (run.records.filterMap (SigningRecord.returnedNonce i)).getLast?

theorem HeldSince.lastNonce {request : SigningRequest} {run : SigningRun frost ι} {i : ι}
    {pair : frost.NonceKeyPair} {package : NoncePackage} (h : HeldSince request run.records i pair package) :
    run.lastNonce i = some package := by
  obtain ⟨before, record, after, hrecords, hsession, -, hreply, -, -, hafter⟩ := h
  have hrecord : record.returnedNonce i = some package := by
    simp [SigningRecord.returnedNonce, hreply, hsession]
  have hlater : after.filterMap (SigningRecord.returnedNonce i) = [] := by
    rw [List.filterMap_eq_nil_iff]
    intro later hlater
    rw [SigningRecord.returnedNonce]
    split
    case h_1 package' hreply' =>
      exact if_neg fun hi => (hafter later hlater hi).1 package' hreply'
    case h_2 => rfl
  rw [SigningRun.lastNonce, hrecords, List.filterMap_append, List.filterMap_cons_some hrecord, hlater]
  exact List.getLast?_concat

/-- The list entry of the local participant is the package that the session returned last,
and the share carries the public part of the nonce it was signed with. -/
def SignedUnderLast (run : SigningRun frost ι) (i : ι) (localShare : LocalKeyShare)
    (nonces : List NoncePackage) (share : SignatureSharePackage) : Prop :=
  (∃ own ∈ nonces, own.participantId = localShare.participantId ∧ run.lastNonce i = some own) ∧
    ∃ pair, ((run.sessions i).signShare localShare nonces).2.1 = some pair ∧
      frost.nonces.serialize (frost.publicNonce pair) = .ok share.publicNonceBytes

/-- The package that the session returned last is the local participant's, and no other
public nonce stands in the list under its id. -/
def SigningRun.OnlyLast (run : SigningRun frost ι) (i : ι) (localShare : LocalKeyShare)
    (nonces : List NoncePackage) : Prop :=
  ∀ last, run.lastNonce i = some last → last.participantId = localShare.participantId ∧
    ∀ package ∈ nonces, package.participantId = localShare.participantId →
      package.publicNonceBytes = last.publicNonceBytes

theorem signShare_under_last_iff (requests : ι → SigningRequest) (calls : List (ι × SigningCall frost))
    (i : ι) (localShare : LocalKeyShare) (nonces : List NoncePackage) :
    let run := SigningRun.after requests calls
    (∀ share, ((run.sessions i).signShare localShare nonces).1 = .ok share →
      SignedUnderLast run i localShare nonces share) ↔
      ((run.sessions i).Signable localShare nonces → run.OnlyLast i localShare nonces) := by
  intro run
  constructor
  · intro h hsignable last hlast
    obtain ⟨_, prepared, _, _, -, hprepare, -⟩ := hsignable.signs
    obtain ⟨share, hshare⟩ := signShare_isOk_iff.mpr hsignable
    obtain ⟨⟨own, hown, hid, hlast'⟩, -⟩ := h share hshare
    rw [hlast, Option.some_inj] at hlast'
    subst hlast'
    refine ⟨hid, fun package hpackage hpackageId => ?_⟩
    rw [List.inj_on_of_nodup_map (prepareShare_eq_ok hprepare).2.2 hpackage hown (hpackageId.trans hid.symm)]
  · intro h share hshare
    have hsignable := signShare_isOk_iff.mp ⟨share, hshare⟩
    obtain ⟨-, -, pair, prepared, _, _, hruntime, hprepare, -, -, rfl⟩ := signShare_eq_ok.mp hshare
    obtain ⟨⟨own, hown, hid, hbytes⟩, hsession, -⟩ := prepareShare_eq_ok hprepare
    obtain ⟨last, hheld⟩ := after_heldSince requests calls i hruntime
    have hlast : run.lastNonce i = some last := hheld.lastNonce
    obtain ⟨_, _, _, -, -, -, -, hlastSession, hencodes, -⟩ := hheld
    obtain ⟨hlastId, hentries⟩ := h hsignable last hlast
    have hown' := hentries own hown hid
    refine ⟨⟨own, hown, hid, ?_⟩, pair, signShare_signed hshare hruntime, ?_⟩
    · have hsame : own.signingSessionId = last.signingSessionId := by
        rw [hsession own hown, hlastSession, after_request]
      rw [hlast]
      calc some last = some ⟨last.participantId, last.signingSessionId, last.publicNonceBytes⟩ := rfl
        _ = some own := by rw [hlastId, ← hid, ← hsame, ← hown']
    · rw [hencodes, hbytes, hown']

end LastNonce

/-- The share signers of both protocols sign under the signer's own nonce exactly if one of
their checks fails or the entry of the list under the signer's id has the public nonce of
the signer. -/
theorem signer_signs_under_own_nonce_iff (schnorr : Schnorr) (config : HierarchicalThresholdConfig)
    (frost : FrostSigner) {ι : Type} [DecidableEq ι] (requests : ι → SigningRequest) :
    (∀ (groupKey : GroupKey) (digest : Bytes 32) (localShare : HtssLocalKeyShare)
        (nonce : HtssLocalNonce) (nonces : List HtssNoncePackage) (signerSet : List ParticipantId),
      (∀ share, htssSignShare schnorr groupKey digest localShare nonce nonces signerSet config = .ok share →
        nonce.package ∈ nonces) ↔
        (HtssSignable groupKey.xonlyPublicKey localShare nonce nonces signerSet config →
          nonce.OnlyOwn nonces)) ∧
    (∀ (groupKey : GroupKey) (digest outputXonly : Bytes 32) (negateKey : Bool)
        (localShare : HtssLocalKeyShare) (nonce : HtssLocalNonce) (nonces : List HtssNoncePackage)
        (signerSet : List ParticipantId),
      (∀ share, htssSignShareForOutput schnorr groupKey digest outputXonly negateKey localShare nonce nonces
        signerSet config = .ok share → nonce.package ∈ nonces) ↔
        (HtssSignable outputXonly localShare nonce nonces signerSet config → nonce.OnlyOwn nonces)) ∧
    ∀ (calls : List (ι × SigningCall frost)) (i : ι) (localShare : LocalKeyShare)
        (nonces : List NoncePackage),
      let run := SigningRun.after requests calls
      (∀ share, ((run.sessions i).signShare localShare nonces).1 = .ok share →
        SignedUnderLast run i localShare nonces share) ↔
        ((run.sessions i).Signable localShare nonces → run.OnlyLast i localShare nonces) := by
  refine ⟨fun groupKey digest localShare nonce nonces signerSet => ?_,
    fun groupKey digest outputXonly negateKey localShare nonce nonces signerSet => ?_,
    fun calls i localShare nonces => ?_⟩
  · exact signShareUnder_contains_own_iff
  · exact signShareUnder_contains_own_iff
  · exact signShare_under_last_iff requests calls i localShare nonces

section Instances

theorem pair_signable (nonce : HtssLocalNonce) (hid : nonce.package.participantId = 1)
    (hsession : nonce.package.signingSessionId = "session")
    (hsecret : (scalarFromBytes nonce.secretNonceBytes).isSome) :
    HtssSignable pairKeySet.groupKey.xonlyPublicKey (derivativeShare pairPolynomial ⟨1, 0, none⟩) nonce
      ([1, 2].map (honestNonce "session" fun _ => NonZeroScalar.one)) [1, 2] pairConfig := by
  have hc := HierarchicalThresholdConfig.accepted_of_new pairConfig_new
  obtain ⟨w, hw, -, -⟩ := pairConfig_quorum.exists_weights hc
  have hsum : nonceSum (fun _ => NonZeroScalar.one) [1, 2] ≠ 0 := sum_ones_ne_zero
  have hmem : (⟨1, 0, none⟩ : RankedParticipant) ∈ pairConfig.participants := List.mem_cons_self
  have hsigned := @signShareUnder_eq sampleSchnorr pairConfig pairPolynomial _ _ w "session"
    (fun _ => NonZeroScalar.one) _ hc pairConfig_quorum hw hsum (List.Perm.refl _) (List.Perm.refl _) _ _
    pairKeySet_dealt.toConsistent.groupKey_point (.protocol "") false (List.Vector.replicate 32 0) _ hmem
    List.mem_cons_self
  have hhonest := signShareUnder_isOk_iff.mp ⟨_, hsigned⟩
  exact ⟨hid.symm, hhonest.member, hhonest.coefficient, hsession ▸ hhonest.aggregate,
    hhonest.key, hsecret, hhonest.shareValue⟩

end Instances

/-- Participant `1` signs with the nonce `2` although the list says `1` in its name; and a
session that has drawn the nonce `8` signs with it under a list that has its earlier `7`. -/
theorem signers_sign_under_other_nonce :
    (∃ share, htssSignShare sampleSchnorr pairKeySet.groupKey (List.Vector.replicate 32 0)
      (derivativeShare pairPolynomial ⟨1, 0, none⟩)
      ⟨⟨1, "session", (pointToBytes ((2 : Scalar) • generator)).toList⟩, scalarToBytes 2⟩
      ([1, 2].map (honestNonce "session" fun _ => NonZeroScalar.one)) [1, 2] pairConfig = .ok share) ∧
    (⟨1, "session", (pointToBytes ((2 : Scalar) • generator)).toList⟩ : HtssNoncePackage) ∉
      [1, 2].map (honestNonce "session" fun _ => NonZeroScalar.one) ∧
    let run := SigningRun.after (fun _ : Unit => plainRequest)
      [((), .nonce plainShare (7 : plainFrost.Rng)), ((), .nonce plainShare (8 : plainFrost.Rng))]
    run.lastNonce () = some ⟨1, "sign-demo", [8]⟩ ∧
    ∃ share, ((run.sessions ()).signShare plainShare
      [⟨1, "sign-demo", [7]⟩, ⟨2, "sign-demo", [9]⟩]).1 = .ok share ∧ share.publicNonceBytes = [7] := by
  refine ⟨?_, fun hmem => ?_, rfl, ?_⟩
  · exact signShareUnder_isOk_iff.mpr (pair_signable _ rfl rfl (by simp [scalarFromBytes_toBytes]))
  · have hbytes : pointToBytes ((2 : Scalar) • generator) = pointToBytes ((1 : Scalar) • generator) := by
      refine List.Vector.eq _ _ ?_
      simpa [honestNonce, NonZeroScalar.one] using hmem
    have htwo : (1 + 1 : Scalar) = 1 := by
      rw [one_add_one_eq_two]
      exact smul_generator_injective (pointToBytes_injective hbytes)
    exact one_ne_zero (left_eq_add.mp htwo.symm)
  · exact ⟨_, signShare_plain 8 7 9, rfl⟩

end DkgKit
