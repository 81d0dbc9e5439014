import DkgKit.VaultSigning
import Mathlib.Tactic.LinearCombination

/-! HTSS nonces that sign twice. The share signers borrow the nonce and keep no account of its
use, unlike the FROST sessions. What two uses give away of a share and of the group secret. -/

open Polynomial BigEndian BirkhoffMatrix LoopRules

namespace DkgKit

section Equations

variable {K : Type*} [Field K]

/-- The solution of `f.1 * k + f.2 * x = s` and `f'.1 * k + f'.2 * x = s'`, if it is the only one. -/
def solvePair [DecidableEq K] (f f' : K × K) (s s' : K) : Option (K × K) :=
  let det := f.1 * f'.2 - f'.1 * f.2
  if det = 0 then none else some ((s * f'.2 - s' * f.2) / det, (f.1 * s' - f'.1 * s) / det)

theorem solvePair_eq [DecidableEq K] {f f' : K × K} (hdet : f.1 * f'.2 - f'.1 * f.2 ≠ 0) (k x : K) :
    solvePair f f' (f.1 * k + f.2 * x) (f'.1 * k + f'.2 * x) = some (k, x) := by
  have hk : ((f.1 * k + f.2 * x) * f'.2 - (f'.1 * k + f'.2 * x) * f.2) /
      (f.1 * f'.2 - f'.1 * f.2) = k := by
    rw [div_eq_iff hdet]
    ring
  have hx : (f.1 * (f'.1 * k + f'.2 * x) - f'.1 * (f.1 * k + f.2 * x)) /
      (f.1 * f'.2 - f'.1 * f.2) = x := by
    rw [div_eq_iff hdet]
    ring
  simp only [solvePair, if_neg hdet, hk, hx]

/-- Otherwise the second equation is the first one again. -/
theorem second_eq_first {f f' : K × K} (hsign : f.1 * f.1 = 1) (hdet : f.1 * f'.2 - f'.1 * f.2 = 0)
    (k x : K) : f'.1 * k + f'.2 * x = f.1 * f'.1 * (f.1 * k + f.2 * x) := by
  linear_combination (-(f'.1 * k) - f'.2 * x) * hsign + f.1 * x * hdet

end Equations

section Shares

/-- The key that the challenge commits to. -/
inductive SigningKey
  | group (groupKey : GroupKey)
  | output (groupKey : GroupKey) (outputXonly : Bytes 32) (negateKey : Bool)

namespace SigningKey

def xonlyPublicKey : SigningKey → Bytes 32
  | group groupKey => groupKey.xonlyPublicKey
  | output _ outputXonly _ => outputXonly

def negateKey : SigningKey → Bool
  | group _ => false
  | output _ _ negateKey => negateKey

end SigningKey

/-- What everybody in a signing session knows. -/
structure ShareRequest where
  key : SigningKey
  digest : Bytes 32
  nonces : List HtssNoncePackage
  signerSet : List ParticipantId
  config : HierarchicalThresholdConfig

namespace ShareRequest

variable (schnorr : Schnorr)

def sign (request : ShareRequest) (localShare : HtssLocalKeyShare) (nonce : HtssLocalNonce) :
    Result HtssSignatureSharePackage :=
  match request.key with
  | .group groupKey => htssSignShare schnorr groupKey request.digest localShare nonce request.nonces
      request.signerSet request.config
  | .output groupKey outputXonly negateKey => htssSignShareForOutput schnorr groupKey request.digest
      outputXonly negateKey localShare nonce request.nonces request.signerSet request.config

/-- The factors of the secret nonce and of the key share in a participant's signature share,
from what everybody knows. -/
def factors (request : ShareRequest) (participantId : ParticipantId) : Option (Scalar × Scalar) := do
  let points ← (birkhoffPointsFromHierarchicalSignerSet request.signerSet request.config).toOption
  let coefficients ← (birkhoffInterpolationCoefficients points).toOption
  let coefficient ← coefficients.find? fun coefficient => coefficient.participantId == participantId
  let aggregateNonce ← (aggregateHtssPublicNonce request.nonces request.signerSet).toOption
  let publicKey ← pointFromXonlyBytes request.key.xonlyPublicKey
  let challenge := schnorr.challenge aggregateNonce.evenPublicNonce publicKey request.digest
  let coefficientValue ← scalarFromBytes coefficient.coefficientBytes
  some (conditionalNegate aggregateNonce.negated 1,
    conditionalNegate request.key.negateKey challenge * coefficientValue)

variable {schnorr} {request : ShareRequest} {localShare : HtssLocalKeyShare} {nonce : HtssLocalNonce}

theorem sign_eq_signShareUnder (schnorr : Schnorr) (request : ShareRequest)
    (localShare : HtssLocalKeyShare) (nonce : HtssLocalNonce) : ∃ invalidKey,
      request.sign schnorr localShare nonce = signShareUnder schnorr request.key.xonlyPublicKey
        invalidKey request.key.negateKey request.digest localShare nonce request.nonces
        request.signerSet request.config := by
  obtain ⟨key, digest, nonces, signerSet, config⟩ := request
  cases key with
  | group groupKey => exact ⟨_, rfl⟩
  | output groupKey outputXonly negateKey => exact ⟨_, rfl⟩

/-- A signature share is a combination of the two secrets with public factors. -/
theorem factors_of_sign {share : HtssSignatureSharePackage}
    (h : request.sign schnorr localShare nonce = .ok share) : ∃ f k x,
      request.factors schnorr localShare.participantId = some f ∧ f.1 * f.1 = 1 ∧
      scalarFromBytes nonce.secretNonceBytes = some k ∧
      scalarFromBytes localShare.shareValueBytes = some x ∧
      share.signatureShareBytes = scalarToBytes (f.1 * k + f.2 * x) := by
  obtain ⟨invalidKey, hunder⟩ := sign_eq_signShareUnder schnorr request localShare nonce
  rw [hunder] at h
  obtain ⟨-, -, points, hpoints, coefficients, hcoeff, coefficient, hfind, -, aggregate, haggregate, -,
    publicKey, hkey, k, hk, c, hc, x, hx, rfl⟩ := (signShareUnder_eq_ok schnorr).mp h
  refine ⟨(conditionalNegate aggregate.negated 1, conditionalNegate request.key.negateKey
    (schnorr.challenge aggregate.evenPublicNonce publicKey request.digest) * c), k, x, ?_, ?_, hk, hx, ?_⟩
  · simp only [factors, hpoints, hcoeff, hfind, haggregate, hkey, hc, Except.toOption, bind,
      Option.bind_some]
  · cases aggregate.negated <;> simp [conditionalNegate]
  · dsimp only
    rw [conditionalNegate_eq_mul aggregate.negated k, mul_assoc]

variable {config : HierarchicalThresholdConfig} {signers : List ParticipantId}
  {w : ParticipantId → Scalar} {session : SessionId} {k : ParticipantId → NonZeroScalar}

/-- The factors in a session of a quorum. -/
theorem factors_of_quorum (schnorr : Schnorr) (hc : config.Accepted) (hq : config.Quorum signers)
    (hw : Weights (config.points signers) w) (hk : nonceSum k signers ≠ 0) {key : SigningKey} {P : Point}
    (hP : pointFromXonlyBytes key.xonlyPublicKey = some P) (digest : Bytes 32) {signer : ParticipantId}
    (hs : signer ∈ signers) :
    factors schnorr ⟨key, digest, signers.map (honestNonce session k), signers, config⟩ signer =
      some (conditionalNegate (isOddY (nonceSum k signers • generator)) 1,
        conditionalNegate key.negateKey (schnorr.challenge
          (intoPointWithEvenY (nonceSum k signers • generator)).1 P digest) * w signer) := by
  obtain ⟨w', hw', hpoints, hcoeff⟩ := hq.exists_weights hc
  have hweight : w' signer = w signer := hw'.unique hw (List.Perm.refl _) hq.det_ne_zero
    (List.mem_map_of_mem hs : config.point signer ∈ config.points signers)
  have hnonce := aggregateHtssPublicNonce_eq session k hq.distinct (List.Perm.refl signers)
    (List.Perm.refl _) hk
  have hfind := @find?_coefficientOf config signers w' signer hs
  have hvalue : scalarFromBytes (coefficientOf w' (config.point signer)).coefficientBytes =
      some (w signer) := by
    rw [coefficientOf, scalarFromBytes_toBytes]
    exact congrArg some hweight
  simp only [factors, hpoints, hcoeff, hfind, hnonce, hP, hvalue, Except.toOption, bind,
    Option.bind_some]

end ShareRequest

/-- Two signature shares of one participant under one nonce, in any two sessions. Where the
public factors differ enough, the two give away the nonce and the key share; otherwise the second
is the first up to a known sign. -/
theorem reusedNonce_reveals_share {schnorr : Schnorr} {request request' : ShareRequest}
    {localShare : HtssLocalKeyShare} {nonce : HtssLocalNonce} {share share' : HtssSignatureSharePackage}
    (h : request.sign schnorr localShare nonce = .ok share)
    (h' : request'.sign schnorr localShare nonce = .ok share') : ∃ f f' k x s s',
      request.factors schnorr localShare.participantId = some f ∧
      request'.factors schnorr localShare.participantId = some f' ∧
      scalarFromBytes nonce.secretNonceBytes = some k ∧
      scalarFromBytes localShare.shareValueBytes = some x ∧
      scalarFromBytes share.signatureShareBytes = some s ∧
      scalarFromBytes share'.signatureShareBytes = some s' ∧
      ((f.1 * f'.2 - f'.1 * f.2 ≠ 0 ∧ solvePair f f' s s' = some (k, x)) ∨
        (f.1 * f'.2 - f'.1 * f.2 = 0 ∧ solvePair f f' s s' = none ∧ s' = f.1 * f'.1 * s)) := by
  obtain ⟨f, k, x, hf, hsign, hk, hx, hs⟩ := ShareRequest.factors_of_sign h
  obtain ⟨f', k', x', hf', -, hk', hx', hs'⟩ := ShareRequest.factors_of_sign h'
  obtain rfl : k' = k := Option.some.inj (hk'.symm.trans hk)
  obtain rfl : x' = x := Option.some.inj (hx'.symm.trans hx)
  refine ⟨f, f', k', x', _, _, hf, hf', hk, hx, by rw [hs, scalarFromBytes_toBytes],
    by rw [hs', scalarFromBytes_toBytes], ?_⟩
  by_cases hdet : f.1 * f'.2 - f'.1 * f.2 = 0
  · refine .inr ⟨hdet, ?_, second_eq_first hsign hdet k' x'⟩
    rw [solvePair, if_pos hdet]
  · exact .inl ⟨hdet, solvePair_eq hdet k' x'⟩

/-- Two messages, zero and one, in the session of the pair. -/
noncomputable def pairRequest (message : Scalar) : ShareRequest :=
  ⟨.group pairKeySet.groupKey, scalarToBytes message,
    [1, 2].map (honestNonce "session" fun _ => NonZeroScalar.one), [1, 2], pairConfig⟩

theorem sampleSchnorr_challenge_sub (R P : Point) : sampleSchnorr.challenge R P (scalarToBytes 1) -
    sampleSchnorr.challenge R P (scalarToBytes 0) = 1 := by
  have hone : (1 : Scalar).val = 1 := ZMod.val_one groupOrder
  simp only [sampleSchnorr, decode_scalarToBytes, ZMod.val_zero, hone, Nat.cast_add, Nat.cast_one,
    Nat.cast_zero]
  ring

theorem pair_weight_one {w : ParticipantId → Scalar} (hw : Weights (pairConfig.points [1, 2]) w) :
    w 1 = 1 := by
  have hrecover := hw 1 (by rw [degree_one]; exact_mod_cast Nat.succ_pos 1)
  simpa [HierarchicalThresholdConfig.points, HierarchicalThresholdConfig.point,
    HierarchicalThresholdConfig.rankOf, findRank, pairConfig, eq_comm] using hrecover

theorem reusedNonce_reveals_share_pair : ∃ share share' f f' s s' k x,
    (pairRequest 0).sign sampleSchnorr (derivativeShare pairPolynomial ⟨1, 0, none⟩)
      (localNonce "session" (fun _ => NonZeroScalar.one) 1) = .ok share ∧
    (pairRequest 1).sign sampleSchnorr (derivativeShare pairPolynomial ⟨1, 0, none⟩)
      (localNonce "session" (fun _ => NonZeroScalar.one) 1) = .ok share' ∧
    (pairRequest 0).factors sampleSchnorr 1 = some f ∧ (pairRequest 1).factors sampleSchnorr 1 = some f' ∧
    scalarFromBytes share.signatureShareBytes = some s ∧
    scalarFromBytes share'.signatureShareBytes = some s' ∧ solvePair f f' s s' = some (k, x) ∧
    scalarFromBytes (derivativeShare pairPolynomial ⟨1, 0, none⟩).shareValueBytes = some x := by
  have hc := HierarchicalThresholdConfig.accepted_of_new pairConfig_new
  have hP := pairKeySet_dealt.toConsistent.groupKey_point
  have hk : nonceSum (fun _ => NonZeroScalar.one) ([1, 2] : List ParticipantId) ≠ 0 := sum_ones_ne_zero
  obtain ⟨w, hw, -, -⟩ := pairConfig_quorum.exists_weights hc
  have hsign : ∀ message, ∃ share, (pairRequest message).sign sampleSchnorr
      (derivativeShare pairPolynomial ⟨1, 0, none⟩)
      (localNonce "session" (fun _ => NonZeroScalar.one) 1) = .ok share := fun message =>
    ⟨_, signShareUnder_eq sampleSchnorr hc pairConfig_quorum hw hk (List.Perm.refl _)
      (List.Perm.refl _) hP _ false (scalarToBytes message)
      (by decide : (⟨1, 0, none⟩ : RankedParticipant) ∈ pairConfig.participants) (by decide)⟩
  obtain ⟨share, hshare⟩ := hsign 0
  obtain ⟨share', hshare'⟩ := hsign 1
  obtain ⟨f, f', k, x, s, s', hf, hf', -, hx, hs, hs', hcases⟩ :=
    reusedNonce_reveals_share hshare hshare'
  rcases hcases with ⟨-, hsolve⟩ | ⟨hdet, -⟩
  · exact ⟨share, share', f, f', s, s', k, x, hshare, hshare', hf, hf', hs, hs', hsolve, hx⟩
  · have hfactors : ∀ message, (pairRequest message).factors sampleSchnorr 1 = _ := fun message =>
      @ShareRequest.factors_of_quorum pairConfig [1, 2] w "session" _ sampleSchnorr hc pairConfig_quorum hw
        hk (.group pairKeySet.groupKey) _ hP (scalarToBytes message) 1 (by decide)
    obtain rfl := Option.some.inj (hf.symm.trans (hfactors 0))
    obtain rfl := Option.some.inj (hf'.symm.trans (hfactors 1))
    have hsub := sampleSchnorr_challenge_sub (intoPointWithEvenY (nonceSum (fun _ =>
      NonZeroScalar.one) ([1, 2] : List ParticipantId) • generator)).1 (pairPolynomial.eval 0 • generator)
    simp only [pair_weight_one hw, mul_one, ← mul_sub, SigningKey.negateKey, conditionalNegate,
      Bool.false_eq_true, if_false, hsub] at hdet
    split_ifs at hdet <;> simp at hdet

end Shares

section Aggregates

/-- The secret key from two signatures with one nonce, if their challenges differ. -/
def secretFromSignatures (hash : ChallengeHash) (xonlyPublicKey digest digest' : Bytes 32)
    (signature signature' : Bytes 64) : Option Scalar := do
  let s ← scalarFromBytes (rightHalf signature)
  let s' ← scalarFromBytes (rightHalf signature')
  let challenge := hash (leftHalf signature) xonlyPublicKey digest
  let challenge' := hash (leftHalf signature') xonlyPublicKey digest'
  if challenge = challenge' then none else some ((s - s') / (challenge - challenge'))

variable {hash : ChallengeHash} {schnorr : Schnorr}

theorem Signature.Valid.secret_eq {signature signature' : Signature} {secret : Scalar}
    {digest digest' : Bytes 32} (h : signature.Valid schnorr (secret • generator) digest)
    (h' : signature'.Valid schnorr (secret • generator) digest') (hR : signature'.R = signature.R) :
    signature.s - signature'.s = (schnorr.challenge signature.R (secret • generator) digest -
      schnorr.challenge signature.R (secret • generator) digest') * secret := by
  have hequation := h'.equation
  rw [hR] at hequation
  apply smul_generator_injective
  dsimp only
  rw [sub_smul, h.equation, hequation, add_sub_add_left_eq_sub, ← sub_smul, mul_smul]

/-- Two aggregates over the same nonces, in any order, from any shares and under any policies.
Anybody computes the group secret from their bytes if their challenges differ; if not, they are
the same bytes. -/
theorem reusedNonces_reveal_secret (himpl : schnorr.Implements hash) {groupKey : GroupKey}
    {secret : Scalar} (hkey : pointFromXonlyBytes groupKey.xonlyPublicKey = some (secret • generator))
    {digest digest' : Bytes 32} {nonces nonces' : List HtssNoncePackage} (hperm : nonces'.Perm nonces)
    {shares shares' : List HtssSignatureSharePackage} {signerSet signerSet' : List ParticipantId}
    {config config' : HierarchicalThresholdConfig} {aggregate aggregate' : AggregateSignature}
    (h : aggregateHtssSignatureShares schnorr groupKey digest nonces shares signerSet config =
      .ok aggregate)
    (h' : aggregateHtssSignatureShares schnorr groupKey digest' nonces' shares' signerSet' config' =
      .ok aggregate') : ∃ bytes bytes' : Bytes 64,
        bytes.toList = aggregate.signatureBytes ∧ bytes'.toList = aggregate'.signatureBytes ∧
        leftHalf bytes' = leftHalf bytes ∧
        ((hash (leftHalf bytes) groupKey.xonlyPublicKey digest =
            hash (leftHalf bytes) groupKey.xonlyPublicKey digest' ∧ bytes' = bytes) ∨
          (hash (leftHalf bytes) groupKey.xonlyPublicKey digest ≠
            hash (leftHalf bytes) groupKey.xonlyPublicKey digest' ∧
          secretFromSignatures hash groupKey.xonlyPublicKey digest digest' bytes bytes' =
            some secret)) := by
  obtain ⟨P, valid, hP, hsum, rfl⟩ := aggregated_of_ok h
  obtain ⟨P', valid', hP', hsum', rfl⟩ := aggregated_of_ok h'
  obtain rfl : P = secret • generator := Option.some.inj (hP.symm.trans hkey)
  obtain rfl : P' = secret • generator := Option.some.inj (hP'.symm.trans hkey)
  have hR : valid'.R = valid.R := by
    have hnonces : publicNonceSum nonces' = publicNonceSum nonces := (hperm.map _).sum_eq
    rw [hsum'.nonce, hsum.nonce, hnonces]
  have hsecret := hsum.valid.secret_eq hsum'.valid hR
  have hx : pointToXonlyBytes (secret • generator) = groupKey.xonlyPublicKey :=
    (pointFromXonlyBytes_eq_some.mp hkey).2.1
  rw [himpl, himpl, hx] at hsecret
  let bytes : Bytes 64 := ⟨valid.toBytes, length_toBytes valid⟩
  let bytes' : Bytes 64 := ⟨valid'.toBytes, length_toBytes valid'⟩
  obtain ⟨hleft, hright⟩ : leftHalf bytes = pointToXonlyBytes valid.R ∧
      rightHalf bytes = scalarToBytes valid.s := halves_of_append rfl
  obtain ⟨hleft', hright'⟩ : leftHalf bytes' = pointToXonlyBytes valid'.R ∧
      rightHalf bytes' = scalarToBytes valid'.s := halves_of_append rfl
  refine ⟨bytes, bytes', rfl, rfl, by rw [hleft, hleft', hR], ?_⟩
  rw [← hleft] at hsecret
  by_cases hsame : hash (leftHalf bytes) groupKey.xonlyPublicKey digest =
      hash (leftHalf bytes) groupKey.xonlyPublicKey digest'
  · refine .inl ⟨hsame, ?_⟩
    have hs : valid'.s = valid.s := by
      rw [hsame, sub_self, zero_mul, sub_eq_zero] at hsecret
      exact hsecret.symm
    apply Subtype.ext
    change valid'.toBytes = valid.toBytes
    rw [Signature.toBytes, Signature.toBytes, hR, hs]
  · refine .inr ⟨hsame, ?_⟩
    have hdiff := sub_ne_zero.mpr hsame
    have hsame' : ¬hash (leftHalf bytes) groupKey.xonlyPublicKey digest =
        hash (leftHalf bytes') groupKey.xonlyPublicKey digest' := by
      rwa [hleft', hR, ← hleft]
    simp only [secretFromSignatures, hright, hright', scalarFromBytes_toBytes, bind,
      Option.bind_some, if_neg hsame']
    rw [hleft', hR, ← hleft, hsecret, mul_div_cancel_left₀ _ hdiff]

theorem reusedNonces_reveal_secret_pair : ∃ shares shares' aggregate aggregate', ∃ bytes bytes' : Bytes 64,
    aggregateHtssSignatureShares sampleSchnorr pairKeySet.groupKey (scalarToBytes 0)
      ([1, 2].map (honestNonce "session" fun _ => NonZeroScalar.one)) shares [1, 2] pairConfig =
        .ok aggregate ∧
    aggregateHtssSignatureShares sampleSchnorr pairKeySet.groupKey (scalarToBytes 1)
      ([1, 2].map (honestNonce "session" fun _ => NonZeroScalar.one)) shares' [1, 2] pairConfig =
        .ok aggregate' ∧
    bytes.toList = aggregate.signatureBytes ∧ bytes'.toList = aggregate'.signatureBytes ∧
    secretFromSignatures sampleHash pairKeySet.groupKey.xonlyPublicKey (scalarToBytes 0) (scalarToBytes 1)
      bytes bytes' = some (pairPolynomial.eval 0) := by
  have hc := HierarchicalThresholdConfig.accepted_of_new pairConfig_new
  have hP := pairKeySet_dealt.toConsistent.groupKey_point
  have hround : ∀ digest, ∃ shares aggregate, aggregateHtssSignatureShares sampleSchnorr
      pairKeySet.groupKey digest ([1, 2].map (honestNonce "session" fun _ => NonZeroScalar.one)) shares
        [1, 2] pairConfig = .ok aggregate := by
    intro digest
    obtain ⟨P, share, signature, reconstructed, hround⟩ := pairConfig_quorum.signingRound sampleSchnorr
      hc pairKeySet_dealt.toConsistent digest "session" (k := fun _ => NonZeroScalar.one) sum_ones_ne_zero
    exact ⟨_, _, hround.aggregates [1, 2] _ ([1, 2].map share) (List.Perm.refl _) (List.Perm.refl _)
      (List.Perm.refl _)⟩
  obtain ⟨shares, aggregate, h⟩ := hround (scalarToBytes 0)
  obtain ⟨shares', aggregate', h'⟩ := hround (scalarToBytes 1)
  obtain ⟨bytes, bytes', hbytes, hbytes', -, hcases⟩ := reusedNonces_reveal_secret
    sampleSchnorr_implements hP (List.Perm.refl _) h h'
  refine ⟨shares, shares', aggregate, aggregate', bytes, bytes', h, h', hbytes, hbytes', ?_⟩
  rcases hcases with ⟨hsame, -⟩ | ⟨-, hsecret⟩
  · exfalso
    have hone : (1 : Scalar).val = 1 := ZMod.val_one groupOrder
    simp [sampleHash, decode_scalarToBytes, hone] at hsame
  · exact hsecret

end Aggregates

end DkgKit
