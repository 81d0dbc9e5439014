import DkgKit.Taproot

/-! Verification of signatures in `dkgkit-bitcoin`, and what the signers of `dkgkit-frost`
return under it. The challenge hash of BIP340 is a parameter. -/

open Polynomial BigEndian LoopRules

namespace DkgKit

section Verify

/-- The tagged hash `BIP0340/challenge` of a nonce, a key and a message, as a scalar. -/
abbrev ChallengeHash := Bytes 32 → Bytes 32 → Bytes 32 → Scalar

/-- `verify_schnorr` of `secp256k1`. -/
def secpVerifySchnorr (hash : ChallengeHash) (signature : Bytes 64) (message : Bytes 32)
    (publicKey : SecpXOnlyPublicKey) : Bool :=
  match scalarFromBytes (rightHalf signature) with
  | none => false
  | some s =>
    let R := s • generator - hash (leftHalf signature) publicKey.serialize message • publicKey.point
    R ≠ 0 ∧ isOddY R = false ∧ pointToXonlyBytes R = leftHalf signature

variable (library : BitcoinLibrary) (hash : ChallengeHash)

/-- Any 64 bytes parse as a signature. -/
def verifySchnorrDigest (xonlyPublicKey digest : Bytes 32) (signature : Bytes 64) :
    AnyhowResult Bool := do
  let publicKey ← mapErr library "invalid x-only public key"
    (SecpXOnlyPublicKey.fromSlice xonlyPublicKey)
  .ok (secpVerifySchnorr hash signature digest publicKey)

def verifyAggregateSignatureDigest (groupKey : GroupKey) (digest : Bytes 32)
    (signature : AggregateSignature) : AnyhowResult Bool := do
  let signatureBytes ← okOrElse "aggregate signature must be exactly 64 bytes"
    (asArray 64 signature.signatureBytes)
  verifySchnorrDigest library hash groupKey.xonlyPublicKey digest signatureBytes

/-- `decode` of the `hex` crate, without the text of its error. -/
abbrev HexDecoder := String → Option (List UInt8)

/-- What `hex::encode` writes is decoded again. -/
def HexDecoder.Inverts (hexDecode : HexDecoder) : Prop := ∀ bytes, hexDecode (hexText bytes) = some bytes

variable (hexDecode : HexDecoder)

/-- Text that must be hex, of a fixed length. -/
def hexArray (n : ℕ) (notHex wrongLength : String) (text : String) : AnyhowResult (Bytes n) := do
  let bytes ← okOrElse notHex (hexDecode text)
  okOrElse wrongLength (asArray n bytes)

def parseXonlyPublicKeyHex (text : String) : AnyhowResult (Bytes 32) :=
  hexArray hexDecode 32 "x-only public key must be hex" "x-only public key must be exactly 32 bytes" text

def verifySchnorrDigestHex (xonlyPublicKeyHex digestHex signatureHex : String) :
    AnyhowResult Bool := do
  let publicKey ← parseXonlyPublicKeyHex hexDecode xonlyPublicKeyHex
  let digest ← hexArray hexDecode 32 "digest must be hex" "digest must be exactly 32 bytes" digestHex
  let signature ← hexArray hexDecode 64 "signature must be hex" "signature must be exactly 64 bytes"
    signatureHex
  verifySchnorrDigest library hash publicKey digest signature

end Verify

section Equation

variable {library : BitcoinLibrary} {hash : ChallengeHash} {schnorr : Schnorr}

/-- The scheme that signs takes its challenges from the hash of the verifier. -/
def Schnorr.Implements (schnorr : Schnorr) (hash : ChallengeHash) : Prop :=
  ∀ R P message, schnorr.challenge R P message =
    hash (pointToXonlyBytes R) (pointToXonlyBytes P) message

theorem toList_halves (bytes : Bytes 64) :
    bytes.toList = (leftHalf bytes).toList ++ (rightHalf bytes).toList :=
  (List.take_append_drop 32 bytes.toList).symm

theorem halves_of_append {bytes : Bytes 64} {left right : Bytes 32}
    (h : bytes.toList = left.toList ++ right.toList) : leftHalf bytes = left ∧ rightHalf bytes = right := by
  have hlen : left.toList.length = 32 := left.toList_length
  constructor
  · apply Subtype.ext
    change bytes.toList.take 32 = left.toList
    rw [h, List.take_left' hlen]
  · apply Subtype.ext
    change bytes.toList.drop 32 = right.toList
    rw [h, List.drop_left' hlen]

/-- 64 bytes verify exactly if they are the bytes of a signature that satisfies the equation. -/
theorem secpVerifySchnorr_iff (himpl : schnorr.Implements hash) {bytes : Bytes 64} {message : Bytes 32}
    {publicKey : SecpXOnlyPublicKey} : secpVerifySchnorr hash bytes message publicKey = true ↔
      ∃ signature : Signature, bytes.toList = signature.toBytes ∧
        signature.Valid schnorr publicKey.point message := by
  constructor
  · intro h
    rw [secpVerifySchnorr] at h
    split at h
    · cases h
    · next s hs =>
      simp only [decide_eq_true_eq] at h
      obtain ⟨hne, heven, hx⟩ := h
      refine ⟨⟨_, s⟩, ?_, hne, heven, ?_⟩
      · rw [Signature.toBytes, hx, scalarFromBytes_eq_some.mp hs]
        exact toList_halves bytes
      · rw [himpl, hx]
        exact (sub_add_cancel _ _).symm
  · rintro ⟨⟨R, s⟩, hbytes, hne, heven, hequation⟩
    obtain ⟨hleft, hright⟩ := halves_of_append hbytes
    have hR : s • generator -
        hash (pointToXonlyBytes R) publicKey.serialize message • publicKey.point = R := by
      rw [himpl] at hequation
      rw [hequation]
      exact add_sub_cancel_right _ _
    rw [secpVerifySchnorr, hright, scalarFromBytes_toBytes, hleft]
    simp [hR, hne, heven]

theorem verifySchnorrDigest_eq_true (himpl : schnorr.Implements hash) {xonlyPublicKey digest : Bytes 32}
    {bytes : Bytes 64} : verifySchnorrDigest library hash xonlyPublicKey digest bytes = .ok true ↔
      ∃ P, pointFromXonlyBytes xonlyPublicKey = some P ∧ ∃ signature : Signature,
        bytes.toList = signature.toBytes ∧ signature.Valid schnorr P digest := by
  simp only [verifySchnorrDigest, except_bind_eq_ok, mapErr_eq_ok, SecpXOnlyPublicKey.fromSlice_eq_ok,
    Except.ok.injEq, secpVerifySchnorr_iff himpl]
  constructor
  · rintro ⟨publicKey, hkey, hvalid⟩
    exact ⟨publicKey.point, hkey, hvalid⟩
  · rintro ⟨P, hP, hvalid⟩
    obtain ⟨hne, -, heven⟩ := pointFromXonlyBytes_eq_some.mp hP
    exact ⟨⟨P, hne, heven⟩, hP, hvalid⟩

theorem length_toBytes (signature : Signature) : signature.toBytes.length = 64 := by
  simp [Signature.toBytes]

theorem verifyAggregate_of_valid (himpl : schnorr.Implements hash) {groupKey : GroupKey} {P : Point}
    (hP : pointFromXonlyBytes groupKey.xonlyPublicKey = some P) {signature : Signature}
    {digest : Bytes 32} (hvalid : signature.Valid schnorr P digest) :
    verifyAggregateSignatureDigest library hash groupKey digest ⟨signature.toBytes⟩ = .ok true := by
  have harray : asArray 64 signature.toBytes = some ⟨signature.toBytes, length_toBytes signature⟩ :=
    asArray_eq_some.mpr rfl
  rw [verifyAggregateSignatureDigest]
  simp only [harray]
  exact (verifySchnorrDigest_eq_true himpl).mpr ⟨P, hP, signature, rfl, hvalid⟩

/-- Of a signature under one key and for one message, the nonce determines the rest. -/
theorem Signature.Valid.unique {signature signature' : Signature} {P : Point} {digest : Bytes 32}
    (h : signature.Valid schnorr P digest) (h' : signature'.Valid schnorr P digest)
    (hR : signature.R = signature'.R) : signature = signature' := by
  have hs : signature.s • generator = signature'.s • generator := by
    rw [h.equation, h'.equation, hR]
  obtain ⟨R, s⟩ := signature
  obtain ⟨R', s'⟩ := signature'
  obtain rfl : R = R' := hR
  obtain rfl : s = s' := smul_generator_injective hs
  rfl

end Equation

section Aggregates

variable {schnorr : Schnorr} {nonces nonces' : List HtssNoncePackage}
  {shares : List HtssSignatureSharePackage} {signerSet : List ParticipantId}
  {config : HierarchicalThresholdConfig}

def HtssNoncePackage.publicNonce (nonce : HtssNoncePackage) : Point :=
  ((asArray 33 nonce.publicNonceBytes).bind pointFromBytes).getD 0

def HtssSignatureSharePackage.value (share : HtssSignatureSharePackage) : Scalar :=
  (scalarFromBytes share.signatureShareBytes).getD 0

def publicNonceSum (nonces : List HtssNoncePackage) : Point :=
  (nonces.map HtssNoncePackage.publicNonce).sum

theorem foldlM_addPublicNonce_eq_sum {start aggregate : Point}
    (h : nonces.foldlM addPublicNonce start = .ok aggregate) :
    aggregate = start + publicNonceSum nonces := by
  induction nonces generalizing start with
  | nil => simpa [publicNonceSum, eq_comm, pure, Except.pure] using h
  | cons nonce rest ih =>
    rw [List.foldlM_cons, bind_eq_ok] at h
    obtain ⟨next, hstep, hrest⟩ := h
    simp only [addPublicNonce, noncePublicNonceBytes, bind_eq_ok, okOr_eq_ok] at hstep
    obtain ⟨bytes, hbytes, P, hP, hnext⟩ := hstep
    have hvalue : nonce.publicNonce = P := by
      rw [HtssNoncePackage.publicNonce, hbytes, Option.bind_some, hP, Option.getD_some]
    have hsum : publicNonceSum (nonce :: rest) = nonce.publicNonce + publicNonceSum rest :=
      List.sum_cons
    rw [ih hrest, ← Except.ok.inj hnext, hsum, hvalue, add_assoc]

/-- The aggregate nonce is the even point of the sum, whatever the order of the nonces. -/
theorem evenPublicNonce_of_ok {aggregate : AggregateHtssNonce}
    (h : aggregateHtssPublicNonce nonces signerSet = .ok aggregate) : publicNonceSum nonces ≠ 0 ∧
      aggregate.evenPublicNonce = (intoPointWithEvenY (publicNonceSum nonces)).1 := by
  simp only [aggregateHtssPublicNonce, bind_eq_ok, okOr_eq_ok, ifFail_eq_ok, Except.ok.injEq] at h
  obtain ⟨_, -, first, -, sum, hsum, hne, rfl⟩ := h
  rw [foldlM_addPublicNonce_eq_sum hsum, zero_add] at hne ⊢
  exact ⟨hne, rfl⟩

theorem foldlM_addSignatureShare_eq_sum {start s : Scalar}
    (h : shares.foldlM addSignatureShare start = .ok s) :
    s = start + (shares.map HtssSignatureSharePackage.value).sum ∧
      ∀ share ∈ shares, scalarToBytes share.value = share.signatureShareBytes := by
  induction shares generalizing start with
  | nil => simpa [eq_comm, pure, Except.pure] using h
  | cons share rest ih =>
    rw [List.foldlM_cons, bind_eq_ok] at h
    obtain ⟨next, hstep, hrest⟩ := h
    simp only [addSignatureShare, bind_eq_ok, okOr_eq_ok, Except.ok.injEq] at hstep
    obtain ⟨v, hv, rfl⟩ := hstep
    obtain ⟨hs, hall⟩ := ih hrest
    have hvalue : share.value = v := by
      rw [HtssSignatureSharePackage.value, hv, Option.getD_some]
    refine ⟨?_, List.forall_mem_cons.mpr ⟨?_, hall⟩⟩
    · rw [hs, List.map_cons, List.sum_cons, hvalue, add_assoc]
    · rw [hvalue]
      exact scalarFromBytes_eq_some.mp hv

/-- What both aggregators verify, for the key and the offset that they add to the sum. -/
structure Aggregated (schnorr : Schnorr) (nonces : List HtssNoncePackage)
    (shares : List HtssSignatureSharePackage) (P : Point) (digest : Bytes 32)
    (offset : Scalar) (signature : Signature) : Prop where
  nonce : signature.R = (intoPointWithEvenY (publicNonceSum nonces)).1
  response : signature.s = (shares.map HtssSignatureSharePackage.value).sum +
    schnorr.challenge signature.R P digest * offset
  canonical : ∀ share ∈ shares, scalarToBytes share.value = share.signatureShareBytes
  valid : signature.Valid schnorr P digest

theorem Schnorr.valid_of_verify {P R : Point} {digest : Bytes 32} {s : Scalar} (hR : R ≠ 0)
    (h : schnorr.verify P digest ⟨R, s⟩ = true) : (⟨R, s⟩ : Signature).Valid schnorr P digest := by
  simp only [Schnorr.verify, decide_eq_true_eq] at h
  exact ⟨hR, h.1, eq_add_of_sub_eq h.2⟩

theorem aggregated_of_collected {collected : AggregateHtssNonce × Scalar}
    (hcollected : collectSignatureShares nonces shares signerSet config = .ok collected)
    {P : Point} {digest : Bytes 32} {offset s : Scalar}
    (hs : s = collected.2 + schnorr.challenge collected.1.evenPublicNonce P digest * offset)
    (hverify : schnorr.verify P digest ⟨collected.1.evenPublicNonce, s⟩ = true) :
    Aggregated schnorr nonces shares P digest offset ⟨collected.1.evenPublicNonce, s⟩ := by
  simp only [collectSignatureShares, bind_eq_ok, Except.ok.injEq] at hcollected
  obtain ⟨_, -, _, -, _, -, aggregate, haggregate, sum, hsum, rfl⟩ := hcollected
  obtain ⟨hne, hnonce⟩ := evenPublicNonce_of_ok haggregate
  obtain ⟨hvalue, hcanonical⟩ := foldlM_addSignatureShare_eq_sum hsum
  rw [zero_add] at hvalue
  have hR : aggregate.evenPublicNonce ≠ 0 := by
    rw [hnonce]
    exact intoPointWithEvenY_ne_zero hne
  exact ⟨hnonce, by rw [hs, hvalue], hcanonical, Schnorr.valid_of_verify hR hverify⟩

theorem AggregateSignature.new_eq_ok {signature : Signature} {aggregate : AggregateSignature} :
    AggregateSignature.new signature.toBytes = .ok aggregate ↔ aggregate = ⟨signature.toBytes⟩ := by
  rw [AggregateSignature.new_toBytes, Except.ok.injEq, eq_comm]

theorem aggregated_of_ok {groupKey : GroupKey} {digest : Bytes 32} {aggregate : AggregateSignature}
    (h : aggregateHtssSignatureShares schnorr groupKey digest nonces shares signerSet config =
      .ok aggregate) : ∃ P signature, pointFromXonlyBytes groupKey.xonlyPublicKey = some P ∧
      Aggregated schnorr nonces shares P digest 0 signature ∧ aggregate = ⟨signature.toBytes⟩ := by
  simp only [aggregateHtssSignatureShares, bind_eq_ok, okOr_eq_ok] at h
  obtain ⟨collected, hcollected, P, hP, h⟩ := h
  split_ifs at h with hverify
  · exact ⟨P, _, hP, aggregated_of_collected hcollected (by rw [mul_zero, add_zero]) hverify,
      AggregateSignature.new_eq_ok.mp h⟩
  · exact absurd h (fail_ne_ok _ _)

theorem aggregatedForOutput_of_ok {digest outputXonly tweak : Bytes 32}
    {aggregate : AggregateSignature} (h : aggregateHtssSignatureSharesForOutput schnorr digest
      outputXonly tweak nonces shares signerSet config = .ok aggregate) :
    ∃ Q B signature, pointFromXonlyBytes outputXonly = some Q ∧ scalarFromBytes tweak = some B ∧
      Aggregated schnorr nonces shares Q digest B signature ∧ aggregate = ⟨signature.toBytes⟩ := by
  simp only [aggregateHtssSignatureSharesForOutput, bind_eq_ok, okOr_eq_ok] at h
  obtain ⟨collected, hcollected, Q, hQ, B, hB, h⟩ := h
  split_ifs at h with hverify
  · exact ⟨Q, B, _, hQ, hB, aggregated_of_collected hcollected rfl hverify,
      AggregateSignature.new_eq_ok.mp h⟩
  · exact absurd h (fail_ne_ok _ _)

/-- On one set of nonces there is one aggregate for a key and a message. -/
theorem Aggregated.unique {shares' : List HtssSignatureSharePackage} {P : Point} {digest : Bytes 32}
    {offset offset' : Scalar} {signature signature' : Signature} (hperm : nonces'.Perm nonces)
    (h : Aggregated schnorr nonces shares P digest offset signature)
    (h' : Aggregated schnorr nonces' shares' P digest offset' signature') :
    signature' = signature := by
  have hsum : publicNonceSum nonces' = publicNonceSum nonces := (hperm.map _).sum_eq
  exact h'.valid.unique h.valid (by rw [h'.nonce, h.nonce, hsum])

/-- Two aggregates that differ in one share only do not differ in it either. -/
theorem Aggregated.share_eq {before after : List HtssSignatureSharePackage}
    {share : HtssSignatureSharePackage} {bytes : Bytes 32} {P : Point} {digest : Bytes 32}
    {offset : Scalar} {signature signature' : Signature}
    (h : Aggregated schnorr nonces (before ++ share :: after) P digest offset signature)
    (h' : Aggregated schnorr nonces (before ++ { share with signatureShareBytes := bytes } :: after) P
      digest offset signature') : bytes = share.signatureShareBytes := by
  obtain rfl := h.unique (List.Perm.refl nonces) h'
  have hsums := h.response.symm.trans h'.response
  simp only [List.map_append, List.map_cons, List.sum_append, List.sum_cons, add_left_inj,
    add_right_inj] at hsums
  have hbytes := h'.canonical _ (List.mem_append_right before List.mem_cons_self)
  rw [← h.canonical share (List.mem_append_right before List.mem_cons_self), hsums]
  exact hbytes.symm

end Aggregates

section EntryPoints

variable {library : BitcoinLibrary} {hash : ChallengeHash}

/-- The functions of `dkgkit-frost` that return aggregate signatures of HTSS, with the x-only
key that each of them signs for. -/
inductive Returned (schnorr : Schnorr) (digest : Bytes 32) : Bytes 32 → AggregateSignature → Prop
  | aggregate {groupKey nonces shares signerSet config signature}
      (h : aggregateHtssSignatureShares schnorr groupKey digest nonces shares signerSet config =
        .ok signature) : Returned schnorr digest groupKey.xonlyPublicKey signature
  | aggregateForOutput {outputXonly tweak nonces shares signerSet config signature}
      (h : aggregateHtssSignatureSharesForOutput schnorr digest outputXonly tweak nonces shares
        signerSet config = .ok signature) : Returned schnorr digest outputXonly signature
  | reconstructed {groupKey shares signerSet config signature}
      (h : signDigestWithLocalHtssShares schnorr groupKey digest shares signerSet config =
        .ok signature) : Returned schnorr digest groupKey.xonlyPublicKey signature
  | threshold {groupKey shares signerSet config rng signature}
      (h : signDigestWithLocalHtssThresholdShares schnorr groupKey digest shares signerSet config rng =
        .ok signature) : Returned schnorr digest groupKey.xonlyPublicKey signature
  | thresholdForOutput {groupKey outputXonly tweak negateKey shares signerSet config rng signature}
      (h : signDigestWithLocalHtssThresholdSharesForOutput schnorr groupKey digest outputXonly tweak
        negateKey shares signerSet config rng = .ok signature) : Returned schnorr digest outputXonly signature
  | grouped {groupKey shares signerSet config rng signature}
      (h : signDigestWithLocalGroupedHtssThresholdShares schnorr groupKey digest shares signerSet
        config rng = .ok signature) : Returned schnorr digest groupKey.xonlyPublicKey signature
  | groupedForOutput {groupKey outputXonly tweak negateKey shares signerSet config rng signature}
      (h : signDigestWithLocalGroupedHtssThresholdSharesForOutput schnorr groupKey digest outputXonly
        tweak negateKey shares signerSet config rng = .ok signature) :
      Returned schnorr digest outputXonly signature

theorem exists_aggregate_of_signLocally {sessionName : String} {shares : List HtssLocalKeyShare}
    {signerSet : List ParticipantId} {rng : ParticipantId → NonZeroScalar}
    {signShare : HtssLocalKeyShare → HtssLocalNonce → List HtssNoncePackage →
      Result HtssSignatureSharePackage}
    {aggregate : List HtssNoncePackage → List HtssSignatureSharePackage → Result AggregateSignature}
    {signature : AggregateSignature}
    (h : signLocally sessionName shares signerSet rng signShare aggregate = .ok signature) :
    ∃ nonces signatureShares, aggregate nonces signatureShares = .ok signature := by
  simp only [signLocally, bind_eq_ok] at h
  obtain ⟨_, -, _, -, nonces, -, signatureShares, -, hresult⟩ := h
  exact ⟨_, signatureShares, hresult⟩

/-- The key decodes and the bytes are those of a signature that is valid under it. -/
structure SignatureFor (schnorr : Schnorr) (digest xonlyKey : Bytes 32) (P : Point)
    (signature : Signature) (aggregate : AggregateSignature) : Prop where
  key : pointFromXonlyBytes xonlyKey = some P
  valid : signature.Valid schnorr P digest
  bytes : aggregate = ⟨signature.toBytes⟩

theorem signatureFor_of_reconstructed {schnorr : Schnorr} {groupKey : GroupKey} {digest : Bytes 32}
    {shares : List HtssLocalKeyShare} {signerSet : List ParticipantId}
    {config : HierarchicalThresholdConfig} {aggregate : AggregateSignature}
    (h : signDigestWithLocalHtssShares schnorr groupKey digest shares signerSet config = .ok aggregate) :
    ∃ P signature, SignatureFor schnorr digest groupKey.xonlyPublicKey P signature aggregate := by
  simp only [signDigestWithLocalHtssShares, bind_eq_ok, ifFail_eq_ok, not_not, ne_eq] at h
  obtain ⟨_, -, secret, -, hkey, hnew⟩ := h
  have hne : (newKeypair secret).publicKey ≠ 0 := by
    rw [← (newKeypair secret).publicKey_eq]
    exact fun h0 => (newKeypair secret).secretKey.property (smul_generator_eq_zero.mp h0)
  exact ⟨_, _, pointFromXonlyBytes_eq_some.mpr ⟨hne, hkey, (newKeypair secret).even⟩,
    sign_valid schnorr (newKeypair secret) digest, AggregateSignature.new_eq_ok.mp hnew⟩

theorem Returned.signatureFor {schnorr : Schnorr} {digest xonlyKey : Bytes 32}
    {aggregate : AggregateSignature} (h : Returned schnorr digest xonlyKey aggregate) :
    ∃ P signature, SignatureFor schnorr digest xonlyKey P signature aggregate := by
  have hplain : ∀ {groupKey : GroupKey} {nonces shares signerSet config},
      aggregateHtssSignatureShares schnorr groupKey digest nonces shares signerSet config =
        .ok aggregate →
      ∃ P signature, SignatureFor schnorr digest groupKey.xonlyPublicKey P signature aggregate := by
    intro groupKey nonces shares signerSet config h
    obtain ⟨P, signature, hP, hsum, hbytes⟩ := aggregated_of_ok h
    exact ⟨P, signature, hP, hsum.valid, hbytes⟩
  have houtput : ∀ {outputXonly tweak nonces shares signerSet config},
      aggregateHtssSignatureSharesForOutput schnorr digest outputXonly tweak nonces shares signerSet
        config = .ok aggregate →
      ∃ P signature, SignatureFor schnorr digest outputXonly P signature aggregate := by
    intro outputXonly tweak nonces shares signerSet config h
    obtain ⟨Q, _, signature, hQ, -, hsum, hbytes⟩ := aggregatedForOutput_of_ok h
    exact ⟨Q, signature, hQ, hsum.valid, hbytes⟩
  cases h with
  | aggregate h => exact hplain h
  | aggregateForOutput h => exact houtput h
  | reconstructed h => exact signatureFor_of_reconstructed h
  | threshold h =>
    obtain ⟨_, _, hresult⟩ := exists_aggregate_of_signLocally h
    exact hplain hresult
  | thresholdForOutput h =>
    obtain ⟨_, _, hresult⟩ := exists_aggregate_of_signLocally h
    exact houtput hresult
  | grouped h =>
    simp only [signDigestWithLocalGroupedHtssThresholdShares, bind_eq_ok] at h
    obtain ⟨_, -, _, -, h⟩ := h
    obtain ⟨_, _, hresult⟩ := exists_aggregate_of_signLocally h
    exact hplain hresult
  | groupedForOutput h =>
    simp only [signDigestWithLocalGroupedHtssThresholdSharesForOutput, bind_eq_ok] at h
    obtain ⟨_, -, _, -, h⟩ := h
    obtain ⟨_, _, hresult⟩ := exists_aggregate_of_signLocally h
    exact houtput hresult

/-- Whatever packages a signing function was given: what it returns verifies under the key it
signs for, and no other signature with the same nonce does. -/
theorem returned_signature_verifies (library : BitcoinLibrary) {hash : ChallengeHash}
    {schnorr : Schnorr} (himpl : schnorr.Implements hash) {digest xonlyKey : Bytes 32}
    {signature : AggregateSignature} (h : Returned schnorr digest xonlyKey signature)
    (verificationKeyBytes : List UInt8) :
    verifyAggregateSignatureDigest library hash ⟨xonlyKey, verificationKeyBytes⟩ digest signature =
        .ok true ∧
      ∀ bytes : Bytes 64, bytes.toList.take 32 = signature.signatureBytes.take 32 →
        (verifySchnorrDigest library hash xonlyKey digest bytes = .ok true ↔
          bytes.toList = signature.signatureBytes) := by
  obtain ⟨P, valid, hkey, hvalid, rfl⟩ := h.signatureFor
  refine ⟨verifyAggregate_of_valid himpl hkey hvalid, fun bytes hnonce => ?_⟩
  rw [verifySchnorrDigest_eq_true himpl]
  constructor
  · rintro ⟨P', hP', other, hother, hvalid'⟩
    obtain rfl : P' = P := Option.some.inj (hP'.symm.trans hkey)
    have hx : pointToXonlyBytes other.R = pointToXonlyBytes valid.R := by
      apply Subtype.ext
      rw [hother, Signature.toBytes, Signature.toBytes, List.take_left' (List.Vector.toList_length _),
        List.take_left' (List.Vector.toList_length _)] at hnonce
      exact hnonce
    have hR : other.R = valid.R := Option.some.inj
      ((pointFromXonlyBytes_eq_some.mpr ⟨hvalid'.ne_zero, hx, hvalid'.even⟩).symm.trans
        (pointFromXonlyBytes_eq_some.mpr ⟨hvalid.ne_zero, rfl, hvalid.even⟩))
    rw [hother, hvalid'.unique hvalid hR]
  · intro hbytes
    exact ⟨P, hkey, valid, hbytes, hvalid⟩

/-- The challenge of `sampleSchnorr` over bytes. -/
def sampleHash : ChallengeHash := fun nonce key message =>
  (decode nonce + decode key + decode message : ℕ)

theorem sampleSchnorr_implements : sampleSchnorr.Implements sampleHash := fun _ _ _ => rfl

theorem returned_signature_verifies_pair : ∃ shares signature,
    aggregateHtssSignatureShares sampleSchnorr pairKeySet.groupKey (List.Vector.replicate 32 0)
        ([1, 2].map (honestNonce "session" fun _ => NonZeroScalar.one)) shares [1, 2] pairConfig =
      .ok signature ∧
    verifyAggregateSignatureDigest plainLibrary sampleHash pairKeySet.groupKey
      (List.Vector.replicate 32 0) signature = .ok true := by
  obtain ⟨P, share, signature, reconstructed, hround⟩ := pairConfig_quorum.signingRound sampleSchnorr
    (HierarchicalThresholdConfig.accepted_of_new pairConfig_new) pairKeySet_dealt.toConsistent
    (List.Vector.replicate 32 0) "session" (k := fun _ => NonZeroScalar.one) sum_ones_ne_zero
  have h := hround.aggregates [1, 2] _ ([1, 2].map share) (List.Perm.refl _) (List.Perm.refl _)
    (List.Perm.refl _)
  exact ⟨_, _, h, (returned_signature_verifies plainLibrary sampleSchnorr_implements
    (.aggregate h) _).1⟩

/-- Once an aggregate is accepted, copies of the packages in another order give the same bytes
or none, under every signer list and policy, and one altered share is always noticed. -/
theorem aggregate_detects_tampering {schnorr : Schnorr} {groupKey : GroupKey} {digest : Bytes 32}
    {nonces : List HtssNoncePackage} {before after : List HtssSignatureSharePackage}
    {share : HtssSignatureSharePackage} {signerSet : List ParticipantId}
    {config : HierarchicalThresholdConfig} {signature : AggregateSignature}
    (h : aggregateHtssSignatureShares schnorr groupKey digest nonces (before ++ share :: after)
      signerSet config = .ok signature) :
    (∀ nonces' shares' signerSet' config' signature', nonces'.Perm nonces →
      aggregateHtssSignatureShares schnorr groupKey digest nonces' shares' signerSet' config' =
        .ok signature' → signature' = signature) ∧
    ∀ bytes, bytes ≠ share.signatureShareBytes → ∃ fault,
      aggregateHtssSignatureShares schnorr groupKey digest nonces
        (before ++ { share with signatureShareBytes := bytes } :: after) signerSet config =
          .error fault := by
  obtain ⟨P, valid, hP, hsum, rfl⟩ := aggregated_of_ok h
  have hkey : ∀ {P'}, pointFromXonlyBytes groupKey.xonlyPublicKey = some P' → P' = P :=
    fun hP' => Option.some.inj (hP'.symm.trans hP)
  constructor
  · intro nonces' shares' signerSet' config' signature' hperm h'
    obtain ⟨P', valid', hP', hsum', rfl⟩ := aggregated_of_ok h'
    obtain rfl := hkey hP'
    rw [hsum.unique hperm hsum']
  · intro bytes hne
    cases hresult : aggregateHtssSignatureShares schnorr groupKey digest nonces
        (before ++ { share with signatureShareBytes := bytes } :: after) signerSet config with
    | error fault => exact ⟨fault, rfl⟩
    | ok signature' =>
      obtain ⟨P', valid', hP', hsum', -⟩ := aggregated_of_ok hresult
      obtain rfl := hkey hP'
      exact absurd (hsum.share_eq hsum') hne

theorem aggregate_detects_tampering_pair : ∃ first second signature,
    aggregateHtssSignatureShares sampleSchnorr pairKeySet.groupKey (List.Vector.replicate 32 0)
        ([1, 2].map (honestNonce "session" fun _ => NonZeroScalar.one)) [first, second] [1, 2]
        pairConfig = .ok signature ∧
    ∀ bytes, bytes ≠ second.signatureShareBytes → ∃ fault,
      aggregateHtssSignatureShares sampleSchnorr pairKeySet.groupKey (List.Vector.replicate 32 0)
        ([1, 2].map (honestNonce "session" fun _ => NonZeroScalar.one))
        [first, { second with signatureShareBytes := bytes }] [1, 2] pairConfig = .error fault := by
  obtain ⟨P, share, signature, reconstructed, hround⟩ := pairConfig_quorum.signingRound sampleSchnorr
    (HierarchicalThresholdConfig.accepted_of_new pairConfig_new) pairKeySet_dealt.toConsistent
    (List.Vector.replicate 32 0) "session" (k := fun _ => NonZeroScalar.one) sum_ones_ne_zero
  have h := hround.aggregates [1, 2] _ ([1, 2].map share) (List.Perm.refl _) (List.Perm.refl _)
    (List.Perm.refl _)
  exact ⟨share 1, share 2, _, h,
    (@aggregate_detects_tampering _ _ _ _ [share 1] [] (share 2) _ _ _ h).2⟩

end EntryPoints

section HexInputs

theorem hexArray_hexText {hexDecode : HexDecoder} (hhex : hexDecode.Inverts) {n : ℕ}
    (notHex wrongLength : String) (bytes : Bytes n) :
    hexArray hexDecode n notHex wrongLength (hexText bytes.toList) = .ok bytes := by
  have hlength : asArray n bytes.toList = some bytes := asArray_eq_some.mpr rfl
  rw [hexArray, hhex]
  change okOrElse wrongLength (asArray n bytes.toList) = .ok bytes
  rw [hlength]
  rfl

/-- The texts of a key, a digest and a valid signature verify. -/
theorem verifySchnorrDigestHex_of_valid {library : BitcoinLibrary} {hash : ChallengeHash}
    {schnorr : Schnorr} (himpl : schnorr.Implements hash) {hexDecode : HexDecoder}
    (hhex : hexDecode.Inverts) {xonlyKey digest : Bytes 32} {P : Point}
    (hP : pointFromXonlyBytes xonlyKey = some P) {signature : Signature}
    (hvalid : signature.Valid schnorr P digest) :
    verifySchnorrDigestHex library hash hexDecode (hexText xonlyKey.toList) (hexText digest.toList)
      (hexText signature.toBytes) = .ok true := by
  let bytes : Bytes 64 := ⟨signature.toBytes, length_toBytes signature⟩
  have hbytes : hexText signature.toBytes = hexText bytes.toList := rfl
  rw [verifySchnorrDigestHex, parseXonlyPublicKeyHex, hbytes, hexArray_hexText hhex,
    hexArray_hexText hhex, hexArray_hexText hhex]
  exact (verifySchnorrDigest_eq_true himpl).mpr ⟨P, hP, signature, rfl, hvalid⟩

end HexInputs

end DkgKit
