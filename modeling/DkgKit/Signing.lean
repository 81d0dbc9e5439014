import DkgKit.Keygen

/-! HTSS signing: nonces, signature shares, aggregation, and the local signers.
The challenge hash and the derivation of deterministic nonces stay abstract. -/

open Polynomial BigEndian BirkhoffMatrix LoopRules

namespace DkgKit

/-- The hash functions of the Schnorr scheme. -/
structure Schnorr where
  challenge : Point → Point → Bytes 32 → Scalar
  deriveNonce : KeyPair → Bytes 32 → NonZeroScalar

section Packages

structure HtssNoncePackage where
  participantId : ParticipantId
  signingSessionId : SessionId
  publicNonceBytes : List UInt8
  deriving DecidableEq

structure HtssLocalNonce where
  package : HtssNoncePackage
  secretNonceBytes : Bytes 32
  deriving DecidableEq

structure HtssSignatureSharePackage where
  participantId : ParticipantId
  signingSessionId : SessionId
  signatureShareBytes : Bytes 32
  deriving DecidableEq

structure AggregateSignature where
  signatureBytes : List UInt8
  deriving DecidableEq

def AggregateSignature.new (signatureBytes : List UInt8) : Result AggregateSignature :=
  if signatureBytes.isEmpty then fail (.protocol "aggregate signature cannot be empty")
  else .ok ⟨signatureBytes⟩

structure Signature where
  R : Point
  s : Scalar

def Signature.toBytes (signature : Signature) : List UInt8 :=
  (pointToXonlyBytes signature.R).toList ++ (scalarToBytes signature.s).toList

def Schnorr.verify (schnorr : Schnorr) (publicKey : Point) (message : Bytes 32)
    (signature : Signature) : Bool :=
  isOddY signature.R = false ∧ signature.s • generator -
    schnorr.challenge signature.R publicKey message • publicKey = signature.R

def Schnorr.sign (schnorr : Schnorr) (keypair : KeyPair) (message : Bytes 32) : Signature :=
  let nonce := (schnorr.deriveNonce keypair message).val
  let (R, negated) := intoPointWithEvenY (nonce • generator)
  ⟨R, conditionalNegate negated nonce +
    schnorr.challenge R keypair.publicKey message * keypair.secretKey.val⟩

end Packages

section Sets

variable {α : Type}

/-- The loop of the two set validators; `sessionId` is the session of the first item. -/
def sessionLoop (id : α → ParticipantId) (session : α → SessionId) (outside : α → DkgKitError)
    (mismatch : DkgKitError) (signerSet : List ParticipantId) :
    List α → Finset ParticipantId → Option SessionId → Result (Finset ParticipantId)
  | [], seen, _ => .ok seen
  | item :: rest, seen, sessionId =>
    if id item ∉ signerSet then fail (outside item)
    else if id item ∈ seen then fail (.duplicateParticipantId (id item))
    else
      match sessionId with
      | some existing =>
        if existing ≠ session item then fail mismatch
        else sessionLoop id session outside mismatch signerSet rest (insert (id item) seen) (some existing)
      | none => sessionLoop id session outside mismatch signerSet rest (insert (id item) seen)
          (some (session item))

def validateHtssNonceSet (nonces : List HtssNoncePackage) (signerSet : List ParticipantId) :
    Result Unit := do
  let seen ← sessionLoop HtssNoncePackage.participantId HtssNoncePackage.signingSessionId
    (fun nonce => .protocol s!"HTSS nonce participant {nonce.participantId} is not in signer set")
    (.protocol "HTSS nonce session mismatch") signerSet nonces ∅ none
  if seen.card ≠ signerSet.length then
    fail (.protocol s!"HTSS nonce set mismatch: have {seen.card}, need {signerSet.length}")
  else .ok ()

def validateHtssSignatureShareSet (shares : List HtssSignatureSharePackage)
    (signerSet : List ParticipantId) : Result Unit := do
  let seen ← sessionLoop HtssSignatureSharePackage.participantId
    HtssSignatureSharePackage.signingSessionId
    (fun share => .protocol
      s!"HTSS signature share participant {share.participantId} is not in signer set")
    (.protocol "HTSS signature share session mismatch") signerSet shares ∅ none
  if seen.card ≠ signerSet.length then
    fail (.protocol s!"HTSS signature share set mismatch: have {seen.card}, need {signerSet.length}")
  else .ok ()

end Sets

section Nonces

def htssNonce (signingSessionId : SessionId) (localShare : HtssLocalKeyShare)
    (nonce : NonZeroScalar) : Result HtssLocalNonce :=
  .ok ⟨⟨localShare.participantId, signingSessionId, (pointToBytes (nonce.val • generator)).toList⟩,
    scalarToBytes nonce.val⟩

structure AggregateHtssNonce where
  signingSessionId : SessionId
  evenPublicNonce : Point
  negated : Bool

def noncePublicNonceBytes (nonce : HtssNoncePackage) : Result (Bytes 33) :=
  okOr (.protocol s!"HTSS public nonce for participant {nonce.participantId} must be 33 bytes")
    (asArray 33 nonce.publicNonceBytes)

def addPublicNonce (aggregate : Point) (nonce : HtssNoncePackage) : Result Point := do
  let bytes ← noncePublicNonceBytes nonce
  let publicNonce ← okOr
    (.protocol s!"invalid HTSS public nonce for participant {nonce.participantId}")
    (pointFromBytes bytes)
  .ok (aggregate + publicNonce)

def aggregateHtssPublicNonce (nonces : List HtssNoncePackage) (signerSet : List ParticipantId) :
    Result AggregateHtssNonce := do
  validateHtssNonceSet nonces signerSet
  let first ← okOr (.protocol "missing HTSS nonce set") nonces.head?
  let aggregate ← nonces.foldlM addPublicNonce 0
  if aggregate = 0 then fail (.protocol "HTSS aggregate nonce cannot be zero")
  else
    let (evenPublicNonce, negated) := intoPointWithEvenY aggregate
    .ok ⟨first.signingSessionId, evenPublicNonce, negated⟩

end Nonces

section Shares

variable (schnorr : Schnorr)

/-- The common body of the two share signers, for the key that the challenge commits to. -/
def signShareUnder (xonlyKey : Bytes 32) (invalidKey : DkgKitError) (negateKey : Bool)
    (digest : Bytes 32) (localShare : HtssLocalKeyShare) (nonce : HtssLocalNonce)
    (nonces : List HtssNoncePackage) (signerSet : List ParticipantId)
    (config : HierarchicalThresholdConfig) : Result HtssSignatureSharePackage := do
  if localShare.participantId ≠ nonce.package.participantId then
    fail (.protocol s!"HTSS nonce participant mismatch: share {localShare.participantId}, nonce {nonce.package.participantId}")
  else if localShare.participantId ∉ signerSet then
    fail (.protocol s!"participant {localShare.participantId} is not in HTSS signer set")
  else
    let points ← birkhoffPointsFromHierarchicalSignerSet signerSet config
    let coefficients ← birkhoffInterpolationCoefficients points
    let coefficient ← okOr (.missingRankedParticipant localShare.participantId)
      (coefficients.find? fun coefficient => coefficient.participantId == localShare.participantId)
    if localShare.rank ≠ coefficient.derivativeOrder then
      fail (.protocol s!"HTSS share rank mismatch for participant {localShare.participantId}: share rank {localShare.rank}, coefficient rank {coefficient.derivativeOrder}")
    else
      let aggregateNonce ← aggregateHtssPublicNonce nonces signerSet
      if aggregateNonce.signingSessionId ≠ nonce.package.signingSessionId then
        fail (.protocol "HTSS aggregate nonce session mismatch")
      else
        let publicKey ← okOr invalidKey (pointFromXonlyBytes xonlyKey)
        let challenge := schnorr.challenge aggregateNonce.evenPublicNonce publicKey digest
        let secretNonce ← okOr
          (.protocol s!"invalid HTSS secret nonce scalar for participant {nonce.package.participantId}")
          (scalarFromBytes nonce.secretNonceBytes)
        let secretNonce := conditionalNegate aggregateNonce.negated secretNonce
        let coefficientValue ← okOr
          (.protocol s!"invalid Birkhoff coefficient scalar for participant {coefficient.participantId}")
          (scalarFromBytes coefficient.coefficientBytes)
        let shareValue ← okOr
          (.protocol s!"invalid HTSS share scalar for participant {localShare.participantId}")
          (scalarFromBytes localShare.shareValueBytes)
        let weightedShare := coefficientValue * shareValue
        let challengeShare := conditionalNegate negateKey challenge * weightedShare
        .ok ⟨localShare.participantId, nonce.package.signingSessionId,
          scalarToBytes (secretNonce + challengeShare)⟩

def htssSignShare (groupKey : GroupKey) (digest : Bytes 32) (localShare : HtssLocalKeyShare)
    (nonce : HtssLocalNonce) (nonces : List HtssNoncePackage) (signerSet : List ParticipantId)
    (config : HierarchicalThresholdConfig) : Result HtssSignatureSharePackage :=
  signShareUnder schnorr groupKey.xonlyPublicKey (.protocol "invalid HTSS group x-only public key")
    false digest localShare nonce nonces signerSet config

def htssSignShareForOutput (_groupKey : GroupKey) (digest outputXonly : Bytes 32) (negateKey : Bool)
    (localShare : HtssLocalKeyShare) (nonce : HtssLocalNonce) (nonces : List HtssNoncePackage)
    (signerSet : List ParticipantId) (config : HierarchicalThresholdConfig) :
    Result HtssSignatureSharePackage :=
  signShareUnder schnorr outputXonly (.protocol "invalid HTSS output x-only public key")
    negateKey digest localShare nonce nonces signerSet config

def addSignatureShare (s : Scalar) (share : HtssSignatureSharePackage) : Result Scalar := do
  let shareValue ← okOr
    (.protocol s!"invalid HTSS signature share scalar for participant {share.participantId}")
    (scalarFromBytes share.signatureShareBytes)
  .ok (s + shareValue)

def collectSignatureShares (nonces : List HtssNoncePackage) (shares : List HtssSignatureSharePackage)
    (signerSet : List ParticipantId) (config : HierarchicalThresholdConfig) :
    Result (AggregateHtssNonce × Scalar) := do
  validateHierarchicalSignerSet signerSet config
  validateHtssNonceSet nonces signerSet
  validateHtssSignatureShareSet shares signerSet
  let aggregateNonce ← aggregateHtssPublicNonce nonces signerSet
  let s ← shares.foldlM addSignatureShare 0
  .ok (aggregateNonce, s)

def aggregateHtssSignatureShares (groupKey : GroupKey) (digest : Bytes 32)
    (nonces : List HtssNoncePackage) (shares : List HtssSignatureSharePackage)
    (signerSet : List ParticipantId) (config : HierarchicalThresholdConfig) :
    Result AggregateSignature := do
  let (aggregateNonce, s) ← collectSignatureShares nonces shares signerSet config
  let signature : Signature := ⟨aggregateNonce.evenPublicNonce, s⟩
  let groupPublicKey ← okOr (.protocol "invalid HTSS group x-only public key")
    (pointFromXonlyBytes groupKey.xonlyPublicKey)
  if schnorr.verify groupPublicKey digest signature then AggregateSignature.new signature.toBytes
  else fail (.protocol "HTSS aggregate signature verification failed")

def aggregateHtssSignatureSharesForOutput (digest outputXonly tweak : Bytes 32)
    (nonces : List HtssNoncePackage) (shares : List HtssSignatureSharePackage)
    (signerSet : List ParticipantId) (config : HierarchicalThresholdConfig) :
    Result AggregateSignature := do
  let (aggregateNonce, s) ← collectSignatureShares nonces shares signerSet config
  let outputPublicKey ← okOr (.protocol "invalid HTSS output x-only public key")
    (pointFromXonlyBytes outputXonly)
  let challenge := schnorr.challenge aggregateNonce.evenPublicNonce outputPublicKey digest
  let tweakScalar ← okOr (.protocol "invalid Taproot tweak scalar") (scalarFromBytes tweak)
  let signature : Signature := ⟨aggregateNonce.evenPublicNonce, s + challenge * tweakScalar⟩
  if schnorr.verify outputPublicKey digest signature then AggregateSignature.new signature.toBytes
  else fail (.protocol "HTSS tweaked aggregate signature verification failed")

end Shares

section LocalSigners

variable (schnorr : Schnorr)

def signDigestWithLocalHtssShares (groupKey : GroupKey) (digest : Bytes 32)
    (shares : List HtssLocalKeyShare) (signerSet : List ParticipantId)
    (config : HierarchicalThresholdConfig) : Result AggregateSignature := do
  let secretBytes ← reconstructHtssSecretScalar shares signerSet config
  let secret ← okOr (.protocol "reconstructed HTSS secret is zero") (nonZeroFromBytes secretBytes)
  let keypair := newKeypair secret
  if pointToXonlyBytes keypair.publicKey ≠ groupKey.xonlyPublicKey then
    fail (.protocol "reconstructed HTSS secret does not match group key")
  else AggregateSignature.new (schnorr.sign keypair digest).toBytes

def signLocally (sessionName : String) (shares : List HtssLocalKeyShare)
    (signerSet : List ParticipantId) (rng : ParticipantId → NonZeroScalar)
    (signShare : HtssLocalKeyShare → HtssLocalNonce → List HtssNoncePackage →
      Result HtssSignatureSharePackage)
    (aggregate : List HtssNoncePackage → List HtssSignatureSharePackage → Result AggregateSignature) :
    Result AggregateSignature := do
  let selectedShares ← collectResults (fun participantId => okOr
    (.missingRankedParticipant participantId)
    (shares.find? fun share => share.participantId == participantId)) signerSet
  let signingSessionId ← SessionId.new sessionName
  let nonces ← collectResults
    (fun share => htssNonce signingSessionId share (rng share.participantId)) selectedShares
  let publicNonces := nonces.map HtssLocalNonce.package
  let signatureShares ← collectResults
    (fun (share, nonce) => signShare share nonce publicNonces) (selectedShares.zip nonces)
  aggregate publicNonces signatureShares

def signDigestWithLocalHtssThresholdShares (groupKey : GroupKey) (digest : Bytes 32)
    (shares : List HtssLocalKeyShare) (signerSet : List ParticipantId)
    (config : HierarchicalThresholdConfig) (rng : ParticipantId → NonZeroScalar) :
    Result AggregateSignature :=
  signLocally "local-htss-threshold-signing" shares signerSet rng
    (fun share nonce publicNonces =>
      htssSignShare schnorr groupKey digest share nonce publicNonces signerSet config)
    (fun publicNonces signatureShares => aggregateHtssSignatureShares schnorr groupKey digest
      publicNonces signatureShares signerSet config)

def signDigestWithLocalHtssThresholdSharesForOutput (groupKey : GroupKey)
    (digest outputXonly tweak : Bytes 32) (negateKey : Bool) (shares : List HtssLocalKeyShare)
    (signerSet : List ParticipantId) (config : HierarchicalThresholdConfig)
    (rng : ParticipantId → NonZeroScalar) : Result AggregateSignature :=
  signLocally "local-htss-threshold-output-signing" shares signerSet rng
    (fun share nonce publicNonces => htssSignShareForOutput schnorr groupKey digest outputXonly
      negateKey share nonce publicNonces signerSet config)
    (fun publicNonces signatureShares => aggregateHtssSignatureSharesForOutput schnorr digest
      outputXonly tweak publicNonces signatureShares signerSet config)

def hierarchicalConfigFromGroupedThreshold (config : GroupedThresholdConfig) :
    Result HierarchicalThresholdConfig := do
  let required ← config.requiredSignerCount
  HierarchicalThresholdConfig.new required config.participants

def signDigestWithLocalGroupedHtssThresholdShares (groupKey : GroupKey) (digest : Bytes 32)
    (shares : List HtssLocalKeyShare) (signerSet : List ParticipantId)
    (config : GroupedThresholdConfig) (rng : ParticipantId → NonZeroScalar) :
    Result AggregateSignature := do
  validateGroupedThresholdSignerSet signerSet config
  let hierarchical ← hierarchicalConfigFromGroupedThreshold config
  signDigestWithLocalHtssThresholdShares schnorr groupKey digest shares signerSet hierarchical rng

def signDigestWithLocalGroupedHtssThresholdSharesForOutput (groupKey : GroupKey)
    (digest outputXonly tweak : Bytes 32) (negateKey : Bool) (shares : List HtssLocalKeyShare)
    (signerSet : List ParticipantId) (config : GroupedThresholdConfig)
    (rng : ParticipantId → NonZeroScalar) : Result AggregateSignature := do
  validateGroupedThresholdSignerSet signerSet config
  let hierarchical ← hierarchicalConfigFromGroupedThreshold config
  signDigestWithLocalHtssThresholdSharesForOutput schnorr groupKey digest outputXonly tweak negateKey
    shares signerSet hierarchical rng

end LocalSigners

section SetResults

variable {α : Type} {id : α → ParticipantId} {session : α → SessionId} {outside : α → DkgKitError}
  {mismatch : DkgKitError} {signerSet : List ParticipantId}

theorem sessionLoop_some_eq_ok {items : List α} {seen seen' : Finset ParticipantId}
    {existing : SessionId} :
    sessionLoop id session outside mismatch signerSet items seen (some existing) = .ok seen' ↔
      (∀ a ∈ items, id a ∈ signerSet ∧ session a = existing) ∧ (items.map id).Nodup ∧
        (∀ a ∈ items, id a ∉ seen) ∧ seen' = seen ∪ (items.map id).toFinset := by
  induction items generalizing seen with
  | nil => simp [sessionLoop, eq_comm]
  | cons a rest ih =>
    have hunion : insert (id a) seen ∪ (rest.map id).toFinset =
        seen ∪ insert (id a) (rest.map id).toFinset := by
      rw [Finset.insert_union, Finset.union_insert]
    rw [sessionLoop, List.forall_mem_cons, List.forall_mem_cons, List.map_cons, List.nodup_cons,
      List.toFinset_cons]
    split_ifs with hmem hseen hsession
    · simp only [fail_ne_ok, false_iff]
      exact fun h => h.2.2.1.1 hseen
    · simp only [fail_ne_ok, false_iff]
      exact fun h => hsession h.1.1.2.symm
    · rw [ih, hunion]
      simp only [Finset.mem_insert, not_or, List.mem_map, not_exists, not_and]
      constructor
      · rintro ⟨hall, hnd, hfresh, hs⟩
        exact ⟨⟨⟨hmem, (not_not.mp hsession).symm⟩, hall⟩,
          ⟨fun b hb => (hfresh b hb).1, hnd⟩, ⟨hseen, fun b hb => (hfresh b hb).2⟩, hs⟩
      · rintro ⟨⟨-, hall⟩, ⟨hnew, hnd⟩, ⟨-, hfresh⟩, hs⟩
        exact ⟨hall, hnd, fun b hb => ⟨hnew b hb, hfresh b hb⟩, hs⟩
    · simp only [fail_ne_ok, false_iff]
      exact fun h => hmem h.1.1.1

theorem sessionLoop_full_iff (hnd : signerSet.Nodup) {items : List α} :
    (∃ seen, sessionLoop id session outside mismatch signerSet items ∅ none = .ok seen ∧
      seen.card = signerSet.length) ↔
      (items.map id).Perm signerSet ∧ ∀ a ∈ items, ∀ b ∈ items, session a = session b := by
  have hperm : ((∀ a ∈ items, id a ∈ signerSet) ∧ (items.map id).Nodup ∧
      (items.map id).toFinset.card = signerSet.length) ↔ (items.map id).Perm signerSet := by
    constructor
    · rintro ⟨hmem, hitems, hcard⟩
      rw [List.toFinset_card_of_nodup hitems] at hcard
      have hsub : items.map id ⊆ signerSet := by
        intro s hs
        obtain ⟨a, ha, rfl⟩ := List.mem_map.mp hs
        exact hmem a ha
      exact (hitems.subperm hsub).perm_of_length_le hcard.ge
    · intro h
      have hitems := h.nodup_iff.mpr hnd
      refine ⟨fun a ha => h.mem_iff.mp (List.mem_map_of_mem ha), hitems, ?_⟩
      rw [List.toFinset_card_of_nodup hitems, h.length_eq]
  cases items with
  | nil =>
    rw [← hperm]
    simp [sessionLoop]
  | cons a rest =>
    -- the first item fixes the session
    have hstep : ∀ seen, sessionLoop id session outside mismatch signerSet (a :: rest) ∅ none =
        .ok seen ↔ sessionLoop id session outside mismatch signerSet (a :: rest) ∅
          (some (session a)) = .ok seen := by
      intro seen
      simp [sessionLoop]
    simp only [hstep, sessionLoop_some_eq_ok, ← hperm, Finset.notMem_empty, not_false_eq_true,
      implies_true, true_and, Finset.empty_union]
    constructor
    · rintro ⟨_, ⟨hall, hnodup, rfl⟩, hcard⟩
      exact ⟨⟨fun b hb => (hall b hb).1, hnodup, hcard⟩,
        fun b hb c hc => (hall b hb).2.trans (hall c hc).2.symm⟩
    · rintro ⟨⟨hmem, hnodup, hcard⟩, hsession⟩
      exact ⟨_, ⟨fun b hb => ⟨hmem b hb, hsession b hb a List.mem_cons_self⟩, hnodup, rfl⟩, hcard⟩

theorem validateHtssNonceSet_eq_ok (hnd : signerSet.Nodup) {nonces : List HtssNoncePackage} {u : Unit} :
    validateHtssNonceSet nonces signerSet = .ok u ↔
      (nonces.map HtssNoncePackage.participantId).Perm signerSet ∧
        ∀ a ∈ nonces, ∀ b ∈ nonces, a.signingSessionId = b.signingSessionId := by
  simp only [validateHtssNonceSet, bind_eq_ok, check_eq_ok, not_not]
  exact sessionLoop_full_iff hnd

theorem validateHtssSignatureShareSet_eq_ok (hnd : signerSet.Nodup)
    {shares : List HtssSignatureSharePackage} {u : Unit} :
    validateHtssSignatureShareSet shares signerSet = .ok u ↔
      (shares.map HtssSignatureSharePackage.participantId).Perm signerSet ∧
        ∀ a ∈ shares, ∀ b ∈ shares, a.signingSessionId = b.signingSessionId := by
  simp only [validateHtssSignatureShareSet, bind_eq_ok, check_eq_ok, not_not]
  exact sessionLoop_full_iff hnd

end SetResults

section Honest

variable (session : SessionId) (k : ParticipantId → NonZeroScalar)

def honestNonce (signer : ParticipantId) : HtssNoncePackage :=
  ⟨signer, session, (pointToBytes ((k signer).val • generator)).toList⟩

def nonceSum (signers : List ParticipantId) : Scalar := (signers.map fun s => (k s).val).sum

theorem addPublicNonce_honestNonce (aggregate : Point) (signer : ParticipantId) :
    addPublicNonce aggregate (honestNonce session k signer) =
      .ok (aggregate + (k signer).val • generator) := by
  have hne : (k signer).val • generator ≠ 0 := fun h =>
    (k signer).property (smul_generator_eq_zero.mp h)
  have harray := asArray_eq_some.mpr (rfl : (honestNonce session k signer).publicNonceBytes = _)
  simp [addPublicNonce, noncePublicNonceBytes, harray, okOr, pointFromBytes_eq_some.mpr ⟨hne, rfl⟩]

theorem foldlM_addPublicNonce (signers : List ParticipantId) (aggregate : Point) :
    (signers.map (honestNonce session k)).foldlM addPublicNonce aggregate =
      .ok (aggregate + nonceSum k signers • generator) := by
  induction signers generalizing aggregate with
  | nil => simp [nonceSum, pure, Except.pure]
  | cons signer rest ih =>
    have hsum : nonceSum k (signer :: rest) = (k signer).val + nonceSum k rest := List.sum_cons
    rw [List.map_cons, List.foldlM_cons, addPublicNonce_honestNonce, ok_bind, ih, hsum, add_smul,
      ← add_assoc]

theorem exists_order_of_perm {α : Type} {item : ParticipantId → α} {id : α → ParticipantId}
    (hid : ∀ s, id (item s) = s) {signers : List ParticipantId} {items : List α}
    (h : items.Perm (signers.map item)) :
    ∃ order : List ParticipantId, order.Perm signers ∧ items = order.map item := by
  refine ⟨items.map id, ?_, ?_⟩
  · have hids := h.map id
    rwa [List.map_map, show id ∘ item = fun s => s from funext hid, List.map_id'] at hids
  · rw [List.map_map, List.map_congr_left, List.map_id']
    intro a ha
    obtain ⟨s, -, rfl⟩ := List.mem_map.mp (h.mem_iff.mp ha)
    exact congrArg item (hid s)

theorem nonceSum_perm {signers signers' : List ParticipantId} (h : signers.Perm signers') :
    nonceSum k signers = nonceSum k signers' := (h.map _).sum_eq

/-- Every party computes the same aggregate nonce, whatever the order of its copies. -/
theorem aggregateHtssPublicNonce_eq {signers signerSet : List ParticipantId}
    {nonces : List HtssNoncePackage} (hnd : signers.Nodup) (hset : signerSet.Perm signers)
    (hnonces : nonces.Perm (signers.map (honestNonce session k))) (hk : nonceSum k signers ≠ 0) :
    aggregateHtssPublicNonce nonces signerSet = .ok ⟨session,
      (intoPointWithEvenY (nonceSum k signers • generator)).1,
      isOddY (nonceSum k signers • generator)⟩ := by
  obtain ⟨order, horder, rfl⟩ := @exists_order_of_perm _ _ HtssNoncePackage.participantId
    (fun _ => rfl) _ _ hnonces
  have hids : (order.map (honestNonce session k)).map HtssNoncePackage.participantId = order := by
    rw [List.map_map]
    exact List.map_id' order
  have hvalid : validateHtssNonceSet (order.map (honestNonce session k)) signerSet = .ok () := by
    rw [validateHtssNonceSet_eq_ok (hset.nodup_iff.mpr hnd), hids]
    refine ⟨horder.trans hset.symm, fun a ha b hb => ?_⟩
    obtain ⟨s, -, rfl⟩ := List.mem_map.mp ha
    obtain ⟨s', -, rfl⟩ := List.mem_map.mp hb
    rfl
  obtain ⟨first, rest, hcons⟩ : ∃ first rest, order = first :: rest := by
    cases horder' : order with
    | nil =>
      rw [horder', List.nil_perm] at horder
      simp [horder, nonceSum] at hk
    | cons first rest => exact ⟨first, rest, rfl⟩
  have hhead : (order.map (honestNonce session k)).head? = some (honestNonce session k first) := by
    rw [hcons]
    rfl
  have hne : nonceSum k signers • generator ≠ 0 := fun h => hk (smul_generator_eq_zero.mp h)
  simp only [aggregateHtssPublicNonce, hvalid, ok_bind, hhead, okOr, foldlM_addPublicNonce, zero_add,
    nonceSum_perm k horder, if_neg hne, intoPointWithEvenY_snd]
  rfl

end Honest

section SigningRound

variable (schnorr : Schnorr) {config : HierarchicalThresholdConfig} {F : Scalar[X]}
  {signers signerSet : List ParticipantId} {w : ParticipantId → Scalar} {session : SessionId}
  {k : ParticipantId → NonZeroScalar} {nonces : List HtssNoncePackage}

theorem find?_coefficientOf {signer : ParticipantId} (h : signer ∈ signerSet) :
    ((config.points signerSet).map (coefficientOf w)).find?
        (fun coefficient => coefficient.participantId == signer) =
      some (coefficientOf w (config.point signer)) := by
  induction signerSet with
  | nil => simp at h
  | cons s rest ih =>
    rw [HierarchicalThresholdConfig.points, List.map_cons, List.map_cons, List.find?_cons]
    by_cases hs : s = signer
    · subst hs
      simp [coefficientOf, HierarchicalThresholdConfig.point]
    · have hne : ((coefficientOf w (config.point s)).participantId == signer) = false := by
        simpa [coefficientOf, HierarchicalThresholdConfig.point] using hs
      rw [hne]
      exact ih ((List.mem_cons.mp h).resolve_left fun h => hs h.symm)

noncomputable def signatureShare (F : Scalar[X]) (w : ParticipantId → Scalar)
    (k : ParticipantId → NonZeroScalar) (signers : List ParticipantId) (negateKey : Bool) (P : Point)
    (digest : Bytes 32) (point : BirkhoffPoint) : Scalar :=
  conditionalNegate (isOddY (nonceSum k signers • generator)) (k point.participantId).val +
    conditionalNegate negateKey
      (schnorr.challenge (intoPointWithEvenY (nonceSum k signers • generator)).1 P digest) *
      (w point.participantId *
        (derivative^[point.derivativeOrder.toNat] F).eval (point.x.toNat : Scalar))

/-- What `signShareUnder` checks and reads, in its order. -/
theorem signShareUnder_eq_ok {xonlyKey digest : Bytes 32} {invalidKey : DkgKitError} {negateKey : Bool}
    {localShare : HtssLocalKeyShare} {nonce : HtssLocalNonce} {share : HtssSignatureSharePackage} :
    signShareUnder schnorr xonlyKey invalidKey negateKey digest localShare nonce nonces signerSet
        config = .ok share ↔
      localShare.participantId = nonce.package.participantId ∧ localShare.participantId ∈ signerSet ∧
      ∃ points, birkhoffPointsFromHierarchicalSignerSet signerSet config = .ok points ∧
      ∃ coefficients, birkhoffInterpolationCoefficients points = .ok coefficients ∧
      ∃ coefficient, (coefficients.find? fun coefficient =>
        coefficient.participantId == localShare.participantId) = some coefficient ∧
      localShare.rank = coefficient.derivativeOrder ∧
      ∃ aggregate, aggregateHtssPublicNonce nonces signerSet = .ok aggregate ∧
      aggregate.signingSessionId = nonce.package.signingSessionId ∧
      ∃ publicKey, pointFromXonlyBytes xonlyKey = some publicKey ∧
      ∃ secretNonce, scalarFromBytes nonce.secretNonceBytes = some secretNonce ∧
      ∃ coefficientValue, scalarFromBytes coefficient.coefficientBytes = some coefficientValue ∧
      ∃ shareValue, scalarFromBytes localShare.shareValueBytes = some shareValue ∧
      ⟨localShare.participantId, nonce.package.signingSessionId, scalarToBytes
        (conditionalNegate aggregate.negated secretNonce + conditionalNegate negateKey
          (schnorr.challenge aggregate.evenPublicNonce publicKey digest) *
            (coefficientValue * shareValue))⟩ = share := by
  simp only [signShareUnder, ifFail_eq_ok, bind_eq_ok, okOr_eq_ok, not_not, ne_eq, Except.ok.injEq]

theorem signShareUnder_eq (hc : config.Accepted) (hq : config.Quorum signers)
    (hw : Weights (config.points signers) w) (hk : nonceSum k signers ≠ 0)
    (hset : signerSet.Perm signers) (hnonces : nonces.Perm (signers.map (honestNonce session k)))
    {xonlyKey : Bytes 32} {P : Point} (hkey : pointFromXonlyBytes xonlyKey = some P)
    (invalidKey : DkgKitError) (negateKey : Bool) (digest : Bytes 32) {participant : RankedParticipant}
    (hp : participant ∈ config.participants) (hs : participant.id ∈ signers) :
    signShareUnder schnorr xonlyKey invalidKey negateKey digest (derivativeShare F participant)
        ⟨honestNonce session k participant.id, scalarToBytes (k participant.id).val⟩
        nonces signerSet config =
      .ok ⟨participant.id, session, scalarToBytes (signatureShare schnorr F w k signers negateKey P
        digest (config.point participant.id))⟩ := by
  have hpoint : config.point participant.id = ⟨participant.id, participant.id, participant.rank⟩ := by
    simp [HierarchicalThresholdConfig.point, hc.rankOf_of_mem hp]
  have hmem : participant.id ∈ signerSet := hset.mem_iff.mpr hs
  obtain ⟨w', hw', hpoints, hcoeff⟩ := (hq.perm hset.symm).exists_weights hc
  have hweight : w participant.id = w' participant.id := by
    have h := hw.unique hw' (hset.symm.map config.point) hq.det_ne_zero (List.mem_map_of_mem hs)
    rwa [hpoint] at h
  have hnonce := aggregateHtssPublicNonce_eq session k hq.distinct hset hnonces hk
  have hfind := @find?_coefficientOf config signerSet w' participant.id hmem
  rw [signatureShare, hpoint, hweight]
  rw [hpoint] at hfind
  exact (signShareUnder_eq_ok schnorr).mpr ⟨rfl, hmem, _, hpoints, _, hcoeff, _, hfind, rfl, _, hnonce,
    rfl, P, hkey, _, scalarFromBytes_toBytes _, _, scalarFromBytes_toBytes _, _,
    scalarFromBytes_toBytes _, rfl⟩

theorem sum_signatureShare (hw : Weights (config.points signers) w)
    (hF : F.degree < (config.points signers).length) (negateKey : Bool) (P : Point)
    (digest : Bytes 32) :
    ((config.points signers).map (signatureShare schnorr F w k signers negateKey P digest)).sum =
      conditionalNegate (isOddY (nonceSum k signers • generator)) (nonceSum k signers) +
        conditionalNegate negateKey (schnorr.challenge
          (intoPointWithEvenY (nonceSum k signers • generator)).1 P digest) * F.eval 0 := by
  have hnonce : ((config.points signers).map fun point =>
      conditionalNegate (isOddY (nonceSum k signers • generator)) (k point.participantId).val).sum =
        conditionalNegate (isOddY (nonceSum k signers • generator)) (nonceSum k signers) := by
    rw [conditionalNegate_eq_mul, nonceSum, ← List.sum_map_mul_left,
      HierarchicalThresholdConfig.points, List.map_map]
    exact congrArg List.sum (List.map_congr_left fun s _ => conditionalNegate_eq_mul _ _)
  rw [hw F hF, ← List.sum_map_mul_left, ← hnonce, ← List.sum_map_add]
  rfl

noncomputable def signaturePackage (config : HierarchicalThresholdConfig) (F : Scalar[X])
    (w : ParticipantId → Scalar) (session : SessionId) (k : ParticipantId → NonZeroScalar)
    (signers : List ParticipantId) (negateKey : Bool) (P : Point) (digest : Bytes 32)
    (signer : ParticipantId) : HtssSignatureSharePackage :=
  ⟨signer, session, scalarToBytes (signatureShare schnorr F w k signers negateKey P digest
    (config.point signer))⟩

theorem foldlM_addSignatureShare {value : ParticipantId → Scalar} (order : List ParticipantId)
    (s : Scalar) :
    (order.map fun signer => (⟨signer, session, scalarToBytes (value signer)⟩ :
      HtssSignatureSharePackage)).foldlM addSignatureShare s = .ok (s + (order.map value).sum) := by
  induction order generalizing s with
  | nil => simp [pure, Except.pure]
  | cons signer rest ih =>
    rw [List.map_cons, List.foldlM_cons, addSignatureShare, scalarFromBytes_toBytes, okOr, ok_bind,
      ok_bind, ih, List.map_cons, List.sum_cons, add_assoc]

theorem collectSignatureShares_eq (hc : config.Accepted) (hq : config.Quorum signers)
    (hk : nonceSum k signers ≠ 0) (hset : signerSet.Perm signers)
    (hnonces : nonces.Perm (signers.map (honestNonce session k))) {negateKey : Bool} {P : Point}
    {digest : Bytes 32} {shares : List HtssSignatureSharePackage} (hshares : shares.Perm
      (signers.map (signaturePackage schnorr config F w session k signers negateKey P digest))) :
    collectSignatureShares nonces shares signerSet config = .ok (⟨session,
      (intoPointWithEvenY (nonceSum k signers • generator)).1,
      isOddY (nonceSum k signers • generator)⟩,
      ((config.points signers).map (signatureShare schnorr F w k signers negateKey P digest)).sum) := by
  have hnonce := aggregateHtssPublicNonce_eq session k hq.distinct hset hnonces hk
  have hnd := hset.nodup_iff.mpr hq.distinct
  obtain ⟨_, hvalidNonces, -⟩ := bind_eq_ok.mp hnonce
  obtain ⟨order, horder, rfl⟩ := @exists_order_of_perm _ _ HtssSignatureSharePackage.participantId
    (fun _ => rfl) _ _ hshares
  have hids : (order.map (signaturePackage schnorr config F w session k signers negateKey P
      digest)).map HtssSignatureSharePackage.participantId = order := by
    rw [List.map_map]
    exact List.map_id' order
  have hvalidShares : validateHtssSignatureShareSet (order.map (signaturePackage schnorr config F w
      session k signers negateKey P digest)) signerSet = .ok () := by
    rw [validateHtssSignatureShareSet_eq_ok hnd, hids]
    refine ⟨horder.trans hset.symm, fun a ha b hb => ?_⟩
    obtain ⟨s, -, rfl⟩ := List.mem_map.mp ha
    obtain ⟨s', -, rfl⟩ := List.mem_map.mp hb
    rfl
  have hsigners : validateHierarchicalSignerSet signerSet config = .ok () :=
    (validateHierarchicalSignerSet_eq_ok hc).mpr (hq.toSignerSet.perm hset.symm)
  have hfold : (order.map (signaturePackage schnorr config F w session k signers negateKey P
      digest)).foldlM addSignatureShare 0 = .ok ((config.points signers).map
        (signatureShare schnorr F w k signers negateKey P digest)).sum := by
    refine (foldlM_addSignatureShare order 0).trans ?_
    rw [zero_add, HierarchicalThresholdConfig.points, List.map_map]
    exact congrArg Except.ok (horder.map _).sum_eq
  rw [collectSignatureShares, hsigners, ok_bind, hvalidNonces, ok_bind, hvalidShares, ok_bind,
    hnonce, ok_bind, hfold, ok_bind]

theorem AggregateSignature.new_toBytes (signature : Signature) :
    AggregateSignature.new signature.toBytes = .ok ⟨signature.toBytes⟩ := by
  have hlen : signature.toBytes.length = 64 := by
    simp [Signature.toBytes]
  rw [AggregateSignature.new, if_neg]
  intro h
  rw [List.isEmpty_iff.mp h] at hlen
  simp at hlen

end SigningRound

section Correctness

variable (schnorr : Schnorr) {config : HierarchicalThresholdConfig} {keySet : HtssLocalKeySet}
  {F : Scalar[X]} {signers : List ParticipantId}

theorem HtssLocalKeySet.Consistent.groupKey_point (h : keySet.Consistent config F) :
    pointFromXonlyBytes keySet.groupKey.xonlyPublicKey = some (F.eval 0 • generator) :=
  pointFromXonlyBytes_eq_some.mpr
    ⟨fun h0 => h.secret_ne_zero (smul_generator_eq_zero.mp h0), h.groupKey_eq.symm, h.even⟩

/-- A signature that satisfies the BIP340 equation under a public key. -/
structure Signature.Valid (signature : Signature) (P : Point) (digest : Bytes 32) : Prop where
  ne_zero : signature.R ≠ 0
  even : isOddY signature.R = false
  equation : signature.s • generator =
    signature.R + schnorr.challenge signature.R P digest • P

theorem Signature.Valid.verify {signature : Signature} {P : Point} {digest : Bytes 32}
    (h : signature.Valid schnorr P digest) : schnorr.verify P digest signature = true := by
  simp [Schnorr.verify, h.even, h.equation]

noncomputable def quorumSignature (config : HierarchicalThresholdConfig) (F : Scalar[X])
    (w : ParticipantId → Scalar) (k : ParticipantId → NonZeroScalar) (signers : List ParticipantId)
    (digest : Bytes 32) : Signature :=
  ⟨(intoPointWithEvenY (nonceSum k signers • generator)).1, ((config.points signers).map
    (signatureShare schnorr F w k signers false (F.eval 0 • generator) digest)).sum⟩

theorem quorumSignature_valid {w : ParticipantId → Scalar} (hw : Weights (config.points signers) w)
    (hdeg : F.degree < (config.points signers).length) {k : ParticipantId → NonZeroScalar}
    (hk : nonceSum k signers ≠ 0) (digest : Bytes 32) :
    (quorumSignature schnorr config F w k signers digest).Valid schnorr (F.eval 0 • generator)
      digest := by
  have hne : nonceSum k signers • generator ≠ 0 := fun h => hk (smul_generator_eq_zero.mp h)
  refine ⟨intoPointWithEvenY_ne_zero hne, isOddY_intoPointWithEvenY hne, ?_⟩
  rw [quorumSignature, sum_signatureShare schnorr hw hdeg, add_smul,
    conditionalNegate_smul_generator, mul_smul]
  rfl

theorem aggregateHtssSignatureShares_eq (hc : config.Accepted) (hkeys : keySet.Consistent config F)
    (hq : config.Quorum signers) {w : ParticipantId → Scalar}
    (hw : Weights (config.points signers) w) {session : SessionId} {k : ParticipantId → NonZeroScalar}
    (hk : nonceSum k signers ≠ 0) {digest : Bytes 32} {signerSet : List ParticipantId}
    (hset : signerSet.Perm signers) {nonces : List HtssNoncePackage}
    (hnonces : nonces.Perm (signers.map (honestNonce session k)))
    {shares : List HtssSignatureSharePackage} (hshares : shares.Perm (signers.map
      (signaturePackage schnorr config F w session k signers false (F.eval 0 • generator) digest))) :
    aggregateHtssSignatureShares schnorr keySet.groupKey digest nonces shares signerSet config =
      .ok ⟨(quorumSignature schnorr config F w k signers digest).toBytes⟩ := by
  have hdeg : F.degree < (config.points signers).length :=
    hkeys.degree_lt.trans_le (Nat.cast_le.mpr hq.length_points)
  have hverify := (quorumSignature_valid schnorr hw hdeg hk digest).verify
  rw [aggregateHtssSignatureShares, collectSignatureShares_eq schnorr hc hq hk hset hnonces hshares,
    ok_bind]
  simp only [hkeys.groupKey_point, okOr, ok_bind]
  rw [quorumSignature] at hverify ⊢
  rw [if_pos hverify, AggregateSignature.new_toBytes]

theorem sign_valid (keypair : KeyPair) (digest : Bytes 32) :
    (schnorr.sign keypair digest).Valid schnorr keypair.publicKey digest := by
  have hne : (schnorr.deriveNonce keypair digest).val • generator ≠ 0 := fun h =>
    (schnorr.deriveNonce keypair digest).property (smul_generator_eq_zero.mp h)
  refine ⟨intoPointWithEvenY_ne_zero hne, isOddY_intoPointWithEvenY hne, ?_⟩
  simp only [Schnorr.sign, intoPointWithEvenY_snd]
  rw [add_smul, conditionalNegate_smul_generator, mul_smul, keypair.publicKey_eq]

theorem signDigestWithLocalHtssShares_eq (hc : config.Accepted)
    (hkeys : keySet.Consistent config F) (hq : config.Quorum signers) (digest : Bytes 32) :
    signDigestWithLocalHtssShares schnorr keySet.groupKey digest keySet.shares signers config =
      .ok ⟨(schnorr.sign (newKeypair ⟨F.eval 0, hkeys.secret_ne_zero⟩) digest).toBytes⟩ := by
  have hpub := (newKeypair ⟨F.eval 0, hkeys.secret_ne_zero⟩).publicKey_eq
  rw [newKeypair_of_even hkeys.even] at hpub
  rw [signDigestWithLocalHtssShares,
    reconstructHtssSecretScalar_eq hc hkeys.degree_lt hkeys.shares_perm hq, ok_bind,
    nonZeroFromBytes_toBytes hkeys.secret_ne_zero, okOr, ok_bind]
  dsimp only
  rw [← hpub, if_neg (not_not.mpr hkeys.groupKey_eq.symm), AggregateSignature.new_toBytes]

/-- A signing round of the signers with their nonces, in which every party may have its
copies of the signer set, the nonces and the signature shares in an order of its own. -/
structure SigningRound (config : HierarchicalThresholdConfig) (keySet : HtssLocalKeySet)
    (signers : List ParticipantId) (digest : Bytes 32) (session : SessionId)
    (k : ParticipantId → NonZeroScalar) (P : Point) (share : ParticipantId → HtssSignatureSharePackage)
    (signature reconstructed : Signature) : Prop where
  key : pointFromXonlyBytes keySet.groupKey.xonlyPublicKey = some P
  signs : ∀ s ∈ signers, ∃ localShare ∈ keySet.shares, localShare.participantId = s ∧
    ∃ nonce, htssNonce session localShare (k s) = .ok nonce ∧
      nonce.package = honestNonce session k s ∧
      ∀ signerSet nonces, signerSet.Perm signers →
        nonces.Perm (signers.map (honestNonce session k)) →
        htssSignShare schnorr keySet.groupKey digest localShare nonce nonces signerSet config =
          .ok (share s)
  aggregates : ∀ signerSet nonces shares, signerSet.Perm signers →
    nonces.Perm (signers.map (honestNonce session k)) → shares.Perm (signers.map share) →
    aggregateHtssSignatureShares schnorr keySet.groupKey digest nonces shares signerSet config =
      .ok ⟨signature.toBytes⟩
  valid : signature.Valid schnorr P digest
  reconstructs : ∀ signerSet : List ParticipantId, signerSet.Perm signers →
    signDigestWithLocalHtssShares schnorr keySet.groupKey digest keySet.shares signerSet config =
      .ok ⟨reconstructed.toBytes⟩
  reconstructed_valid : reconstructed.Valid schnorr P digest

theorem HierarchicalThresholdConfig.Quorum.signingRound (hc : config.Accepted) (hkeys : keySet.Consistent config F)
    (hq : config.Quorum signers) (digest : Bytes 32) (session : SessionId)
    {k : ParticipantId → NonZeroScalar} (hk : nonceSum k signers ≠ 0) :
    ∃ P share signature reconstructed, SigningRound schnorr config keySet signers digest session k P
      share signature reconstructed := by
  obtain ⟨w, hw, -, -⟩ := hq.exists_weights hc
  have hdeg : F.degree < (config.points signers).length :=
    hkeys.degree_lt.trans_le (Nat.cast_le.mpr hq.length_points)
  have hpub := (newKeypair ⟨F.eval 0, hkeys.secret_ne_zero⟩).publicKey_eq
  rw [newKeypair_of_even hkeys.even] at hpub
  refine ⟨F.eval 0 • generator, signaturePackage schnorr config F w session k signers false
    (F.eval 0 • generator) digest, quorumSignature schnorr config F w k signers digest,
    schnorr.sign (newKeypair ⟨F.eval 0, hkeys.secret_ne_zero⟩) digest, hkeys.groupKey_point,
    fun s hs => ?_, fun signerSet nonces shares hset hnonces hshares =>
      aggregateHtssSignatureShares_eq schnorr hc hkeys hq hw hk hset hnonces hshares,
    quorumSignature_valid schnorr hw hdeg hk digest, fun signerSet hset =>
      signDigestWithLocalHtssShares_eq schnorr hc hkeys (hq.perm hset.symm) digest, ?_⟩
  · obtain ⟨rank, hrank⟩ := Option.isSome_iff_exists.mp (hq.members s hs)
    obtain ⟨p, hp, rfl, rfl⟩ := hc.rankOf_eq_some.mp hrank
    refine ⟨derivativeShare F p, hkeys.shares_perm.mem_iff.mpr (List.mem_map_of_mem hp), rfl, _, rfl,
      rfl, fun signerSet nonces hset hnonces => ?_⟩
    exact signShareUnder_eq schnorr hc hq hw hk hset hnonces hkeys.groupKey_point _ _ _ hp hs
  · exact hpub ▸ sign_valid schnorr (newKeypair ⟨F.eval 0, hkeys.secret_ne_zero⟩) digest

/-- Threshold signing is correct for every signer set that has coefficients, in any order
of every party's copies, and so is signing by reconstruction. -/
theorem htssSigning_correct {threshold : UInt16} {participants : List RankedParticipant}
    (hnew : HierarchicalThresholdConfig.new threshold participants = .ok config)
    (hkeys : keySet.Consistent config F)
    (hvalid : validateHierarchicalSignerSet signers config = .ok ())
    (hcoefficients : ∃ points coefficients,
      birkhoffPointsFromHierarchicalSignerSet signers config = .ok points ∧
        birkhoffInterpolationCoefficients points = .ok coefficients)
    (digest : Bytes 32) (session : SessionId) {k : ParticipantId → NonZeroScalar}
    (hk : (signers.map fun s => (k s).val).sum ≠ 0) :
    ∃ P share signature reconstructed, SigningRound schnorr config keySet signers digest session k P
      share signature reconstructed := by
  have hc := HierarchicalThresholdConfig.accepted_of_new hnew
  have hset := (validateHierarchicalSignerSet_eq_ok hc).mp hvalid
  obtain ⟨points, coefficients, hpoints, hcoeff⟩ := hcoefficients
  have hq := HierarchicalThresholdConfig.quorum_of_coefficients hc hpoints hcoeff
  have hquorum : config.Quorum signers := ⟨hset, hq.ids_ne_zero, hq.det_ne_zero⟩
  exact hquorum.signingRound schnorr hc hkeys digest session hk

def sampleSchnorr : Schnorr where
  challenge R P message :=
    (decode (pointToXonlyBytes R) + decode (pointToXonlyBytes P) + decode message : ℕ)
  deriveNonce _ _ := NonZeroScalar.one

theorem htssSigning_correct_pair : ∃ P share signature reconstructed,
    SigningRound sampleSchnorr pairConfig pairKeySet [1, 2] (List.Vector.replicate 32 0) "session"
      (fun _ => NonZeroScalar.one) P share signature reconstructed := by
  obtain ⟨w, -, hpoints, hcoeff⟩ := pairConfig_quorum.exists_weights
    (HierarchicalThresholdConfig.accepted_of_new pairConfig_new)
  exact htssSigning_correct sampleSchnorr pairConfig_new pairKeySet_dealt.toConsistent
    pairConfig_signerSet ⟨_, _, hpoints, hcoeff⟩ (List.Vector.replicate 32 0) "session"
    sum_ones_ne_zero

end Correctness

end DkgKit
