import DkgKit.Finalize
import DkgKit.OneShotTokens

/-! FROST signing sessions. A session holds at most one secret nonce: `nonce` stores it,
`sign_share` takes it out before it does anything else with the request. -/

open BigEndian LoopRules OneShotTokens

namespace DkgKit

section Sessions

structure SigningRequest where
  sessionId : SessionId
  groupKey : GroupKey
  messageDigest : Bytes 32
  signerSet : List ParticipantId
  deriving DecidableEq

def SigningRequest.new (sessionId : SessionId) (groupKey : GroupKey) (messageDigest : Bytes 32)
    (signerSet : List ParticipantId) (threshold : ThresholdConfig) : Result SigningRequest := do
  validateSignerSet signerSet threshold
  .ok ⟨sessionId, groupKey, messageDigest, signerSet⟩

/-- What signing sessions use of `schnorr_fun` and `bincode`. The coordinator's session panics
on fewer nonces than the threshold of the key, signing on a share that does not belong to the
signing session. -/
structure FrostSigner where
  Rng : Type
  PairedSecretShare : Type
  NonceKeyPair : Type
  Nonce : Type
  SharedKey : Type
  CoordinatorSignSession : Type
  PartySignSession : Type
  Signature : Type
  genNonce : PairedSecretShare → List UInt8 → Rng → NonceKeyPair
  publicNonce : NonceKeyPair → Nonce
  publicKey : SharedKey → Point
  coordinatorSignSession : SharedKey → (Scalar → Option Nonce) → Bytes 32 →
    Except Panic CoordinatorSignSession
  parties : CoordinatorSignSession → Finset Scalar
  aggBinonce : CoordinatorSignSession → Nonce
  partySignSession : Point → Finset Scalar → Nonce → Bytes 32 → PartySignSession
  sign : PartySignSession → PairedSecretShare → NonceKeyPair → Except Panic Scalar
  verifyAndCombine : CoordinatorSignSession → SharedKey → (Scalar → Option Scalar) → Except String Signature
  pairedShares : Binary PairedSecretShare
  sharedKeys : Binary SharedKey
  nonces : Binary Nonce
  signatureShares : Binary Scalar
  signatures : Binary Signature

variable (frost : FrostSigner)

def noncesLoop (request : SigningRequest) :
    List NoncePackage → (Scalar → Option frost.Nonce) → ℕ → Result ((Scalar → Option frost.Nonce) × ℕ)
  | [], map, len => .ok (map, len)
  | nonce :: rest, map, len =>
    if nonce.signingSessionId ≠ request.sessionId then fail (.protocol "nonce session mismatch")
    else if nonce.participantId ∉ request.signerSet then
      fail (.protocol s!"nonce participant {nonce.participantId} is not in signer set")
    else do
      let publicNonce ← serialized (frost.nonces.deserialize nonce.publicNonceBytes)
      let index ← participantShareIndex nonce.participantId
      if (map index).isSome then fail (.duplicateParticipantId nonce.participantId)
      else noncesLoop request rest (Function.update map index (some publicNonce)) (len + 1)

def noncesToMap (nonces : List NoncePackage) (request : SigningRequest) :
    Result (Scalar → Option frost.Nonce) := do
  let (map, len) ← noncesLoop frost request nonces (fun _ => none) 0
  if len ≠ request.signerSet.length then
    fail (.protocol s!"nonce set mismatch: have {len}, need {request.signerSet.length}")
  else .ok map

def validateSignatureShareSet (shares : List SignatureSharePackage) (request : SigningRequest) :
    Result Unit := do
  let seen ← distinctLoop SignatureSharePackage.participantId
    (fun share => .err (.duplicateParticipantId share.participantId))
    (fun share =>
      if share.signingSessionId ≠ request.sessionId then
        fail (.protocol "signature share session mismatch")
      else if share.participantId ∉ request.signerSet then
        fail (.protocol s!"signature share participant {share.participantId} is not in signer set")
      else .ok ())
    (fun _ => .ok ()) shares ∅
  if seen.card ≠ request.signerSet.length then
    fail (.protocol s!"signature share set mismatch: have {seen.card}, need {request.signerSet.length}")
  else .ok ()

/-- The nonce package that a signature share repeats. -/
def SignatureSharePackage.noncePackage (share : SignatureSharePackage) : NoncePackage :=
  ⟨share.participantId, share.signingSessionId, share.publicNonceBytes⟩

structure FrostSigningSession where
  request : SigningRequest
  nonceRuntime : Option frost.NonceKeyPair

namespace FrostSigningSession

variable {frost}

def new (request : SigningRequest) : FrostSigningSession frost := ⟨request, none⟩

/-- `nonce`, together with the pair that it has drawn. -/
def nonce (session : FrostSigningSession frost) (localShare : LocalKeyShare) (rng : frost.Rng) :
    Result NoncePackage × Option frost.NonceKeyPair × FrostSigningSession frost :=
  if localShare.groupKey ≠ session.request.groupKey then
    (fail (.protocol "local share group key does not match signing request"), none, session)
  else
    match serialized (frost.pairedShares.deserialize localShare.secretShareBytes) with
    | .error fault => (.error fault, none, session)
    | .ok pairedShare =>
      let nonce := frost.genNonce pairedShare (asBytes session.request.sessionId) rng
      match serialized (frost.nonces.serialize (frost.publicNonce nonce)) with
      | .error fault => (.error fault, some nonce, session)
      | .ok bytes => (.ok ⟨localShare.participantId, session.request.sessionId, bytes⟩, some nonce,
          { session with nonceRuntime := some nonce })

/-- What `sign_share` computes between taking the secret nonce and signing with it. -/
def prepareShare (request : SigningRequest) (localShare : LocalKeyShare) (nonces : List NoncePackage) :
    Result (List UInt8 × frost.PairedSecretShare × frost.PartySignSession) := do
  let own ← okOr (.protocol "missing local public nonce")
    (nonces.find? fun package => package.participantId == localShare.participantId)
  let pairedShare ← serialized (frost.pairedShares.deserialize localShare.secretShareBytes)
  let sharedKey ← serialized (frost.sharedKeys.deserialize request.groupKey.verificationKeyBytes)
  let noncesMap ← noncesToMap frost nonces request
  let coordSession ← returned (frost.coordinatorSignSession sharedKey noncesMap request.messageDigest)
  .ok (own.publicNonceBytes, pairedShare, frost.partySignSession (frost.publicKey sharedKey)
    (frost.parties coordSession) (frost.aggBinonce coordSession) request.messageDigest)

/-- `sign_share`, together with the pair that it has passed to the signing operation. -/
def signShare (session : FrostSigningSession frost) (localShare : LocalKeyShare)
    (nonces : List NoncePackage) :
    Result SignatureSharePackage × Option frost.NonceKeyPair × FrostSigningSession frost :=
  if localShare.groupKey ≠ session.request.groupKey then
    (fail (.protocol "local share group key does not match signing request"), none, session)
  else if localShare.participantId ∉ session.request.signerSet then
    (fail (.protocol s!"participant {localShare.participantId} is not in signer set"), none, session)
  else
    match session.nonceRuntime with
    | none => (fail (.protocol "nonce must be generated before sign_share"), none, session)
    | some nonce =>
      -- taken: every later exit leaves the session without a nonce
      let session := { session with nonceRuntime := none }
      match prepareShare session.request localShare nonces with
      | .error fault => (.error fault, none, session)
      | .ok (ownPublicNonceBytes, pairedShare, signSession) =>
        match frost.sign signSession pairedShare nonce with
        | .error panic => (.error (.panic panic), some nonce, session)
        | .ok sigShare =>
          match serialized (frost.signatureShares.serialize sigShare) with
          | .error fault => (.error fault, some nonce, session)
          | .ok bytes => (.ok ⟨localShare.participantId, session.request.sessionId, ownPublicNonceBytes,
              bytes⟩, some nonce, session)

def addSigShare (sigShares : Scalar → Option Scalar) (share : SignatureSharePackage) :
    Result (Scalar → Option Scalar) := do
  let sigShare ← serialized (frost.signatureShares.deserialize share.signatureShareBytes)
  let index ← participantShareIndex share.participantId
  .ok (Function.update sigShares index (some sigShare))

def aggregate (session : FrostSigningSession frost) (shares : List SignatureSharePackage) :
    Result AggregateSignature := do
  validateSignatureShareSet shares session.request
  let sharedKey ← serialized (frost.sharedKeys.deserialize session.request.groupKey.verificationKeyBytes)
  let nonces := shares.map SignatureSharePackage.noncePackage
  let noncesMap ← noncesToMap frost nonces session.request
  let coordSession ← returned
    (frost.coordinatorSignSession sharedKey noncesMap session.request.messageDigest)
  let sigShares ← shares.foldlM (@addSigShare frost) (fun _ => none)
  let signature ← match frost.verifyAndCombine coordSession sharedKey sigShares with
    | .ok signature => .ok signature
    | .error err => fail (.protocol s!"signature share verification failed: {err}")
  let bytes ← serialized (frost.signatures.serialize signature)
  AggregateSignature.new bytes

end FrostSigningSession

end Sessions

section Shares

variable {frost : FrostSigner} {session : FrostSigningSession frost} {localShare : LocalKeyShare}
  {nonces : List NoncePackage}

/-- What a call of `sign_share` can do. From the taking of the nonce on the session is left
without one. -/
inductive SignShareCase (session : FrostSigningSession frost) (localShare : LocalKeyShare)
    (nonces : List NoncePackage) :
    Result SignatureSharePackage × Option frost.NonceKeyPair × FrostSigningSession frost → Prop
  | refused (error : DkgKitError) (reason : localShare.groupKey ≠ session.request.groupKey ∨
      localShare.participantId ∉ session.request.signerSet ∨ session.nonceRuntime = none) :
      SignShareCase session localShare nonces (fail error, none, session)
  | unprepared (nonce : frost.NonceKeyPair) (fault : Fault) (runtime : session.nonceRuntime = some nonce)
      (prepare : @FrostSigningSession.prepareShare frost session.request localShare nonces = .error fault) :
      SignShareCase session localShare nonces (.error fault, none, { session with nonceRuntime := none })
  | panicked (nonce : frost.NonceKeyPair)
      (prepared : List UInt8 × frost.PairedSecretShare × frost.PartySignSession) (panic : Panic)
      (runtime : session.nonceRuntime = some nonce)
      (prepare : FrostSigningSession.prepareShare session.request localShare nonces = .ok prepared)
      (sign : frost.sign prepared.2.2 prepared.2.1 nonce = .error panic) :
      SignShareCase session localShare nonces
        (.error (.panic panic), some nonce, { session with nonceRuntime := none })
  | unserialized (nonce : frost.NonceKeyPair) (text : String) (runtime : session.nonceRuntime = some nonce) :
      SignShareCase session localShare nonces
        (fail (.serialization text), some nonce, { session with nonceRuntime := none })
  | signed (nonce : frost.NonceKeyPair)
      (prepared : List UInt8 × frost.PairedSecretShare × frost.PartySignSession) (sigShare : Scalar)
      (bytes : List UInt8) (key : localShare.groupKey = session.request.groupKey)
      (member : localShare.participantId ∈ session.request.signerSet)
      (runtime : session.nonceRuntime = some nonce)
      (prepare : FrostSigningSession.prepareShare session.request localShare nonces = .ok prepared)
      (sign : frost.sign prepared.2.2 prepared.2.1 nonce = .ok sigShare)
      (serialize : frost.signatureShares.serialize sigShare = .ok bytes) :
      SignShareCase session localShare nonces
        (.ok ⟨localShare.participantId, session.request.sessionId, prepared.1, bytes⟩, some nonce,
          { session with nonceRuntime := none })

theorem signShare_cases (session : FrostSigningSession frost) (localShare : LocalKeyShare)
    (nonces : List NoncePackage) :
    SignShareCase session localShare nonces (session.signShare localShare nonces) := by
  rw [FrostSigningSession.signShare]
  by_cases hkey : localShare.groupKey = session.request.groupKey
  case neg =>
    rw [if_pos hkey]
    exact .refused _ (.inl hkey)
  by_cases hmem : localShare.participantId ∈ session.request.signerSet
  case neg =>
    rw [if_neg (not_not.mpr hkey), if_pos hmem]
    exact .refused _ (.inr (.inl hmem))
  rw [if_neg (not_not.mpr hkey), if_neg (not_not.mpr hmem)]
  cases hruntime : session.nonceRuntime with
  | none => exact .refused _ (.inr (.inr hruntime))
  | some nonce =>
    cases hprepare : @FrostSigningSession.prepareShare frost session.request localShare nonces with
    | error fault =>
      simp only [hprepare]
      exact .unprepared nonce fault hruntime hprepare
    | ok prepared =>
      cases hsign : frost.sign prepared.2.2 prepared.2.1 nonce with
      | error panic =>
        simp only [hprepare, hsign]
        exact .panicked nonce prepared panic hruntime hprepare hsign
      | ok sigShare =>
        cases hbytes : frost.signatureShares.serialize sigShare with
        | error text =>
          simp only [hprepare, hsign, hbytes, serialized]
          exact .unserialized nonce text hruntime
        | ok bytes =>
          simp only [hprepare, hsign, hbytes, serialized]
          exact .signed nonce prepared sigShare bytes hkey hmem hruntime hprepare hsign hbytes

theorem signShare_eq_ok {share : SignatureSharePackage} :
    (session.signShare localShare nonces).1 = .ok share ↔
      localShare.groupKey = session.request.groupKey ∧
      localShare.participantId ∈ session.request.signerSet ∧
      ∃ nonce prepared sigShare bytes, session.nonceRuntime = some nonce ∧
        FrostSigningSession.prepareShare session.request localShare nonces = .ok prepared ∧
        frost.sign prepared.2.2 prepared.2.1 nonce = .ok sigShare ∧
        frost.signatureShares.serialize sigShare = .ok bytes ∧
        share = ⟨localShare.participantId, session.request.sessionId, prepared.1, bytes⟩ := by
  constructor
  · have hcases := signShare_cases session localShare nonces
    generalize session.signShare localShare nonces = result at hcases
    intro h
    cases hcases with
    | refused => cases h
    | unprepared => cases h
    | panicked => cases h
    | unserialized => cases h
    | signed nonce prepared sigShare bytes hkey hmem hruntime hprepare hsign hbytes =>
      exact ⟨hkey, hmem, nonce, prepared, sigShare, bytes, hruntime, hprepare, hsign, hbytes,
        (Except.ok.inj h).symm⟩
  · rintro ⟨hkey, hmem, nonce, prepared, sigShare, bytes, hruntime, hprepare, hsign, hbytes, rfl⟩
    simp [FrostSigningSession.signShare, hkey, hmem, hruntime, hprepare, hsign, hbytes, serialized]

theorem signShare_signed {share : SignatureSharePackage} {pair : frost.NonceKeyPair}
    (hshare : (session.signShare localShare nonces).1 = .ok share) (hpair : session.nonceRuntime = some pair) :
    (session.signShare localShare nonces).2.1 = some pair := by
  have hcases := signShare_cases session localShare nonces
  generalize session.signShare localShare nonces = result at hcases hshare
  cases hcases with
  | refused => cases hshare
  | unprepared => cases hshare
  | panicked => cases hshare
  | unserialized => cases hshare
  | signed _ _ _ _ _ _ hruntime => exact hruntime.symm.trans hpair

theorem signShare_takes_nonce (hkey : localShare.groupKey = session.request.groupKey)
    (hmem : localShare.participantId ∈ session.request.signerSet) :
    (session.signShare localShare nonces).2.2.nonceRuntime = none := by
  have hcases := signShare_cases session localShare nonces
  generalize session.signShare localShare nonces = result at hcases
  cases hcases with
  | refused _ hreason =>
    rcases hreason with hkey' | hmem' | hnone
    · exact absurd hkey hkey'
    · exact absurd hmem hmem'
    · exact hnone
  | unprepared => rfl
  | panicked => rfl
  | unserialized => rfl
  | signed => rfl

end Shares

section Runs

inductive SigningCall (frost : FrostSigner)
  | nonce (localShare : LocalKeyShare) (rng : frost.Rng)
  | signShare (localShare : LocalKeyShare) (nonces : List NoncePackage)
  | aggregate (shares : List SignatureSharePackage)

inductive SigningReply
  | nonce (result : Result NoncePackage)
  | share (result : Result SignatureSharePackage)
  | signature (result : Result AggregateSignature)

/-- What is recorded of a call: the session it went to, its result, and the secret nonces
that it has drawn and passed to the signing operation. -/
structure SigningRecord (frost : FrostSigner) (ι : Type) where
  session : ι
  reply : SigningReply
  drawn : Option frost.NonceKeyPair
  signed : Option frost.NonceKeyPair

structure SigningRun (frost : FrostSigner) (ι : Type) where
  sessions : ι → FrostSigningSession frost
  records : List (SigningRecord frost ι)

variable {frost : FrostSigner} {ι : Type}

inductive NonceStep (request : SigningRequest) (record : SigningRecord frost ι) :
    Option frost.NonceKeyPair → Option frost.NonceKeyPair → Prop
  | kept (runtime : Option frost.NonceKeyPair) (signed : record.signed = none)
      (noNonce : ∀ package, record.reply ≠ .nonce (.ok package))
      (noShare : ∀ package, record.reply ≠ .share (.ok package)) : NonceStep request record runtime runtime
  | stored (runtime : Option frost.NonceKeyPair) (pair : frost.NonceKeyPair) (id : ParticipantId)
      (bytes : List UInt8) (drawn : record.drawn = some pair) (signed : record.signed = none)
      (encodes : frost.nonces.serialize (frost.publicNonce pair) = .ok bytes)
      (reply : record.reply = .nonce (.ok ⟨id, request.sessionId, bytes⟩)) :
      NonceStep request record runtime (some pair)
  | taken (pair : frost.NonceKeyPair) (drawn : record.drawn = none)
      (signed : record.signed = none ∨ record.signed = some pair)
      (noNonce : ∀ package, record.reply ≠ .nonce (.ok package)) : NonceStep request record (some pair) none

theorem nonce_step (session : FrostSigningSession frost) (localShare : LocalKeyShare) (rng : frost.Rng)
    (i : ι) : (session.nonce localShare rng).2.2.request = session.request ∧
      NonceStep session.request
        (⟨i, .nonce (session.nonce localShare rng).1, (session.nonce localShare rng).2.1, none⟩ :
          SigningRecord frost ι)
        session.nonceRuntime (session.nonce localShare rng).2.2.nonceRuntime := by
  rw [FrostSigningSession.nonce]
  by_cases hkey : localShare.groupKey = session.request.groupKey
  case neg =>
    rw [if_pos hkey]
    exact ⟨rfl, .kept _ rfl (by simp) (by simp)⟩
  rw [if_neg (not_not.mpr hkey)]
  cases hshare : serialized (frost.pairedShares.deserialize localShare.secretShareBytes) with
  | error fault => exact ⟨rfl, .kept _ rfl (by simp) (by simp)⟩
  | ok pairedShare =>
    cases hbytes : serialized (frost.nonces.serialize (frost.publicNonce
        (frost.genNonce pairedShare (asBytes session.request.sessionId) rng))) with
    | error fault =>
      simp only [hbytes]
      exact ⟨trivial, .kept _ rfl (by simp) (by simp)⟩
    | ok bytes =>
      simp only [hbytes]
      exact ⟨trivial, .stored _ _ _ bytes rfl rfl (serialized_eq_ok.mp hbytes) rfl⟩

theorem signShare_step (session : FrostSigningSession frost) (localShare : LocalKeyShare)
    (nonces : List NoncePackage) (i : ι) :
    (session.signShare localShare nonces).2.2.request = session.request ∧
      NonceStep session.request
        (⟨i, .share (session.signShare localShare nonces).1, none,
          (session.signShare localShare nonces).2.1⟩ : SigningRecord frost ι)
        session.nonceRuntime (session.signShare localShare nonces).2.2.nonceRuntime := by
  have hcases := signShare_cases session localShare nonces
  generalize session.signShare localShare nonces = result at hcases ⊢
  cases hcases with
  | refused => exact ⟨rfl, .kept _ rfl (by simp) (by simp)⟩
  | unprepared pair fault hruntime =>
    rw [hruntime]
    exact ⟨rfl, .taken pair rfl (.inl rfl) (by simp)⟩
  | panicked pair _ _ hruntime =>
    rw [hruntime]
    exact ⟨rfl, .taken pair rfl (.inr rfl) (by simp)⟩
  | unserialized pair _ hruntime =>
    rw [hruntime]
    exact ⟨rfl, .taken pair rfl (.inr rfl) (by simp)⟩
  | signed pair _ _ _ _ _ hruntime =>
    rw [hruntime]
    exact ⟨rfl, .taken pair rfl (.inr rfl) (by simp)⟩

/-- The nonce package was returned for the pair that the session holds, and since then no
call of the session has returned another package or a signature share. -/
def HeldSince (request : SigningRequest) (records : List (SigningRecord frost ι)) (i : ι)
    (pair : frost.NonceKeyPair) (package : NoncePackage) : Prop :=
  ∃ before record after, records = before ++ record :: after ∧ record.session = i ∧
    record.drawn = some pair ∧ record.reply = .nonce (.ok package) ∧
    package.signingSessionId = request.sessionId ∧
    frost.nonces.serialize (frost.publicNonce pair) = .ok package.publicNonceBytes ∧
    ∀ later ∈ after, later.session = i →
      (∀ package', later.reply ≠ .nonce (.ok package')) ∧ ∀ share, later.reply ≠ .share (.ok share)

theorem HeldSince.snoc {request : SigningRequest} {records : List (SigningRecord frost ι)} {i : ι}
    {pair : frost.NonceKeyPair} {package : NoncePackage} (h : HeldSince request records i pair package)
    {record : SigningRecord frost ι} (hrecord : record.session = i →
      (∀ package', record.reply ≠ .nonce (.ok package')) ∧ ∀ share, record.reply ≠ .share (.ok share)) :
    HeldSince request (records ++ [record]) i pair package := by
  obtain ⟨before, first, after, rfl, hsession, hdrawn, hreply, hid, hbytes, hafter⟩ := h
  refine ⟨before, first, after ++ [record], by simp, hsession, hdrawn, hreply, hid, hbytes, ?_⟩
  intro later hlater
  rcases List.mem_append.mp hlater with hlater | hlater
  · exact hafter later hlater
  · rw [List.mem_singleton.mp hlater]
    exact hrecord

variable [DecidableEq ι]

namespace SigningRun

def start (requests : ι → SigningRequest) : SigningRun frost ι :=
  ⟨fun i => FrostSigningSession.new (requests i), []⟩

def perform (run : SigningRun frost ι) (call : ι × SigningCall frost) : SigningRun frost ι :=
  match call with
  | (i, .nonce localShare rng) =>
    let (result, drawn, session) := (run.sessions i).nonce localShare rng
    ⟨Function.update run.sessions i session, run.records ++ [⟨i, .nonce result, drawn, none⟩]⟩
  | (i, .signShare localShare nonces) =>
    let (result, signed, session) := (run.sessions i).signShare localShare nonces
    ⟨Function.update run.sessions i session, run.records ++ [⟨i, .share result, none, signed⟩]⟩
  | (i, .aggregate shares) =>
    ⟨run.sessions, run.records ++ [⟨i, .signature ((run.sessions i).aggregate shares), none, none⟩]⟩

def after (requests : ι → SigningRequest) (calls : List (ι × SigningCall frost)) : SigningRun frost ι :=
  calls.foldl perform (start requests)

theorem after_append_singleton (requests : ι → SigningRequest) (calls : List (ι × SigningCall frost))
    (call : ι × SigningCall frost) :
    after requests (calls ++ [call]) = (after requests calls).perform call := by
  rw [after, List.foldl_append]
  rfl

def drawn (run : SigningRun frost ι) : List frost.NonceKeyPair := run.records.filterMap SigningRecord.drawn

def signed (run : SigningRun frost ι) : List frost.NonceKeyPair := run.records.filterMap SigningRecord.signed

end SigningRun

/-- A call adds one record and changes the nonce of its own session only. -/
theorem perform_spec (run : SigningRun frost ι) (call : ι × SigningCall frost) : ∃ record,
    (run.perform call).records = run.records ++ [record] ∧ record.session = call.1 ∧
      (∀ j, j ≠ call.1 → (run.perform call).sessions j = run.sessions j) ∧
      ((run.perform call).sessions call.1).request = (run.sessions call.1).request ∧
      NonceStep (run.sessions call.1).request record (run.sessions call.1).nonceRuntime
        ((run.perform call).sessions call.1).nonceRuntime := by
  obtain ⟨i, call⟩ := call
  cases call with
  | nonce localShare rng =>
    obtain ⟨hrequest, hstep⟩ := nonce_step (run.sessions i) localShare rng i
    refine ⟨⟨i, .nonce ((run.sessions i).nonce localShare rng).1,
      ((run.sessions i).nonce localShare rng).2.1, none⟩, rfl, rfl,
      fun j hj => Function.update_of_ne hj _ _, ?_, ?_⟩
    · simpa [SigningRun.perform] using hrequest
    · simpa [SigningRun.perform] using hstep
  | signShare localShare nonces =>
    obtain ⟨hrequest, hstep⟩ := signShare_step (run.sessions i) localShare nonces i
    refine ⟨⟨i, .share ((run.sessions i).signShare localShare nonces).1, none,
      ((run.sessions i).signShare localShare nonces).2.1⟩, rfl, rfl,
      fun j hj => Function.update_of_ne hj _ _, ?_, ?_⟩
    · simpa [SigningRun.perform] using hrequest
    · simpa [SigningRun.perform] using hstep
  | aggregate shares =>
    exact ⟨_, rfl, rfl, fun _ _ => rfl, rfl, .kept _ rfl (by simp) (by simp)⟩

def SigningRun.ledger (run : SigningRun frost ι) : Ledger ι frost.NonceKeyPair :=
  ⟨fun i => (run.sessions i).nonceRuntime, run.drawn, run.signed⟩

theorem perform_sound {run : SigningRun frost ι} (h : run.ledger.Sound) (call : ι × SigningCall frost)
    (hfresh : (run.perform call).drawn.Nodup) : (run.perform call).ledger.Sound := by
  obtain ⟨record, hrecords, -, hother, -, hstep⟩ := perform_spec run call
  have hdrawn : (run.perform call).drawn = run.drawn ++ record.drawn.toList := by
    rw [SigningRun.drawn, hrecords, List.filterMap_append]
    cases hd : record.drawn <;> simp [SigningRun.drawn, hd]
  have hsigned : (run.perform call).signed = run.signed ++ record.signed.toList := by
    rw [SigningRun.signed, hrecords, List.filterMap_append]
    cases hs : record.signed <;> simp [SigningRun.signed, hs]
  have hheld : (run.perform call).ledger.held = Function.update run.ledger.held call.1
      ((run.perform call).sessions call.1).nonceRuntime := by
    funext j
    by_cases hj : j = call.1
    · rw [hj, Function.update_self]
      rfl
    · rw [Function.update_of_ne hj]
      exact congrArg FrostSigningSession.nonceRuntime (hother j hj)
  have hledger : (run.perform call).ledger = ⟨_, _, _⟩ :=
    congrArg₂ (fun held drawn => Ledger.mk held drawn (run.perform call).signed) hheld hdrawn
  rw [hledger, hsigned]
  rw [hdrawn] at hfresh
  generalize hbefore : (run.sessions call.1).nonceRuntime = before at hstep
  generalize ((run.perform call).sessions call.1).nonceRuntime = after at hstep
  cases hstep with
  | kept _ hnone _ _ =>
    have hsame : Function.update run.ledger.held call.1 before = run.ledger.held := by
      rw [← hbefore]
      exact Function.update_eq_self _ _
    rw [hsame, hnone, Option.toList_none, List.append_nil]
    cases record.drawn with
    | none =>
      rw [Option.toList_none, List.append_nil]
      exact h
    | some pair => exact h.issue pair
  | stored _ pair _ _ hpair hnone _ _ =>
    rw [hpair, Option.toList_some] at hfresh
    rw [hpair, hnone, Option.toList_some, Option.toList_none, List.append_nil]
    refine h.store call.1 fun hmem => ?_
    exact List.disjoint_of_nodup_append hfresh hmem (List.mem_singleton_self pair)
  | taken pair hnone hpair _ =>
    rw [hnone, Option.toList_none, List.append_nil]
    rcases hpair with hpair | hpair
    · rw [hpair, Option.toList_none, List.append_nil]
      exact h.discard call.1
    · rw [hpair, Option.toList_some]
      exact h.use hbefore

theorem after_sound (requests : ι → SigningRequest) (calls : List (ι × SigningCall frost))
    (hfresh : (SigningRun.after requests calls).drawn.Nodup) :
    (SigningRun.after requests calls).ledger.Sound := by
  induction calls using List.reverseRecOn with
  | nil => exact Ledger.sound_empty
  | append_singleton calls call ih =>
    rw [SigningRun.after_append_singleton] at hfresh ⊢
    refine perform_sound (ih ?_) call hfresh
    obtain ⟨record, hrecords, -⟩ := perform_spec (SigningRun.after requests calls) call
    rw [SigningRun.drawn, hrecords, List.filterMap_append] at hfresh
    exact hfresh.of_append_left

theorem after_request (requests : ι → SigningRequest) (calls : List (ι × SigningCall frost)) (i : ι) :
    ((SigningRun.after requests calls).sessions i).request = requests i := by
  induction calls using List.reverseRecOn with
  | nil => rfl
  | append_singleton calls call ih =>
    rw [SigningRun.after_append_singleton]
    obtain ⟨record, -, -, hother, hrequest, -⟩ := perform_spec (SigningRun.after requests calls) call
    by_cases hi : i = call.1
    · rw [hi, hrequest, ← hi, ih]
    · rw [hother i hi, ih]

theorem after_heldSince (requests : ι → SigningRequest) (calls : List (ι × SigningCall frost)) (i : ι)
    {pair : frost.NonceKeyPair}
    (hpair : ((SigningRun.after requests calls).sessions i).nonceRuntime = some pair) :
    ∃ package, HeldSince (requests i) (SigningRun.after requests calls).records i pair package := by
  induction calls using List.reverseRecOn generalizing i pair with
  | nil => cases hpair
  | append_singleton calls call ih =>
    have hrequest := after_request requests calls call.1
    rw [SigningRun.after_append_singleton] at hpair ⊢
    obtain ⟨record, hrecords, hsession, hother, -, hstep⟩ :=
      perform_spec (SigningRun.after requests calls) call
    rw [hrecords]
    by_cases hi : i = call.1
    · subst hi
      rw [hpair, hrequest] at hstep
      generalize hbefore : ((SigningRun.after requests calls).sessions call.1).nonceRuntime = before at hstep
      cases hstep with
      | kept _ _ hnonce hshare =>
        obtain ⟨package, hheld⟩ := ih call.1 hbefore
        exact ⟨package, hheld.snoc fun _ => ⟨hnonce, hshare⟩⟩
      | stored _ _ id bytes hdrawn _ hencodes hreply =>
        exact ⟨_, _, record, [], rfl, hsession, hdrawn, hreply, rfl, hencodes, by simp⟩
    · rw [hother i hi] at hpair
      obtain ⟨package, hheld⟩ := ih i hpair
      exact ⟨package, hheld.snoc fun h => absurd (h.symm.trans hsession) hi⟩

end Runs

section Instances

/-- Nonces and signature shares are single bytes, and signing returns the nonce. -/
abbrev plainFrost : FrostSigner where
  Rng := UInt8
  PairedSecretShare := Unit
  NonceKeyPair := UInt8
  Nonce := UInt8
  SharedKey := Unit
  CoordinatorSignSession := Unit
  PartySignSession := Unit
  Signature := Unit
  genNonce := fun _ _ rng => rng
  publicNonce := fun nonce => nonce
  publicKey := fun _ => 0
  coordinatorSignSession := fun _ _ _ => .ok ()
  parties := fun _ => ∅
  aggBinonce := fun _ => 0
  partySignSession := fun _ _ _ _ => ()
  sign := fun _ _ nonce => .ok nonce.toNat
  verifyAndCombine := fun _ _ _ => .ok ()
  pairedShares := ⟨fun _ => .ok [], fun _ => .ok ()⟩
  sharedKeys := ⟨fun _ => .ok [], fun _ => .ok ()⟩
  nonces := ⟨fun nonce => .ok [nonce], fun bytes => .ok bytes.headI⟩
  signatureShares := ⟨fun _ => .ok [], fun _ => .ok 0⟩
  signatures := ⟨fun _ => .ok [], fun _ => .ok ()⟩

def plainRequest : SigningRequest := ⟨"sign-demo", ⟨List.Vector.replicate 32 0, []⟩, List.Vector.replicate 32 0, [1, 2]⟩

def plainShare : LocalKeyShare := ⟨1, plainRequest.groupKey, []⟩

theorem noncesToMap_plain (first second : UInt8) :
    ∃ map, noncesToMap plainFrost [⟨1, "sign-demo", [first]⟩, ⟨2, "sign-demo", [second]⟩] plainRequest =
      .ok map := by
  have h1 : participantShareIndex 1 = .ok ((1 : UInt16).toNat : Scalar) :=
    participantShareIndex_eq (by decide)
  have h2 : participantShareIndex 2 = .ok ((2 : UInt16).toNat : Scalar) :=
    participantShareIndex_eq (by decide)
  have hne : ((2 : UInt16).toNat : Scalar) ≠ (1 : UInt16).toNat := fun h =>
    absurd ((scalar_natCast_inj (by decide) (by decide)).mp h) (by decide)
  have hnew : Function.update (fun _ : Scalar => none) ((1 : UInt16).toNat : Scalar)
      (some [first].headI) ((2 : UInt16).toNat : Scalar) = none := Function.update_of_ne hne _ _
  simp only [noncesToMap, noncesLoop, serialized, h1, h2, ok_bind, hnew]
  exact ⟨_, rfl⟩

theorem signShare_plain (pair first second : UInt8) :
    ((⟨plainRequest, some pair⟩ : FrostSigningSession plainFrost).signShare plainShare
      [⟨1, "sign-demo", [first]⟩, ⟨2, "sign-demo", [second]⟩]).1 = .ok ⟨1, "sign-demo", [first], []⟩ := by
  obtain ⟨map, hmap⟩ := noncesToMap_plain first second
  refine signShare_eq_ok.mpr ⟨rfl, List.mem_cons_self, pair, ([first], (), ()), pair.toNat, [], rfl, ?_, rfl, rfl,
    rfl⟩
  change (noncesToMap plainFrost _ plainRequest >>= _) = _
  rw [hmap]
  rfl

end Instances

/-- Over every interleaving of calls on any sessions, a secret nonce is signed with at most
once. A `sign_share` past its first two checks leaves its session without a nonce, and one
that succeeds comes after a `nonce` that no successful `sign_share` of the session has
followed. -/
theorem nonce_signed_at_most_once {frost : FrostSigner} {ι : Type} [DecidableEq ι]
    (requests : ι → SigningRequest) (calls : List (ι × SigningCall frost)) :
    let run := SigningRun.after requests calls
    (run.drawn.Nodup → run.signed.Nodup ∧ ∀ pair ∈ run.signed, pair ∈ run.drawn) ∧
    (∀ i localShare nonces, localShare.groupKey = (requests i).groupKey →
      localShare.participantId ∈ (requests i).signerSet →
      ((run.sessions i).signShare localShare nonces).2.2.nonceRuntime = none) ∧
    ∀ i localShare nonces share, ((run.sessions i).signShare localShare nonces).1 = .ok share →
      ∃ before record after package, run.records = before ++ record :: after ∧ record.session = i ∧
        record.reply = .nonce (.ok package) ∧
        ∀ later ∈ after, later.session = i → ∀ share', later.reply ≠ .share (.ok share') := by
  intro run
  refine ⟨fun hfresh => ?_, fun i localShare nonces hkey hmem => ?_, fun i localShare nonces share hshare => ?_⟩
  · have hsound := after_sound requests calls hfresh
    exact ⟨hsound.used_nodup, hsound.used_issued⟩
  · have hrequest := after_request requests calls i
    exact signShare_takes_nonce (hkey.trans (congrArg SigningRequest.groupKey hrequest.symm))
      (by rwa [show run.sessions i = (SigningRun.after requests calls).sessions i from rfl, hrequest])
  · obtain ⟨-, -, nonce, _, _, _, hruntime, -⟩ := signShare_eq_ok.mp hshare
    obtain ⟨package, before, record, after, hrecords, hsession, -, hreply, -, -, hafter⟩ :=
      after_heldSince requests calls i hruntime
    exact ⟨before, record, after, package, hrecords, hsession, hreply,
      fun later hlater hi => (hafter later hlater hi).2⟩

theorem nonce_signed_at_most_once_plain :
    let run := SigningRun.after (fun _ : Unit => plainRequest)
      [((), .nonce plainShare (7 : plainFrost.Rng)), ((), .nonce plainShare (8 : plainFrost.Rng)),
        ((), .signShare plainShare [⟨1, "sign-demo", [8]⟩, ⟨2, "sign-demo", [9]⟩])]
    run.drawn = [7, 8] ∧ run.signed = [8] ∧ run.signed.Nodup := by
  intro run
  have hsigned : ((⟨plainRequest, some 8⟩ : FrostSigningSession plainFrost).signShare plainShare
      [⟨1, "sign-demo", [8]⟩, ⟨2, "sign-demo", [9]⟩]).2.1 = some (8 : UInt8) :=
    signShare_signed (signShare_plain 8 8 9) rfl
  have hdrawn : run.drawn = [7, 8] := rfl
  refine ⟨hdrawn, ?_, ?_⟩
  · have hrun : run.signed = [none, none, ((⟨plainRequest, some 8⟩ : FrostSigningSession plainFrost).signShare
        plainShare [⟨1, "sign-demo", [8]⟩, ⟨2, "sign-demo", [9]⟩]).2.1].reduceOption := rfl
    rw [hrun, hsigned]
    rfl
  · exact ((nonce_signed_at_most_once (fun _ : Unit => plainRequest) _).1 (by rw [hdrawn]; decide)).1

end DkgKit
