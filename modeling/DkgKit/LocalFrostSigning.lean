import DkgKit.LocalCeremony
import DkgKit.VaultSigning

/-! Signing with local shares, as the SDK does it over one signing session for each signer, and
the same with neither sessions nor packages. -/

open BigEndian LoopRules

namespace DkgKit

open FrostSigningSession

section Signing

variable (frost : FrostSigner)

/-- A call of one session in a pass over the sessions of all signers. -/
def ran {α β σ : Type} : Result α × β × σ → Result (α × σ)
  | (.ok a, _, session) => .ok (a, session)
  | (.error fault, _, _) => .error fault

def selectedShare (localShares : List LocalKeyShare) (id : ParticipantId) : Result LocalKeyShare :=
  okOr (.protocol s!"missing local share for signer {id}")
    (localShares.find? fun share => share.participantId == id)

/-- What the two functions below do with their request. -/
def signRequest (request : SigningRequest) (localShares : List LocalKeyShare)
    (rng : ParticipantId → frost.Rng) : Result AggregateSignature := do
  let selectedShares ← collectResults (selectedShare localShares) request.signerSet
  let signingSessions := selectedShares.map fun _ =>
    (FrostSigningSession.new request : FrostSigningSession frost)
  let nonces ← collectResults (fun (session, share) => ran (session.nonce share (rng share.participantId)))
    (signingSessions.zip selectedShares)
  let signatureShares ← collectResults
    (fun (session, share) => ran (session.signShare share (nonces.map Prod.fst)))
    ((nonces.map Prod.snd).zip selectedShares)
  (FrostSigningSession.new request : FrostSigningSession frost).aggregate (signatureShares.map Prod.fst)

def signDigestWithShares (signingSessionId : String) (threshold : ThresholdConfig) (groupKey : GroupKey)
    (digest : Bytes 32) (localShares : List LocalKeyShare) (signerSet : List ParticipantId)
    (rng : ParticipantId → frost.Rng) : Result AggregateSignature := do
  validateSignerSet signerSet threshold
  let signingSessionId ← SessionId.new signingSessionId
  let request ← SigningRequest.new signingSessionId groupKey digest signerSet threshold
  signRequest frost request localShares rng

def signDigestWithSharesAndPolicy (signingSessionId : String) (policy : SigningPolicy)
    (groupKey : GroupKey) (digest : Bytes 32) (localShares : List LocalKeyShare)
    (signerSet : List ParticipantId) (rng : ParticipantId → frost.Rng) : Result AggregateSignature := do
  validateSignerSetWithPolicy signerSet policy
  let signingSessionId ← SessionId.new signingSessionId
  let request ← SigningRequest.newWithPolicy signingSessionId groupKey digest signerSet policy
  signRequest frost request localShares rng

/-- A signer's local share and what it holds. -/
structure Holder where
  share : LocalKeyShare
  paired : frost.PairedSecretShare

variable {frost}

namespace Holder

def index (holder : Holder frost) : Scalar := holder.share.participantId.toNat

def nonce (request : SigningRequest) (rng : ParticipantId → frost.Rng) (holder : Holder frost) :
    frost.NonceKeyPair :=
  frost.genNonce holder.paired (asBytes request.sessionId) (rng holder.share.participantId)

/-- The signers' public nonces, by index. -/
def publicNonces (request : SigningRequest) (rng : ParticipantId → frost.Rng)
    (holders : List (Holder frost)) (index : Scalar) : Option frost.Nonce :=
  (holders.map fun holder => (holder.index, frost.publicNonce (holder.nonce request rng))).lookup index

def coordSession (request : SigningRequest) (rng : ParticipantId → frost.Rng) (sharedKey : frost.SharedKey)
    (holders : List (Holder frost)) : Except Panic frost.CoordinatorSignSession :=
  frost.coordinatorSignSession sharedKey (publicNonces request rng holders) request.messageDigest

def signSession (request : SigningRequest) (sharedKey : frost.SharedKey)
    (coordSession : frost.CoordinatorSignSession) : frost.PartySignSession :=
  frost.partySignSession (frost.publicKey sharedKey) (frost.parties coordSession)
    (frost.aggBinonce coordSession) request.messageDigest

def sign (request : SigningRequest) (rng : ParticipantId → frost.Rng) (signSession : frost.PartySignSession)
    (holder : Holder frost) : Result (Holder frost × Scalar) :=
  match frost.sign signSession holder.paired (holder.nonce request rng) with
  | .ok sigShare => .ok (holder, sigShare)
  | .error panic => .error (.panic panic)

def signatureShares (signed : List (Holder frost × Scalar)) (index : Scalar) : Option Scalar :=
  (signed.map fun entry => (entry.1.index, entry.2)).lookup index

/-- The aggregated signature of the signers' shares. -/
def combine (sharedKey : frost.SharedKey) (coordSession : frost.CoordinatorSignSession)
    (signed : List (Holder frost × Scalar)) : Result AggregateSignature := do
  let signature ← match frost.verifyAndCombine coordSession sharedKey (signatureShares signed) with
    | .ok signature => .ok signature
    | .error err => fail (.protocol s!"signature share verification failed: {err}")
  let bytes ← serialized (frost.signatures.serialize signature)
  AggregateSignature.new bytes

end Holder

variable (frost)

def holderOf (request : SigningRequest) (share : LocalKeyShare) : Result (Holder frost) := do
  if share.groupKey ≠ request.groupKey then
    fail (.protocol "local share group key does not match signing request")
  else
    let paired ← serialized (frost.pairedShares.deserialize share.secretShareBytes)
    .ok ⟨share, paired⟩

/-- Every signer draws a nonce and signs with it in one session that all nonces determine. -/
def directSign (request : SigningRequest) (localShares : List LocalKeyShare)
    (rng : ParticipantId → frost.Rng) : Result AggregateSignature := do
  let holders ← collectResults (fun id => selectedShare localShares id >>= holderOf frost request)
    request.signerSet
  let sharedKey ← serialized (frost.sharedKeys.deserialize request.groupKey.verificationKeyBytes)
  let coordSession ← returned (Holder.coordSession request rng sharedKey holders)
  let signed ← collectResults
    (Holder.sign request rng (Holder.signSession request sharedKey coordSession)) holders
  Holder.combine sharedKey coordSession signed

end Signing

section Passes

theorem collectResults_bind {α β γ : Type} {f : α → Result β} {g : β → Result γ} {l : List α}
    {cs : List γ} : collectResults (fun a => f a >>= g) l = .ok cs ↔
      ∃ bs, collectResults f l = .ok bs ∧ collectResults g bs = .ok cs := by
  induction l generalizing cs with
  | nil => simp [collectResults]
  | cons a rest ih =>
    simp only [collectResults, bind_eq_ok, ih, Except.ok.injEq]
    constructor
    · rintro ⟨c, ⟨b, hb, hc⟩, cs', ⟨bs, hbs, hcs⟩, rfl⟩
      refine ⟨b :: bs, ⟨b, hb, bs, hbs, rfl⟩, ?_⟩
      rw [collectResults, hc, ok_bind, hcs, ok_bind]
    · rintro ⟨_, ⟨b, hb, bs, hbs, rfl⟩, hcs⟩
      simp only [collectResults, bind_eq_ok, Except.ok.injEq] at hcs
      obtain ⟨c, hc, cs', hcs', rfl⟩ := hcs
      exact ⟨c, ⟨b, hb, hc⟩, cs', ⟨bs, hbs, hcs'⟩, rfl⟩

/-- A pass whose results are those of another pass, in other words. -/
theorem collectResults_factor {α β γ : Type} {f : α → Result γ} {g : α → Result β} {h : β → γ}
    {l : List α} (hf : ∀ a ∈ l, ∀ c, f a = .ok c ↔ ∃ b, g a = .ok b ∧ c = h b) {cs : List γ} :
    collectResults f l = .ok cs ↔ ∃ bs, collectResults g l = .ok bs ∧ cs = bs.map h := by
  induction l generalizing cs with
  | nil => simp [collectResults, eq_comm]
  | cons a rest ih =>
    rw [List.forall_mem_cons] at hf
    simp only [collectResults, bind_eq_ok, ih hf.2, hf.1, Except.ok.injEq]
    constructor
    · rintro ⟨_, ⟨b, hb, rfl⟩, _, ⟨bs, hbs, rfl⟩, rfl⟩
      exact ⟨b :: bs, ⟨b, hb, bs, hbs, rfl⟩, rfl⟩
    · rintro ⟨_, ⟨b, hb, bs, hbs, rfl⟩, rfl⟩
      exact ⟨h b, ⟨b, hb, rfl⟩, bs.map h, ⟨bs, hbs, rfl⟩, rfl⟩

theorem map_of_collectResults {α β : Type} {f : α → Result β} {key : β → α} {l : List α} {bs : List β}
    (hkey : ∀ a b, f a = .ok b → key b = a) (h : collectResults f l = .ok bs) : bs.map key = l := by
  have hkeys : List.Forall₂ (fun a b => a = key b) l bs :=
    (collectResults_eq_ok.mp h).imp fun a b hb => (hkey a b hb).symm
  rw [← List.forall₂_map_right_iff, List.forall₂_eq_eq_eq] at hkeys
  exact hkeys.symm

variable {frost : FrostSigner}

/-- The texts under which nonces and signature shares are sent. -/
structure FrostSigner.Encoding (frost : FrostSigner) where
  nonceBytes : frost.Nonce → List UInt8
  shareBytes : Scalar → List UInt8
  serialize_nonce : ∀ nonce, frost.nonces.serialize nonce = .ok (nonceBytes nonce)
  deserialize_nonce : ∀ nonce, frost.nonces.deserialize (nonceBytes nonce) = .ok nonce
  serialize_share : ∀ share, frost.signatureShares.serialize share = .ok (shareBytes share)
  deserialize_share : ∀ share, frost.signatureShares.deserialize (shareBytes share) = .ok share

theorem exists_frostEncoding (hnonces : frost.nonces.RoundTrips)
    (hshares : frost.signatureShares.RoundTrips) : Nonempty frost.Encoding := by
  choose nonceBytes hnonce using hnonces
  choose shareBytes hshare using hshares
  exact ⟨nonceBytes, shareBytes, fun nonce => (hnonce nonce).1, fun nonce => (hnonce nonce).2,
    fun share => (hshare share).1, fun share => (hshare share).2⟩

variable (encoding : frost.Encoding) (request : SigningRequest) (rng : ParticipantId → frost.Rng)

def noncePackage (holder : Holder frost) : NoncePackage :=
  ⟨holder.share.participantId, request.sessionId,
    encoding.nonceBytes (frost.publicNonce (holder.nonce request rng))⟩

theorem ran_nonce_eq_ok (share : LocalKeyShare) (result : NoncePackage × FrostSigningSession frost) :
    ran ((FrostSigningSession.new request : FrostSigningSession frost).nonce share
      (rng share.participantId)) = .ok result ↔ ∃ holder, holderOf frost request share = .ok holder ∧
        result = (noncePackage encoding request rng holder, ⟨request, some (holder.nonce request rng)⟩) := by
  rw [holderOf]
  by_cases hkey : share.groupKey = request.groupKey
  · cases hpaired : frost.pairedShares.deserialize share.secretShareBytes with
    | error text =>
      simp [FrostSigningSession.nonce, FrostSigningSession.new, hkey, hpaired, ran, serialized, fail]
    | ok paired =>
      have hcall : ran ((FrostSigningSession.new request : FrostSigningSession frost).nonce share
          (rng share.participantId)) = .ok (noncePackage encoding request rng ⟨share, paired⟩,
            ⟨request, some (Holder.nonce request rng ⟨share, paired⟩)⟩) := by
        simp [FrostSigningSession.nonce, FrostSigningSession.new, hkey, hpaired, ran, serialized,
          encoding.serialize_nonce, noncePackage, Holder.nonce]
      simp [hcall, hkey, serialized, eq_comm]
  · simp [FrostSigningSession.nonce, FrostSigningSession.new, hkey, ran, fail]

theorem holderOf_share {share : LocalKeyShare} {holder : Holder frost}
    (h : holderOf frost request share = .ok holder) : holder.share = share ∧
      share.groupKey = request.groupKey ∧
        frost.pairedShares.deserialize share.secretShareBytes = .ok holder.paired := by
  rw [holderOf, ifFail_eq_ok, bind_eq_ok] at h
  obtain ⟨hkey, paired, hpaired, hholder⟩ := h
  obtain rfl := Except.ok.inj hholder
  exact ⟨rfl, not_not.mp hkey, serialized_eq_ok.mp hpaired⟩

theorem lookup_eq_none_of_notMem {β : Type} {entries : List (Scalar × β)} {index : Scalar}
    (hnew : index ∉ entries.map Prod.fst) : entries.lookup index = none := by
  rw [List.lookup_eq_none_iff]
  intro entry hentry
  rw [bne_iff_ne]
  exact fun heq => hnew (List.mem_map.mpr ⟨entry, hentry, heq.symm⟩)

/-- A map extended by a new key is the lookup in the longer list. -/
theorem update_lookup {β : Type} {entries : List (Scalar × β)} {index : Scalar} {b : β}
    (hnew : index ∉ entries.map Prod.fst) :
    Function.update (fun i => entries.lookup i) index (some b) =
      fun i => (entries ++ [(index, b)]).lookup i := by
  funext i
  rw [List.lookup_append]
  by_cases hi : i = index
  · rw [hi, Function.update_self, lookup_eq_none_of_notMem hnew, Option.none_or, List.lookup_cons_self]
  · have hbeq : (i == index) = false := by simpa using hi
    rw [Function.update_of_ne hi, List.lookup_cons, hbeq, List.lookup_nil, Option.or_none]

theorem noncesLoop_holders {holders : List (Holder frost)}
    (hids : ∀ holder ∈ holders, holder.share.participantId ≠ 0 ∧
      holder.share.participantId ∈ request.signerSet) {entries : List (Scalar × frost.Nonce)}
    (hnd : (entries.map Prod.fst ++ holders.map Holder.index).Nodup) (len : ℕ) :
    noncesLoop frost request (holders.map (noncePackage encoding request rng))
      (fun i => entries.lookup i) len = .ok (fun i => (entries ++ holders.map fun holder =>
        (holder.index, frost.publicNonce (holder.nonce request rng))).lookup i, len + holders.length) := by
  induction holders generalizing entries len with
  | nil => simp [noncesLoop]
  | cons holder rest ih =>
    rw [List.forall_mem_cons] at hids
    obtain ⟨⟨hid, hmem⟩, hids⟩ := hids
    have hnew : holder.index ∉ entries.map Prod.fst := fun hold =>
      (List.nodup_append.mp hnd).2.2 _ hold _ List.mem_cons_self rfl
    have hnd' : ((entries ++ [(holder.index, frost.publicNonce (holder.nonce request rng))]).map Prod.fst ++
        rest.map Holder.index).Nodup := by
      rw [List.map_append, List.map_singleton, List.append_assoc, List.singleton_append]
      exact hnd
    have hindex : participantShareIndex holder.share.participantId = .ok holder.index :=
      participantShareIndex_eq hid
    have hih := ih hids hnd' (len + 1)
    rw [← update_lookup hnew] at hih
    rw [List.map_cons, noncesLoop, noncePackage]
    simp only [ne_eq, not_true_eq_false, if_false, hmem, encoding.deserialize_nonce, serialized, ok_bind,
      hindex, lookup_eq_none_of_notMem hnew, Option.isSome_none, Bool.false_eq_true]
    rw [hih, List.length_cons, List.map_cons, List.append_assoc, List.singleton_append,
      Nat.add_assoc, Nat.add_comm 1]

def frostSharePackage (entry : Holder frost × Scalar) : SignatureSharePackage :=
  ⟨entry.1.share.participantId, request.sessionId,
    encoding.nonceBytes (frost.publicNonce (entry.1.nonce request rng)), encoding.shareBytes entry.2⟩

theorem addSigShares_signed {signed : List (Holder frost × Scalar)}
    (hids : ∀ entry ∈ signed, entry.1.share.participantId ≠ 0) {entries : List (Scalar × Scalar)}
    (hnd : (entries.map Prod.fst ++ signed.map fun entry => entry.1.index).Nodup) :
    (signed.map (frostSharePackage encoding request rng)).foldlM (@addSigShare frost)
      (fun i => entries.lookup i) = .ok (fun i => (entries ++ signed.map fun entry =>
        (entry.1.index, entry.2)).lookup i) := by
  induction signed generalizing entries with
  | nil => simp [pure, Except.pure]
  | cons entry rest ih =>
    rw [List.forall_mem_cons] at hids
    have hnew : entry.1.index ∉ entries.map Prod.fst := fun hold =>
      (List.nodup_append.mp hnd).2.2 _ hold _ List.mem_cons_self rfl
    have hnd' : ((entries ++ [(entry.1.index, entry.2)]).map Prod.fst ++
        rest.map fun entry => entry.1.index).Nodup := by
      rw [List.map_append, List.map_singleton, List.append_assoc, List.singleton_append]
      exact hnd
    have hadd : @addSigShare frost (fun i => entries.lookup i) (frostSharePackage encoding request rng entry) =
        .ok (fun i => (entries ++ [(entry.1.index, entry.2)]).lookup i) := by
      rw [addSigShare, frostSharePackage, encoding.deserialize_share, serialized, ok_bind,
        participantShareIndex_eq hids.1, ok_bind]
      exact congrArg Except.ok (update_lookup hnew)
    rw [List.map_cons, List.foldlM_cons, hadd, ok_bind, ih hids.2 hnd', List.map_cons, List.append_assoc,
      List.singleton_append]

/-- The shares and secret shares that sign a request: one of each signer, in order. -/
structure Signers (holders : List (Holder frost)) : Prop where
  ids : holders.map (fun holder => holder.share.participantId) = request.signerSet
  held : ∀ holder ∈ holders, holder.share.groupKey = request.groupKey ∧
    frost.pairedShares.deserialize holder.share.secretShareBytes = .ok holder.paired

variable {request} {holders : List (Holder frost)}

theorem Signers.nodup_indices (h : Signers request holders) (hsigners : request.signerSet.Nodup) :
    (holders.map Holder.index).Nodup := by
  have hindices : holders.map Holder.index = request.signerSet.map fun id => (id.toNat : Scalar) := by
    rw [← h.ids, List.map_map]
    rfl
  rw [hindices]
  refine List.Nodup.map (fun id id' heq => ?_) hsigners
  exact UInt16.toNat_inj.mp ((scalar_natCast_inj id.toNat_lt id'.toNat_lt).mp heq)

theorem Signers.mem_signerSet (h : Signers request holders) {holder : Holder frost}
    (hholder : holder ∈ holders) : holder.share.participantId ∈ request.signerSet := by
  rw [← h.ids]
  exact List.mem_map_of_mem hholder

theorem Signers.id_ne_zero (h : Signers request holders) (hzero : 0 ∉ request.signerSet)
    {holder : Holder frost} (hholder : holder ∈ holders) : holder.share.participantId ≠ 0 :=
  fun hid => hzero (hid ▸ h.mem_signerSet hholder)

theorem Signers.length_eq (h : Signers request holders) : holders.length = request.signerSet.length := by
  rw [← h.ids, List.length_map]

theorem Signers.noncesToMap (h : Signers request holders) (hsigners : request.signerSet.Nodup)
    (hzero : 0 ∉ request.signerSet) :
    noncesToMap frost (holders.map (noncePackage encoding request rng)) request =
      .ok (Holder.publicNonces request rng holders) := by
  have hloop := @noncesLoop_holders frost encoding request rng holders
    (fun holder hholder => ⟨h.id_ne_zero hzero hholder, h.mem_signerSet hholder⟩) []
    (h.nodup_indices hsigners) 0
  simp only [List.lookup_nil, List.nil_append] at hloop
  rw [DkgKit.noncesToMap, hloop, ok_bind]
  have hlen : ¬ 0 + holders.length ≠ request.signerSet.length := by
    rw [Nat.zero_add, h.length_eq]
    exact not_not.mpr rfl
  exact if_neg hlen

theorem Signers.prepareShare (h : Signers request holders) (hsigners : request.signerSet.Nodup)
    (hzero : 0 ∉ request.signerSet) {sharedKey : frost.SharedKey}
    (hkey : frost.sharedKeys.deserialize request.groupKey.verificationKeyBytes = .ok sharedKey)
    {holder : Holder frost} (hholder : holder ∈ holders) :
    FrostSigningSession.prepareShare request holder.share (holders.map (noncePackage encoding request rng)) =
      returned (Holder.coordSession request rng sharedKey holders) >>= fun coordSession =>
        .ok (encoding.nonceBytes (frost.publicNonce (holder.nonce request rng)), holder.paired,
          Holder.signSession request sharedKey coordSession) := by
  have hnd : ((holders.map (noncePackage encoding request rng)).map NoncePackage.participantId).Nodup := by
    rw [List.map_map]
    exact h.ids ▸ hsigners
  have hown : ((holders.map (noncePackage encoding request rng)).find? fun package =>
      package.participantId == holder.share.participantId) = some (noncePackage encoding request rng holder) :=
    find?_of_mem hnd (List.mem_map_of_mem hholder)
  rw [FrostSigningSession.prepareShare, hown, okOr, ok_bind, (h.held holder hholder).2, hkey]
  simp only [serialized, ok_bind, h.noncesToMap encoding rng hsigners hzero]
  rfl

/-- What a signer's session signs is what the signer signs directly. -/
theorem Signers.ran_signShare_eq_ok (h : Signers request holders) (hsigners : request.signerSet.Nodup)
    (hzero : 0 ∉ request.signerSet) {sharedKey : frost.SharedKey}
    (hkey : frost.sharedKeys.deserialize request.groupKey.verificationKeyBytes = .ok sharedKey)
    {holder : Holder frost} (hholder : holder ∈ holders)
    (result : SignatureSharePackage × FrostSigningSession frost) :
    ran ((⟨request, some (holder.nonce request rng)⟩ : FrostSigningSession frost).signShare holder.share
      (holders.map (noncePackage encoding request rng))) = .ok result ↔
        ∃ entry, (returned (Holder.coordSession request rng sharedKey holders) >>= fun coordSession =>
            holder.sign request rng (Holder.signSession request sharedKey coordSession)) = .ok entry ∧
          result = (frostSharePackage encoding request rng entry, FrostSigningSession.new request) := by
  have hprepare := h.prepareShare encoding rng hsigners hzero hkey hholder
  have hheld := (h.held holder hholder).1
  have hmem := h.mem_signerSet hholder
  cases hcoord : Holder.coordSession request rng sharedKey holders with
  | error panic =>
    rw [hcoord, returned, error_bind] at hprepare
    simp [FrostSigningSession.signShare, hheld, hmem, hprepare, ran, returned]
  | ok coordSession =>
    rw [hcoord, returned, ok_bind] at hprepare
    rw [returned, ok_bind, Holder.sign]
    cases hsign : frost.sign (Holder.signSession request sharedKey coordSession) holder.paired
        (holder.nonce request rng) with
    | error panic => simp [FrostSigningSession.signShare, hheld, hmem, hprepare, hsign, ran]
    | ok sigShare =>
      simp [FrostSigningSession.signShare, hheld, hmem, hprepare, hsign, ran, serialized,
        encoding.serialize_share, frostSharePackage, FrostSigningSession.new, eq_comm]

variable {signed : List (Holder frost × Scalar)}

theorem Signers.validateShares (h : Signers request holders) (hsigners : request.signerSet.Nodup)
    (hsigned : signed.map Prod.fst = holders) :
    validateSignatureShareSet (signed.map (frostSharePackage encoding request rng)) request = .ok () := by
  have hids : (signed.map (frostSharePackage encoding request rng)).map SignatureSharePackage.participantId =
      request.signerSet := by
    rw [← h.ids, ← hsigned, List.map_map, List.map_map]
    rfl
  rw [validateSignatureShareSet, bind_eq_ok]
  refine ⟨request.signerSet.toFinset, distinctLoop_empty_eq_ok.mpr ⟨fun share hshare => ⟨?_, rfl⟩, ?_, ?_⟩, ?_⟩
  · obtain ⟨entry, hentry, rfl⟩ := List.mem_map.mp hshare
    have hmem : (frostSharePackage encoding request rng entry).participantId ∈ request.signerSet :=
      hids ▸ List.mem_map_of_mem hshare
    have hsession : ¬ (frostSharePackage encoding request rng entry).signingSessionId ≠ request.sessionId :=
      not_not.mpr rfl
    rw [if_neg hsession, if_neg (not_not.mpr hmem)]
  · rw [hids]
    exact hsigners
  · rw [hids]
  · rw [List.toFinset_card_of_nodup hsigners]
    exact if_neg (not_not.mpr rfl)

theorem Signers.aggregate (h : Signers request holders) (hsigners : request.signerSet.Nodup)
    (hzero : 0 ∉ request.signerSet) {sharedKey : frost.SharedKey}
    (hkey : frost.sharedKeys.deserialize request.groupKey.verificationKeyBytes = .ok sharedKey)
    (hsigned : signed.map Prod.fst = holders) :
    (FrostSigningSession.new request : FrostSigningSession frost).aggregate
      (signed.map (frostSharePackage encoding request rng)) =
        returned (Holder.coordSession request rng sharedKey holders) >>= fun coordSession =>
          Holder.combine sharedKey coordSession signed := by
  have hnonces : (signed.map (frostSharePackage encoding request rng)).map
      SignatureSharePackage.noncePackage = holders.map (noncePackage encoding request rng) := by
    rw [← hsigned, List.map_map, List.map_map]
    rfl
  have hadd := @addSigShares_signed frost encoding request rng signed (fun entry hentry =>
    h.id_ne_zero hzero (hsigned ▸ List.mem_map_of_mem hentry)) [] (by
      have hnd := h.nodup_indices hsigners
      rw [← hsigned, List.map_map] at hnd
      exact hnd)
  rw [FrostSigningSession.aggregate]
  simp only [FrostSigningSession.new, h.validateShares encoding rng hsigners hsigned, ok_bind, hkey, serialized,
    hnonces, h.noncesToMap encoding rng hsigners hzero]
  simp only [List.lookup_nil, List.nil_append] at hadd
  rw [hadd]
  rfl

variable {localShares : List LocalKeyShare}

theorem selectedShare_id {id : ParticipantId} {share : LocalKeyShare}
    (h : selectedShare localShares id = .ok share) : share.participantId = id := by
  have hfound := List.find?_some (okOr_eq_ok.mp h)
  simpa using hfound

theorem signers_of_found (h : collectResults (fun id => selectedShare localShares id >>=
    holderOf frost request) request.signerSet = .ok holders) : Signers request holders := by
  refine ⟨map_of_collectResults (fun id holder hfound => ?_) h, fun holder hholder => ?_⟩
  · obtain ⟨share, hshare, hheld⟩ := bind_eq_ok.mp hfound
    rw [(holderOf_share request hheld).1, selectedShare_id hshare]
  · obtain ⟨id, -, hfound⟩ := exists_of_mem_collectResults h hholder
    obtain ⟨share, -, hheld⟩ := bind_eq_ok.mp hfound
    obtain ⟨rfl, hkey, hpaired⟩ := holderOf_share request hheld
    exact ⟨hkey, hpaired⟩

/-- The call of a session for each signer, after all have drawn their nonces. -/
theorem signRequest_steps {signature : AggregateSignature} :
    signRequest frost request localShares rng = .ok signature ↔
      ∃ holders, collectResults (fun id => selectedShare localShares id >>= holderOf frost request)
        request.signerSet = .ok holders ∧
      ∃ results, collectResults (fun holder : Holder frost =>
        ran ((⟨request, some (holder.nonce request rng)⟩ : FrostSigningSession frost).signShare holder.share
          (holders.map (noncePackage encoding request rng)))) holders = .ok results ∧
      (FrostSigningSession.new request : FrostSigningSession frost).aggregate (results.map Prod.fst) =
        .ok signature := by
  have hzip : ∀ selected : List LocalKeyShare, (selected.map fun _ =>
      (FrostSigningSession.new request : FrostSigningSession frost)).zip selected =
        selected.map fun share => (FrostSigningSession.new request, share) := by
    intro selected
    have hself := @List.zip_map' _ _ _ (fun _ : LocalKeyShare =>
      (FrostSigningSession.new request : FrostSigningSession frost)) id selected
    rwa [List.map_id] at hself
  have hnonces : ∀ selected results, collectResults (fun share =>
      ran ((FrostSigningSession.new request : FrostSigningSession frost).nonce share
        (rng share.participantId))) selected = .ok results ↔
          ∃ holders, collectResults (holderOf frost request) selected = .ok holders ∧
            results = holders.map fun holder => (noncePackage encoding request rng holder,
              (⟨request, some (holder.nonce request rng)⟩ : FrostSigningSession frost)) :=
    fun selected results => collectResults_factor fun share _ => ran_nonce_eq_ok encoding request rng share
  have hsessions : ∀ selected (holders : List (Holder frost)),
      collectResults (holderOf frost request) selected = .ok holders →
        (holders.map fun holder => (⟨request, some (holder.nonce request rng)⟩ :
          FrostSigningSession frost)).zip selected = holders.map fun holder =>
            (⟨request, some (holder.nonce request rng)⟩, holder.share) := by
    intro selected holders hheld
    rw [← map_of_collectResults (fun share holder h => (holderOf_share request h).1) hheld]
    exact List.zip_map'
  simp only [signRequest, bind_eq_ok, hzip, collectResults_map, hnonces, collectResults_bind]
  constructor
  · rintro ⟨selected, hselected, _, ⟨holders, hheld, rfl⟩, results, hresults, hsignature⟩
    simp only [List.map_map, Function.comp_def, hsessions selected holders hheld, collectResults_map] at hresults
    exact ⟨holders, ⟨selected, hselected, hheld⟩, results, hresults, hsignature⟩
  · rintro ⟨holders, ⟨selected, hselected, hheld⟩, results, hresults, hsignature⟩
    refine ⟨selected, hselected, _, ⟨holders, hheld, rfl⟩, results, ?_, hsignature⟩
    simp only [List.map_map, Function.comp_def, hsessions selected holders hheld, collectResults_map]
    exact hresults

theorem noncesLoop_ne_zero {nonces : List NoncePackage} {map : Scalar → Option frost.Nonce} {len : ℕ}
    {result : (Scalar → Option frost.Nonce) × ℕ}
    (h : noncesLoop frost request nonces map len = .ok result) :
    ∀ nonce ∈ nonces, nonce.participantId ≠ 0 := by
  induction nonces generalizing map len with
  | nil => simp
  | cons nonce rest ih =>
    simp only [noncesLoop, ifFail_eq_ok, bind_eq_ok] at h
    obtain ⟨-, -, publicNonce, -, index, hindex, -, hrest⟩ := h
    refine List.forall_mem_cons.mpr ⟨fun hzero => ?_, ih hrest⟩
    simp [hzero, participantShareIndex] at hindex

/-- A signer set whose signers all return a share does not have the id `0`. -/
theorem Signers.zero_notMem (h : Signers request holders)
    {results : List (SignatureSharePackage × FrostSigningSession frost)}
    (hresults : collectResults (fun holder : Holder frost =>
      ran ((⟨request, some (holder.nonce request rng)⟩ : FrostSigningSession frost).signShare holder.share
        (holders.map (noncePackage encoding request rng)))) holders = .ok results) :
    0 ∉ request.signerSet := by
  intro hmem
  rw [← h.ids] at hmem
  obtain ⟨holder, hholder, hid⟩ := List.mem_map.mp hmem
  obtain ⟨result, hresult⟩ := exists_collectResults_eq_ok.mp ⟨results, hresults⟩ holder hholder
  have hshare : ((⟨request, some (holder.nonce request rng)⟩ : FrostSigningSession frost).signShare
      holder.share (holders.map (noncePackage encoding request rng))).1 = .ok result.1 := by
    generalize (⟨request, some (holder.nonce request rng)⟩ : FrostSigningSession frost).signShare
      holder.share (holders.map (noncePackage encoding request rng)) = call at hresult
    obtain ⟨reply, signed, session⟩ := call
    cases reply with
    | error fault => cases hresult
    | ok share => rw [← Except.ok.inj hresult]
  obtain ⟨-, -, _, prepared, _, _, -, hprepare, -⟩ := signShare_eq_ok.mp hshare
  simp only [FrostSigningSession.prepareShare, DkgKit.noncesToMap, bind_eq_ok] at hprepare
  obtain ⟨_, -, _, -, _, -, _, ⟨_, hloop, -⟩, -⟩ := hprepare
  exact noncesLoop_ne_zero hloop _ (List.mem_map_of_mem hholder) hid

/-- The sessions of all signers return the packages of what the signers sign directly. -/
theorem Signers.ran_signShares_eq_ok (h : Signers request holders) (hsigners : request.signerSet.Nodup)
    (hzero : 0 ∉ request.signerSet) {sharedKey : frost.SharedKey}
    (hkey : frost.sharedKeys.deserialize request.groupKey.verificationKeyBytes = .ok sharedKey)
    (results : List (SignatureSharePackage × FrostSigningSession frost)) :
    collectResults (fun holder : Holder frost =>
      ran ((⟨request, some (holder.nonce request rng)⟩ : FrostSigningSession frost).signShare holder.share
        (holders.map (noncePackage encoding request rng)))) holders = .ok results ↔
      ∃ signed, collectResults (fun holder => returned (Holder.coordSession request rng sharedKey holders)
          >>= fun coordSession => holder.sign request rng (Holder.signSession request sharedKey coordSession))
        holders = .ok signed ∧ results = signed.map fun entry =>
          (frostSharePackage encoding request rng entry, FrostSigningSession.new request) :=
  collectResults_factor fun _ hholder result =>
    h.ran_signShare_eq_ok encoding rng hsigners hzero hkey hholder result

/-- The signers stand in the order of the holders. -/
theorem holders_of_signed {coordSession : Except Panic frost.CoordinatorSignSession}
    {sharedKey : frost.SharedKey}
    (hsigned : collectResults (fun holder => returned coordSession >>= fun coordSession =>
      Holder.sign request rng (Holder.signSession request sharedKey coordSession) holder) holders =
        .ok signed) : signed.map Prod.fst = holders := by
  refine map_of_collectResults (fun holder entry hentry => ?_) hsigned
  obtain ⟨coordSession, -, hsign⟩ := bind_eq_ok.mp hentry
  rw [Holder.sign] at hsign
  split at hsign
  · rw [← Except.ok.inj hsign]
  · cases hsign

/-- The sessions of the signers, over packages, compute what the signers compute directly. A
signer set with the id `0` never signs. -/
theorem signRequest_eq_ok (hnonces : frost.nonces.RoundTrips) (hshares : frost.signatureShares.RoundTrips)
    (hsigners : request.signerSet.Nodup) {signature : AggregateSignature} :
    signRequest frost request localShares rng = .ok signature ↔
      0 ∉ request.signerSet ∧ directSign frost request localShares rng = .ok signature := by
  obtain ⟨encoding⟩ := exists_frostEncoding hnonces hshares
  rw [signRequest_steps encoding rng, directSign]
  simp only [bind_eq_ok, serialized_eq_ok]
  constructor
  · rintro ⟨holders, hholders, results, hresults, haggregate⟩
    have h := signers_of_found hholders
    have hzero := h.zero_notMem encoding rng hresults
    obtain ⟨sharedKey, hkey⟩ : ∃ sharedKey,
        frost.sharedKeys.deserialize request.groupKey.verificationKeyBytes = .ok sharedKey := by
      simp only [FrostSigningSession.aggregate, bind_eq_ok, serialized_eq_ok] at haggregate
      obtain ⟨_, -, sharedKey, hkey, -⟩ := haggregate
      exact ⟨sharedKey, hkey⟩
    obtain ⟨signed, hsigned, rfl⟩ := (h.ran_signShares_eq_ok encoding rng hsigners hzero hkey results).mp hresults
    rw [List.map_map] at haggregate
    -- also for no signers at all, where only the aggregation opens the coordinator's session
    obtain ⟨coordSession, hcoord, hcombine⟩ := bind_eq_ok.mp
      ((h.aggregate encoding rng hsigners hzero hkey (holders_of_signed rng hsigned)).symm.trans haggregate)
    simp only [hcoord, ok_bind] at hsigned
    exact ⟨hzero, holders, hholders, sharedKey, hkey, coordSession, hcoord, signed, hsigned, hcombine⟩
  · rintro ⟨hzero, holders, hholders, sharedKey, hkey, coordSession, hcoord, signed, hsigned, hcombine⟩
    have h := signers_of_found hholders
    have hsigned' : collectResults (fun holder => returned (Holder.coordSession request rng sharedKey holders)
        >>= fun coordSession => holder.sign request rng (Holder.signSession request sharedKey coordSession))
          holders = .ok signed := by
      simpa only [hcoord, ok_bind] using hsigned
    refine ⟨holders, hholders, _,
      (h.ran_signShares_eq_ok encoding rng hsigners hzero hkey _).mpr ⟨signed, hsigned', rfl⟩, ?_⟩
    rw [List.map_map]
    exact (h.aggregate encoding rng hsigners hzero hkey (holders_of_signed rng hsigned')).trans
      (bind_eq_ok.mpr ⟨coordSession, hcoord, hcombine⟩)

end Passes

section Policies

theorem nodup_of_policy {signers : List ParticipantId} {policy : SigningPolicy} {u : Unit}
    (h : validateSignerSetWithPolicy signers policy = .ok u) : signers.Nodup := by
  cases policy with
  | threshold threshold => exact (validateSignerSet_eq_ok.mp h).2.2
  | hierarchical config =>
    simp only [validateSignerSetWithPolicy, validateHierarchicalSignerSet, bind_eq_ok] at h
    obtain ⟨_, -, _, hvalid, -⟩ := h
    exact (validateSignerSet_eq_ok.mp hvalid).2.2
  | grouped config =>
    simp only [validateSignerSetWithPolicy, validateGroupedThresholdSignerSet, bind_eq_ok] at h
    obtain ⟨_, -, _, hvalid, -⟩ := h
    exact (validateSignerSet_eq_ok.mp hvalid).2.2

end Policies

/-- A signature is returned exactly if the policy accepts the signer set, no signer has the id
`0`, and the signers, with neither sessions nor packages, compute that signature. -/
theorem signDigestWithShares_eq_direct (frost : FrostSigner) (hnonces : frost.nonces.RoundTrips)
    (hshares : frost.signatureShares.RoundTrips) (signingSessionId : String) (groupKey : GroupKey)
    (digest : Bytes 32) (localShares : List LocalKeyShare) (signerSet : List ParticipantId)
    (rng : ParticipantId → frost.Rng) (signature : AggregateSignature) :
    (∀ policy, signDigestWithSharesAndPolicy frost signingSessionId policy groupKey digest localShares
      signerSet rng = .ok signature ↔
        validateSignerSetWithPolicy signerSet policy = .ok () ∧ isBlank signingSessionId = false ∧
          0 ∉ signerSet ∧ directSign frost ⟨signingSessionId, groupKey, digest, signerSet⟩ localShares rng =
            .ok signature) ∧
    (∀ threshold, signDigestWithShares frost signingSessionId threshold groupKey digest localShares
      signerSet rng = .ok signature ↔
        validateSignerSet signerSet threshold = .ok () ∧ isBlank signingSessionId = false ∧
          0 ∉ signerSet ∧ directSign frost ⟨signingSessionId, groupKey, digest, signerSet⟩ localShares rng =
            .ok signature) := by
  have hpolicy : ∀ policy, signDigestWithSharesAndPolicy frost signingSessionId policy groupKey digest
      localShares signerSet rng = .ok signature ↔
        validateSignerSetWithPolicy signerSet policy = .ok () ∧ isBlank signingSessionId = false ∧
          0 ∉ signerSet ∧ directSign frost ⟨signingSessionId, groupKey, digest, signerSet⟩ localShares rng =
            .ok signature := by
    intro policy
    rw [signDigestWithSharesAndPolicy]
    simp only [bind_eq_ok, sessionIdNew_eq_ok, SigningRequest.newWithPolicy, Except.ok.injEq]
    constructor
    · rintro ⟨_, hvalid, _, ⟨hname, rfl⟩, _, ⟨_, -, rfl⟩, hsign⟩
      exact ⟨hvalid, hname, (signRequest_eq_ok rng hnonces hshares (nodup_of_policy hvalid)).mp hsign⟩
    · rintro ⟨hvalid, hname, hdirect⟩
      exact ⟨(), hvalid, _, ⟨hname, rfl⟩, _, ⟨(), hvalid, rfl⟩,
        (signRequest_eq_ok rng hnonces hshares (nodup_of_policy hvalid)).mpr hdirect⟩
  exact ⟨hpolicy, fun threshold => hpolicy (.threshold threshold)⟩

section Witness

/-- The weight of a party in the interpolation at `0`. -/
def partyWeight (parties : Finset Scalar) (index : Scalar) : Scalar :=
  ∏ other ∈ parties.erase index, other / (other - index)

/-- Schnorr signing of interpolated shares, with the digest as the challenge and numbers in the
place of their points. A key consists of its threshold and its secret. -/
noncomputable abbrev sumFrost : FrostSigner where
  Rng := Scalar
  PairedSecretShare := Scalar × Scalar
  NonceKeyPair := Scalar
  Nonce := Scalar
  SharedKey := ℕ × Scalar
  CoordinatorSignSession := Finset Scalar × Scalar × Scalar
  PartySignSession := Finset Scalar × Scalar
  Signature := Scalar × Scalar
  genNonce := fun _ _ rng => rng
  publicNonce := fun nonce => nonce
  publicKey := fun key => key.2 • generator
  coordinatorSignSession := fun key nonces digest =>
    let parties := Finset.univ.filter fun index => (nonces index).isSome
    if parties.card < key.1 then .error (.expect "nonces below the threshold")
    else .ok (parties, ∑ index ∈ parties, (nonces index).getD 0, decode digest)
  parties := fun session => session.1
  aggBinonce := fun session => session.2.1
  partySignSession := fun _ parties _ digest => (parties, decode digest)
  sign := fun session share nonce =>
    if share.1 ∈ session.1 then .ok (nonce + session.2 * (partyWeight session.1 share.1 * share.2))
    else .error (.expect "share outside the session")
  verifyAndCombine := fun session key shares =>
    let sum := ∑ index ∈ session.1, (shares index).getD 0
    if sum = session.2.1 + session.2.2 * key.2 then .ok (session.2.1, sum) else .error "invalid share"
  pairedShares := Binary.ofText unaryText
  sharedKeys := Binary.ofText unaryText
  nonces := Binary.ofText unaryText
  signatureShares := Binary.ofText unaryText
  signatures := ⟨fun signature => .ok ((scalarToBytes signature.1).toList ++ (scalarToBytes signature.2).toList),
    fun _ => .error "unused"⟩

theorem lookup_pair {β : Type} (first second : β) (index : Scalar) :
    [((1 : Scalar), first), (2, second)].lookup index =
      if index = 1 then some first else if index = 2 then some second else none := by
  rw [List.lookup_cons, List.lookup_cons, List.lookup_nil]
  by_cases h1 : index = 1
  · simp [h1]
  · by_cases h2 : index = 2
    · have hbeq : ((2 : Scalar) == 1) = false := by simpa [h2] using h1
      simp [h2, hbeq, h2 ▸ h1]
    · have hbeq1 : (index == 1) = false := by simpa using h1
      have hbeq2 : (index == 2) = false := by simpa using h2
      simp [h1, h2, hbeq1, hbeq2]

theorem one_ne_two : (1 : Scalar) ≠ 2 := by
  rw [← one_add_one_eq_two]
  exact fun h => one_ne_zero (left_eq_add.mp h)

theorem parties_pair {β : Type} (first second : β) : (Finset.univ.filter fun index : Scalar =>
    ([((1 : Scalar), first), (2, second)].lookup index).isSome) = {1, 2} := by
  ext index
  rw [Finset.mem_filter, lookup_pair, Finset.mem_insert, Finset.mem_singleton]
  by_cases h1 : index = 1
  · simp [h1]
  · by_cases h2 : index = 2
    · simp [h2, one_ne_two.symm]
    · simp [h1, h2]

theorem sum_pair (first second : Scalar) : ∑ index ∈ ({1, 2} : Finset Scalar),
    ([((1 : Scalar), first), (2, second)].lookup index).getD 0 = first + second := by
  rw [Finset.sum_pair one_ne_two, lookup_pair, lookup_pair, if_pos rfl, if_neg one_ne_two.symm, if_pos rfl]
  rfl

theorem verifyAndCombine_pair {challenge first second secret : Scalar} {threshold : ℕ}
    (hsum : first + second = 16 + challenge * secret) :
    sumFrost.verifyAndCombine ({1, 2}, 16, challenge) (threshold, secret)
      (fun index => [((1 : Scalar), first), (2, second)].lookup index) = .ok (16, 16 + challenge * secret) := by
  rw [← hsum]
  change (if ∑ index ∈ ({1, 2} : Finset Scalar), _ = _ then _ else _) = _
  rw [sum_pair, if_pos hsum]

theorem aggregateSignature_new_append (first second : Bytes 32) :
    AggregateSignature.new (first.toList ++ second.toList) = .ok ⟨first.toList ++ second.toList⟩ := by
  have hnonempty : ¬ (first.toList ++ second.toList).isEmpty = true := by
    intro hempty
    have hlen := congrArg List.length (List.isEmpty_iff.mp hempty)
    simp at hlen
  rw [AggregateSignature.new, if_neg hnonempty]

theorem partyWeight_pair : partyWeight {1, 2} 1 = 2 ∧ partyWeight {1, 2} 2 = -1 := by
  have hfirst : ({1, 2} : Finset Scalar).erase 1 = {2} :=
    Finset.erase_insert (by simpa using one_ne_two)
  have hsecond : ({1, 2} : Finset Scalar).erase 2 = {1} := by
    rw [Finset.pair_comm]
    exact Finset.erase_insert (by simpa using one_ne_two.symm)
  rw [partyWeight, partyWeight, hfirst, hsecond, Finset.prod_singleton, Finset.prod_singleton]
  constructor <;> norm_num

def pairNonce (id : ParticipantId) : Scalar := ((if id = 1 then 7 else 9 : ℕ) : Scalar)

/-- Two holders of the key `5`, whose shares `8` and `11` are the values of `5 + 3 * x`. -/
theorem directSign_pair {request : SigningRequest} {first second : LocalKeyShare}
    (hfirst : holderOf sumFrost request first = .ok ⟨first, (1, 8)⟩)
    (hsecond : holderOf sumFrost request second = .ok ⟨second, (2, 11)⟩)
    (hids : first.participantId = 1 ∧ second.participantId = 2)
    (hkey : sumFrost.sharedKeys.deserialize request.groupKey.verificationKeyBytes = .ok (2, 5))
    (hsigners : request.signerSet = [1, 2]) :
    directSign sumFrost request [first, second] pairNonce =
      .ok ⟨(scalarToBytes 16).toList ++ (scalarToBytes (16 + decode request.messageDigest * 5)).toList⟩ := by
  let challenge : Scalar := decode request.messageDigest
  let coordSession : sumFrost.CoordinatorSignSession := ({1, 2}, 16, challenge)
  let holders : List (Holder sumFrost) := [⟨first, (1, 8)⟩, ⟨second, (2, 11)⟩]
  let signed : List (Holder sumFrost × Scalar) :=
    [(⟨first, (1, 8)⟩, 7 + challenge * (2 * 8)), (⟨second, (2, 11)⟩, 9 + challenge * (-1 * 11))]
  have hholders : collectResults (fun id => selectedShare [first, second] id >>=
      holderOf sumFrost request) request.signerSet = .ok holders := by
    have hfound : selectedShare [first, second] 1 = .ok first ∧
        selectedShare [first, second] 2 = .ok second := by
      simp [selectedShare, hids, okOr]
    rw [hsigners]
    simp only [collectResults, hfound, ok_bind, hfirst, hsecond, holders]
  have hnonces : @Holder.publicNonces sumFrost request pairNonce holders =
      fun index => [((1 : Scalar), (7 : Scalar)), (2, 9)].lookup index := by
    funext index
    simp [Holder.publicNonces, Holder.index, Holder.nonce, hids, holders, pairNonce]
  have hcoord : @Holder.coordSession sumFrost request pairNonce (2, 5) holders = .ok coordSession := by
    rw [Holder.coordSession, hnonces]
    simp only [parties_pair, sum_pair, Finset.card_pair one_ne_two, lt_irrefl, if_false]
    norm_num [coordSession, challenge]
  have hsigned : collectResults (@Holder.sign sumFrost request pairNonce
      (Holder.signSession request (2, 5) coordSession)) holders = .ok signed := by
    simp [collectResults, Holder.sign, Holder.signSession, Holder.nonce, hids, partyWeight_pair, holders,
      coordSession, signed, challenge, pairNonce]
  have hshares : Holder.signatureShares signed = fun index =>
      [((1 : Scalar), 7 + challenge * (2 * 8)), (2, 9 + challenge * (-1 * 11))].lookup index := by
    funext index
    simp [Holder.signatureShares, Holder.index, hids, signed]
  have hverify : sumFrost.verifyAndCombine coordSession (2, 5) (Holder.signatureShares signed) =
      .ok (16, 16 + challenge * 5) := by
    rw [hshares]
    exact verifyAndCombine_pair (by ring)
  have hcombine : Holder.combine (2, 5) coordSession signed =
      .ok ⟨(scalarToBytes 16).toList ++ (scalarToBytes (16 + challenge * 5)).toList⟩ := by
    rw [Holder.combine, hverify]
    exact aggregateSignature_new_append (scalarToBytes 16) (scalarToBytes (16 + challenge * 5))
  exact bind_eq_ok.mpr ⟨holders, hholders, bind_eq_ok.mpr ⟨(2, 5), serialized_eq_ok.mpr hkey,
    bind_eq_ok.mpr ⟨coordSession, returned_eq_ok.mpr hcoord, bind_eq_ok.mpr ⟨signed, hsigned, hcombine⟩⟩⟩⟩

end Witness

/-- Two holders draw nonces, exchange their packages and sign. -/
theorem signDigestWithShares_eq_direct_pair : ∃ first second : LocalKeyShare,
    first.participantId = 1 ∧ second.participantId = 2 ∧
    signDigestWithShares sumFrost "sign-demo" ⟨2, 2⟩ first.groupKey (List.Vector.replicate 32 1)
      [first, second] [1, 2] pairNonce = .ok ⟨(scalarToBytes 16).toList ++
        (scalarToBytes (16 + decode (List.Vector.replicate 32 (1 : UInt8)) * 5)).toList⟩ := by
  have hround {α : Type} [Countable α] : (Binary.ofText (unaryText (α := α))).RoundTrips :=
    Binary.ofText_roundTrips unaryText_injective
  obtain ⟨keyBytes, -, hkey⟩ := hround ((2, 5) : ℕ × Scalar)
  obtain ⟨firstBytes, -, hfirst⟩ := hround ((1, 8) : Scalar × Scalar)
  obtain ⟨secondBytes, -, hsecond⟩ := hround ((2, 11) : Scalar × Scalar)
  let groupKey : GroupKey := ⟨List.Vector.replicate 32 0, keyBytes⟩
  let request : SigningRequest := ⟨"sign-demo", groupKey, List.Vector.replicate 32 1, [1, 2]⟩
  have hheld : ∀ (id : ParticipantId) {bytes : List UInt8} {paired : Scalar × Scalar},
      (Binary.ofText unaryText).deserialize bytes = .ok paired →
        holderOf sumFrost request ⟨id, groupKey, bytes⟩ = .ok ⟨⟨id, groupKey, bytes⟩, paired⟩ := by
    intro id bytes paired hbytes
    have hpaired : sumFrost.pairedShares.deserialize bytes = .ok paired := hbytes
    rw [holderOf, if_neg (not_not.mpr rfl), hpaired]
    rfl
  have hdirect := @directSign_pair request _ _ (hheld 1 hfirst) (hheld 2 hsecond) ⟨rfl, rfl⟩ hkey rfl
  exact ⟨⟨1, groupKey, firstBytes⟩, ⟨2, groupKey, secondBytes⟩, rfl, rfl,
    ((signDigestWithShares_eq_direct sumFrost hround hround "sign-demo" groupKey _ _ _ pairNonce _).2
      ⟨2, 2⟩).mpr ⟨by decide, by decide, by decide, hdirect⟩⟩

end DkgKit
