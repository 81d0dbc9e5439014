import DkgKit.SigningSession

/-! Participant ids as indices. The validators bound the ids from above and reject repeated
ones, so that the id `0`, which has no index, is the only id out of range that they accept. -/

open BigEndian LoopRules

namespace DkgKit

section Validated

theorem validated_ids_perm_iff {config : DkgSessionConfig} {round1Packages : List Round1Package}
    (hvalid : config.validateRound1Set round1Packages = .ok ()) :
    (round1Packages.map Round1Package.participantId).Perm (partyIds config.threshold.participants) ↔
      ∀ package ∈ round1Packages, package.participantId ≠ 0 := by
  constructor
  · intro hperm package hpackage
    exact (mem_partyIds.mp (hperm.mem_iff.mp (List.mem_map_of_mem hpackage))).1
  · exact ids_perm_of_validated hvalid

theorem validated_signers_iff {signers : List ParticipantId} {threshold : ThresholdConfig}
    (hvalid : validateSignerSet signers threshold = .ok ()) :
    (∀ s ∈ signers, s ∈ partyIds threshold.participants) ↔ 0 ∉ signers := by
  obtain ⟨-, hrange, -⟩ := validateSignerSet_eq_ok.mp hvalid
  constructor
  · intro h hzero
    exact (mem_partyIds.mp (h 0 hzero)).1 rfl
  · intro h s hs
    exact mem_partyIds.mpr ⟨fun hzero => h (hzero ▸ hs), hrange s hs⟩

end Validated

section Indices

theorem serialized_isErr {α : Type} (x : Except String α) : FaultsIn Fault.IsErr (serialized x) := by
  cases x with
  | error _ => exact faultsIn_fail.mpr trivial
  | ok _ => exact faultsIn_ok _

theorem partyIndex_isErr {id : ParticipantId} (h : id ≠ 0) : FaultsIn Fault.IsErr (partyIndex id) := by
  rw [partyIndex, if_neg h]
  exact faultsIn_ok _

theorem participantShareIndex_isErr {id : ParticipantId} (h : id ≠ 0) :
    FaultsIn Fault.IsErr (participantShareIndex id) := by
  rw [participantShareIndex_eq h]
  exact faultsIn_ok _

end Indices

section KeyGeneration

open DkgSessionConfig FrostDkgSession

variable {pedPop : SimplePedPop} {config : DkgSessionConfig} {round1Packages : List Round1Package}

theorem validateRound1Set_isErr : FaultsIn Fault.IsErr (config.validateRound1Set round1Packages) := by
  simp only [validateRound1Set, faultsIn_ite, faultsIn_bind]
  refine ⟨fun _ => faultsIn_fail.mpr trivial, fun _ => ⟨?_, fun _ _ => faultsIn_ok _⟩⟩
  refine faultsIn_distinctLoop (fun _ _ => trivial) (fun package _ => ?_) (fun _ _ => faultsIn_ok _) ∅
  rw [faultsIn_ite]
  exact ⟨fun _ => faultsIn_fail.mpr trivial, fun _ => faultsIn_ok _⟩

theorem aggregateKeygenInputs_isErr (h : ∀ package ∈ round1Packages, package.participantId ≠ 0) :
    FaultsIn Fault.IsErr (config.aggregateKeygenInputs pedPop round1Packages) := by
  rw [aggregateKeygenInputs, faultsIn_bind]
  refine ⟨faultsIn_foldlM (fun coordinator package hpackage => ?_) _,
    fun coordinator _ => faultsIn_okOr trivial _⟩
  simp only [addKeygenInput, faultsIn_bind]
  refine ⟨serialized_isErr _, fun input _ => ⟨partyIndex_isErr (h package hpackage), fun index _ => ?_⟩⟩
  cases pedPop.addInput coordinator index input with
  | error _ => exact faultsIn_fail.mpr trivial
  | ok _ => exact faultsIn_ok _

theorem receiveLoop_isErr (round2Packages : List Round2Package) (seen : Finset ParticipantId) :
    FaultsIn Fault.IsErr (receiveLoop pedPop round2Packages seen) := by
  induction round2Packages generalizing seen with
  | nil => exact faultsIn_ok _
  | cons package rest ih =>
    simp only [receiveLoop, faultsIn_ite, faultsIn_bind]
    exact ⟨fun _ => faultsIn_fail.mpr trivial, fun _ => ⟨serialized_isErr _, fun _ _ =>
      ⟨ih _, fun _ _ => faultsIn_ok _⟩⟩⟩

def DkgSessionCall.Indexed : DkgSessionCall pedPop → Prop
  | .round1 _ => True
  | .round2 round1Packages => ∀ package ∈ round1Packages, package.participantId ≠ 0

def FrostDkgSession.Indexed (session : FrostDkgSession) : Prop :=
  ∀ runtime, session.runtime = some runtime → session.config.participantId ≠ 0 ∧
    ∀ id package, runtime.round1Packages id = some package → package.participantId ≠ 0

theorem perform_indexed {history : SessionHistory} (h : history.session.Indexed)
    {call : DkgSessionCall pedPop} (hcall : call.Indexed) : (history.perform call).session.Indexed := by
  cases call with
  | round1 rng =>
    rw [SessionHistory.perform, round1]
    cases hcontribute : history.session.config.contribute pedPop rng with
    | error fault => exact h
    | ok result =>
      obtain ⟨package, runtime⟩ := result
      obtain ⟨⟨hpackage, hown⟩, hstored⟩ := contribute_eq_ok hcontribute
      rintro _ ⟨⟩
      refine ⟨hown, fun id other hother => ?_⟩
      rw [hstored] at hother
      rw [List.mem_singleton.mp (mem_of_lastWith hother), hpackage]
      exact hown
  | round2 round1Packages =>
    rw [SessionHistory.perform, round2]
    cases history.session.config.validateRound1Set round1Packages with
    | error fault => exact h
    | ok _ =>
      cases hruntime : history.session.runtime with
      | none =>
        simp only
        exact h
      | some runtime =>
        have hstored : ({ history.session with runtime := some { runtime with
            round1Packages := lastWith Round1Package.participantId round1Packages } } :
            FrostDkgSession).Indexed := by
          rintro _ ⟨⟩
          exact ⟨(h runtime hruntime).1, fun id package hpackage => hcall package (mem_of_lastWith hpackage)⟩
        cases haggregate : history.session.config.aggregateKeygenInputs pedPop round1Packages with
        | error fault => simpa [hruntime, haggregate] using hstored
        | ok _ => simpa [hruntime, haggregate] using hstored

theorem run_indexed (config : DkgSessionConfig) {calls : List (DkgSessionCall pedPop)}
    (hcalls : ∀ call ∈ calls, call.Indexed) : (SessionHistory.run config calls).session.Indexed := by
  have hstart : (FrostDkgSession.new config).Indexed := fun runtime hruntime => nomatch hruntime
  rw [SessionHistory.run]
  generalize hhistory : (⟨FrostDkgSession.new config, none⟩ : SessionHistory) = history
  replace hstart : history.session.Indexed := hhistory ▸ hstart
  clear hhistory
  induction calls generalizing history with
  | nil => exact hstart
  | cons call rest ih =>
    rw [List.forall_mem_cons] at hcalls
    exact ih hcalls.2 _ (perform_indexed hstart hcalls.1)

theorem round2_isErr (session : FrostDkgSession)
    (h : ∀ package ∈ round1Packages, package.participantId ≠ 0) :
    FaultsIn Fault.IsErr (session.round2 pedPop round1Packages).1 := by
  have hvalidate := @validateRound1Set_isErr session.config round1Packages
  have haggregate := @aggregateKeygenInputs_isErr pedPop session.config round1Packages h
  rw [round2]
  cases hvalid : session.config.validateRound1Set round1Packages with
  | error fault => exact faultsIn_error.mpr (hvalidate fault hvalid)
  | ok _ =>
    cases session.runtime with
    | none => exact faultsIn_fail.mpr trivial
    | some runtime =>
      cases hresult : session.config.aggregateKeygenInputs pedPop round1Packages with
      | error fault =>
        simp only [hresult]
        exact faultsIn_error.mpr (haggregate fault hresult)
      | ok _ =>
        simp only [hresult]
        exact faultsIn_ok _

theorem finalize_isErr (receiver : ShareReceiver pedPop) {session : FrostDkgSession} (h : session.Indexed)
    (round2Packages : List Round2Package) :
    FaultsIn Fault.IsErr (session.finalize pedPop receiver round2Packages) := by
  simp only [finalize, faultsIn_bind, faultsIn_ite]
  refine ⟨faultsIn_okOr trivial _, fun runtime hruntime => ⟨fun _ => faultsIn_fail.mpr trivial, fun _ =>
    ⟨receiveLoop_isErr _ _, fun shares _ => ⟨fun _ => faultsIn_fail.mpr trivial, fun _ => ?_⟩⟩⟩⟩
  obtain ⟨hown, hstored⟩ := h runtime (okOr_eq_ok.mp hruntime)
  refine ⟨aggregateKeygenInputs_isErr fun package hpackage => ?_, fun input _ =>
    ⟨participantShareIndex_isErr hown, fun index _ => ?_⟩⟩
  · obtain ⟨id, hid⟩ := mem_mapValues.mp hpackage
    exact hstored id package hid
  · cases receiver.receiveSecretShare input (receiver.collectSecretInputs index shares) with
    | error _ => exact faultsIn_fail.mpr trivial
    | ok pairedShare =>
      simp only [ok_bind, faultsIn_bind]
      exact ⟨faultsIn_okOr trivial _, fun _ _ => ⟨faultsIn_okOr trivial _, fun _ _ =>
        ⟨serialized_isErr _, fun _ _ => ⟨serialized_isErr _, fun _ _ => faultsIn_ok _⟩⟩⟩⟩

end KeyGeneration

section Signing

/-- The library panics on the coordinator's session of these nonces. -/
def SigningRequest.CoordinatorPanics (frost : FrostSigner) (request : SigningRequest)
    (nonces : List NoncePackage) (panic : Panic) : Prop :=
  ∃ sharedKey noncesMap,
    frost.sharedKeys.deserialize request.groupKey.verificationKeyBytes = .ok sharedKey ∧
    noncesToMap frost nonces request = .ok noncesMap ∧
    frost.coordinatorSignSession sharedKey noncesMap request.messageDigest = .error panic

variable {frost : FrostSigner} {request : SigningRequest}

/-- The library panics on signing with the nonce that the session holds. -/
def FrostSigningSession.SignPanics (session : FrostSigningSession frost) (localShare : LocalKeyShare)
    (nonces : List NoncePackage) (panic : Panic) : Prop :=
  ∃ nonce prepared, session.nonceRuntime = some nonce ∧
    prepareShare session.request localShare nonces = .ok prepared ∧
    frost.sign prepared.2.2 prepared.2.1 nonce = .error panic

theorem noncesLoop_isErr (h : 0 ∉ request.signerSet) (nonces : List NoncePackage)
    (map : Scalar → Option frost.Nonce) (len : ℕ) :
    FaultsIn Fault.IsErr (noncesLoop frost request nonces map len) := by
  induction nonces generalizing map len with
  | nil => exact faultsIn_ok _
  | cons nonce rest ih =>
    simp only [noncesLoop, faultsIn_ite, faultsIn_bind, not_not]
    refine ⟨fun _ => faultsIn_fail.mpr trivial, fun _ => ⟨fun _ => faultsIn_fail.mpr trivial, fun hmem =>
      ⟨serialized_isErr _, fun _ _ => ⟨participantShareIndex_isErr fun hzero => h (hzero ▸ hmem),
        fun index _ => ⟨fun _ => faultsIn_fail.mpr trivial, fun _ => ih _ _⟩⟩⟩⟩⟩

theorem noncesToMap_isErr (h : 0 ∉ request.signerSet) (nonces : List NoncePackage) :
    FaultsIn Fault.IsErr (noncesToMap frost nonces request) := by
  simp only [noncesToMap, faultsIn_bind, faultsIn_ite]
  exact ⟨noncesLoop_isErr h nonces _ _, fun _ _ => ⟨fun _ => faultsIn_fail.mpr trivial,
    fun _ => faultsIn_ok _⟩⟩

theorem coordinatorSignSession_panicsIn {nonces : List NoncePackage} {sharedKey : frost.SharedKey}
    {noncesMap : Scalar → Option frost.Nonce}
    (hkey : serialized (frost.sharedKeys.deserialize request.groupKey.verificationKeyBytes) = .ok sharedKey)
    (hnonces : noncesToMap frost nonces request = .ok noncesMap) :
    FaultsIn (Fault.PanicsIn (request.CoordinatorPanics frost nonces))
      (returned (frost.coordinatorSignSession sharedKey noncesMap request.messageDigest)) := by
  intro fault hfault
  obtain ⟨panic, rfl, hpanic⟩ := returned_eq_panic.mp hfault
  exact ⟨sharedKey, noncesMap, serialized_eq_ok.mp hkey, hnonces, hpanic⟩

theorem prepareShare_panicsIn (h : 0 ∉ request.signerSet) (localShare : LocalKeyShare)
    (nonces : List NoncePackage) :
    FaultsIn (Fault.PanicsIn (request.CoordinatorPanics frost nonces))
      (@FrostSigningSession.prepareShare frost request localShare nonces) := by
  simp only [FrostSigningSession.prepareShare, faultsIn_bind]
  exact ⟨faultsIn_okOr trivial _, fun _ _ => ⟨faultsIn_panicsIn (serialized_isErr _), fun _ _ =>
    ⟨faultsIn_panicsIn (serialized_isErr _), fun _ hkey =>
      ⟨faultsIn_panicsIn (noncesToMap_isErr h nonces), fun _ hnonces =>
        ⟨coordinatorSignSession_panicsIn hkey hnonces, fun _ _ => faultsIn_ok _⟩⟩⟩⟩⟩

/-- A `sign_share` that panics does so in one of the two calls of the library. -/
theorem signShare_panic {session : FrostSigningSession frost} (h : 0 ∉ session.request.signerSet)
    {localShare : LocalKeyShare} {nonces : List NoncePackage} {panic : Panic}
    (hpanic : (session.signShare localShare nonces).1 = .error (.panic panic)) :
    session.request.CoordinatorPanics frost nonces panic ∨ session.SignPanics localShare nonces panic := by
  have hcases := signShare_cases session localShare nonces
  generalize session.signShare localShare nonces = result at hcases hpanic
  cases hcases with
  | refused => cases hpanic
  | unprepared nonce fault _ hprepare =>
    obtain rfl : fault = .panic panic := Except.error.inj hpanic
    exact .inl (prepareShare_panicsIn h localShare nonces _ hprepare)
  | panicked nonce prepared panic' hruntime hprepare hsign =>
    obtain rfl : panic' = panic := Fault.panic.inj (Except.error.inj hpanic)
    exact .inr ⟨nonce, prepared, hruntime, hprepare, hsign⟩
  | unserialized => cases hpanic
  | signed => cases hpanic

theorem validateSignatureShareSet_isErr (shares : List SignatureSharePackage) :
    FaultsIn Fault.IsErr (validateSignatureShareSet shares request) := by
  simp only [validateSignatureShareSet, faultsIn_bind, faultsIn_ite]
  refine ⟨faultsIn_distinctLoop (fun _ _ => trivial) (fun share _ => ?_) (fun _ _ => faultsIn_ok _) ∅,
    fun _ _ => ⟨fun _ => faultsIn_fail.mpr trivial, fun _ => faultsIn_ok _⟩⟩
  simp only [faultsIn_ite]
  exact ⟨fun _ => faultsIn_fail.mpr trivial, fun _ => ⟨fun _ => faultsIn_fail.mpr trivial,
    fun _ => faultsIn_ok _⟩⟩

theorem mem_signerSet_of_validated {shares : List SignatureSharePackage} {u : Unit}
    (h : validateSignatureShareSet shares request = .ok u) :
    ∀ share ∈ shares, share.participantId ∈ request.signerSet := by
  simp only [validateSignatureShareSet, bind_eq_ok, distinctLoop_empty_eq_ok, ifFail_eq_ok, not_not] at h
  obtain ⟨_, ⟨hchecks, -⟩, -⟩ := h
  exact fun share hshare => (hchecks share hshare).1.2.1

theorem aggregate_panicsIn {session : FrostSigningSession frost} (h : 0 ∉ session.request.signerSet)
    (shares : List SignatureSharePackage) :
    FaultsIn (Fault.PanicsIn (session.request.CoordinatorPanics frost
      (shares.map SignatureSharePackage.noncePackage))) (session.aggregate shares) := by
  simp only [FrostSigningSession.aggregate, faultsIn_bind]
  refine ⟨faultsIn_panicsIn (validateSignatureShareSet_isErr shares), fun _ hvalid =>
    ⟨faultsIn_panicsIn (serialized_isErr _), fun sharedKey hkey =>
      ⟨faultsIn_panicsIn (noncesToMap_isErr h _), fun noncesMap hnonces =>
        ⟨coordinatorSignSession_panicsIn hkey hnonces, fun coordSession _ =>
          ⟨faultsIn_foldlM (fun sigShares share hshare => faultsIn_panicsIn ?_) _,
            fun sigShares _ => faultsIn_panicsIn ?_⟩⟩⟩⟩⟩
  · have hmem := mem_signerSet_of_validated hvalid share hshare
    simp only [FrostSigningSession.addSigShare, faultsIn_bind]
    exact ⟨serialized_isErr _, fun _ _ => ⟨participantShareIndex_isErr fun hzero => h (hzero ▸ hmem),
      fun _ _ => faultsIn_ok _⟩⟩
  · cases frost.verifyAndCombine coordSession sharedKey sigShares with
    | error _ => exact faultsIn_fail.mpr trivial
    | ok signature =>
      simp only [ok_bind, faultsIn_bind, AggregateSignature.new, faultsIn_ite]
      exact ⟨serialized_isErr _, fun _ _ => ⟨fun _ => faultsIn_fail.mpr trivial, fun _ => faultsIn_ok _⟩⟩

end Signing

/-- Accepted ids are those of the participants exactly if none of them is `0`; and in every
run whose lists and signer sets do not have the id `0`, no index computation panics: `sign_share`
and `aggregate` panic only where the library does, on the call's own request and nonces. -/
theorem validated_ids_have_indices_iff (pedPop : SimplePedPop) (receiver : ShareReceiver pedPop)
    (config : DkgSessionConfig) (frost : FrostSigner) {ι : Type} [DecidableEq ι]
    (requests : ι → SigningRequest) :
    (∀ round1Packages : List Round1Package, config.validateRound1Set round1Packages = .ok () →
      ((round1Packages.map Round1Package.participantId).Perm (partyIds config.threshold.participants) ↔
        ∀ package ∈ round1Packages, package.participantId ≠ 0)) ∧
    (∀ (signers : List ParticipantId) (threshold : ThresholdConfig),
      validateSignerSet signers threshold = .ok () →
      ((∀ s ∈ signers, s ∈ partyIds threshold.participants) ↔ 0 ∉ signers)) ∧
    (∀ calls : List (DkgSessionCall pedPop), (∀ call ∈ calls, call.Indexed) →
      let session := (SessionHistory.run config calls).session
      (∀ round1Packages : List Round1Package, (∀ package ∈ round1Packages, package.participantId ≠ 0) →
        ∀ panic, (session.round2 pedPop round1Packages).1 ≠ .error (.panic panic)) ∧
      ∀ round2Packages panic, session.finalize pedPop receiver round2Packages ≠ .error (.panic panic)) ∧
    ∀ (calls : List (ι × SigningCall frost)) (i : ι), 0 ∉ (requests i).signerSet →
      let session := (SigningRun.after requests calls).sessions i
      (∀ localShare nonces panic, (session.signShare localShare nonces).1 = .error (.panic panic) →
        (requests i).CoordinatorPanics frost nonces panic ∨ session.SignPanics localShare nonces panic) ∧
      ∀ shares panic, session.aggregate shares = .error (.panic panic) →
        (requests i).CoordinatorPanics frost (shares.map SignatureSharePackage.noncePackage) panic := by
  refine ⟨fun round1Packages hvalid => validated_ids_perm_iff hvalid,
    fun signers threshold hvalid => validated_signers_iff hvalid,
    fun calls hcalls => ⟨fun round1Packages hids => ?_, fun round2Packages => ?_⟩,
    fun calls i hzero => ?_⟩
  · exact faultsIn_isErr.mp (round2_isErr _ hids)
  · exact faultsIn_isErr.mp (finalize_isErr receiver (run_indexed config hcalls) round2Packages)
  · have hrequest := after_request requests calls i
    have hset : 0 ∉ ((SigningRun.after requests calls).sessions i).request.signerSet := by
      rwa [hrequest]
    rw [← hrequest]
    exact ⟨fun localShare nonces panic hpanic => signShare_panic hset hpanic,
      fun shares panic hpanic => aggregate_panicsIn hset shares _ hpanic⟩

/-- The ids `0` and `1` are accepted of two participants; the second round then subtracts
from `0`, and a signer set with the id `0` makes `sign_share` and `aggregate` index by it. -/
theorem validated_id_zero_panics :
    let config : DkgSessionConfig := ⟨"dkg-demo", ⟨2, 2⟩, 1⟩
    let round1Packages : List Round1Package := [⟨0, [1]⟩, ⟨1, [1]⟩]
    let session := (SessionHistory.run config [@DkgSessionCall.round1 plainPedPop ()]).session
    config.validateRound1Set round1Packages = .ok () ∧
      ¬ (round1Packages.map Round1Package.participantId).Perm (partyIds 2) ∧
      (session.round2 plainPedPop round1Packages).1 = .error (.panic .overflow) ∧
      validateSignerSet [0, 1] ⟨2, 2⟩ = .ok () ∧ 0 ∉ partyIds 2 ∧
      participantShareIndex 0 = .error (.panic (.expect "participant index cannot be zero")) := by
  intro config round1Packages session
  refine ⟨rfl, by decide, ?_, rfl, by decide, by simp [participantShareIndex]⟩
  rw [show session = plainSession [⟨1, [1]⟩] from plainSession_run]
  rfl

end DkgKit
