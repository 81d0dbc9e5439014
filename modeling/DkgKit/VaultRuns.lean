import DkgKit.VaultService

/-! Whole runs of the vault service: ceremonies, addresses and signing sessions in any order. -/

open Polynomial BigEndian BirkhoffMatrix LoopRules SelectiveQueue OrderedMaps StatefulPrograms

namespace DkgKit

namespace InMemoryVaultService

section Sessions

variable {wire : Wire} {json : PackageCodecs} {service : InMemoryVaultService}
  {draws : List (ParticipantId → ℕ → NonZeroScalar)} {signerSet : List ParticipantId}

theorem members_of_grouped {config : GroupedThresholdConfig} {u : Unit}
    (h : validateGroupedThresholdSignerSet signerSet config = .ok u) :
    signerSet ≠ [] ∧ ∀ s ∈ signerSet, (config.rankOf s).isSome := by
  simp only [validateGroupedThresholdSignerSet, GroupedThresholdConfig.thresholdConfig, bind_eq_ok,
    ThresholdConfig.new_eq_ok, validateSignerSet_eq_ok, countSelected_eq_ok] at h
  obtain ⟨_, ⟨required, -, hpos, -, rfl⟩, _, ⟨hle, -⟩, _, ⟨hmembers, -⟩, -⟩ := h
  refine ⟨fun hnil => ?_, hmembers⟩
  have hzero : required.toNat ≤ 0 := by rwa [hnil, List.length_nil] at hle
  omega

theorem rankOf_of_translation {config : GroupedThresholdConfig}
    {hierarchical : HierarchicalThresholdConfig}
    (h : hierarchicalConfigFromGroupedThreshold config = .ok hierarchical) :
    hierarchical.rankOf = config.rankOf := by
  obtain ⟨required, -, hconfig⟩ := bind_eq_ok.mp h
  rw [(HierarchicalThresholdConfig.new_eq_ok.mp hconfig).1]
  rfl

/-- The key set of the ceremony that the service's key is from. -/
theorem Holds.keySet {rng : ParticipantId → ℕ → NonZeroScalar}
    (h : Holds wire json (rng :: draws) service) : ∃ F : Scalar[X],
      (⟨honestKey service.dkg.config rng, service.dkg.config.participants.map
        (finalShare service.dkg.config rng)⟩ : HtssLocalKeySet).Consistent service.dkg.config F ∧
      ∀ p ∈ service.dkg.config.participants,
        service.localShares[p.id]? = some (derivativeShare F p) := by
  have hc := h.ready.accepted
  obtain ⟨F, hdealt⟩ := dealt_of_runDistributedHtssKeygen hc
    (runDistributedHtssKeygen_honest hc (h.secret rng rfl))
  refine ⟨F, hdealt.toConsistent, fun p hp => ?_⟩
  have hshare := List.map_inj_left.mp hdealt.shares_eq p hp
  rw [h.shares rng rfl p hp, hshare]

theorem outcome_dkgkit_ok {α : Type} (a : α) (service : InMemoryVaultService) :
    outcome (dkgkit (.ok a)) service = (.ok a, service) := rfl

theorem outcome_anyhow_ok {α : Type} (a : α) (service : InMemoryVaultService) :
    outcome (anyhow (.ok a)) service = (.ok a, service) := rfl

/-- What a signing session needs in order to return a share. -/
def Signable (service : InMemoryVaultService) (signingSessionId : String) (signerSet : List ParticipantId)
    (rng : ParticipantId → NonZeroScalar) : Prop :=
  service.groupKey.isSome ∧ isBlank signingSessionId = false ∧
    validateGroupedThresholdSignerSet signerSet service.groupedConfig = .ok () ∧
    (∃ points coefficients,
      birkhoffPointsFromHierarchicalSignerSet signerSet service.dkg.config = .ok points ∧
        birkhoffInterpolationCoefficients points = .ok coefficients) ∧
    (signerSet.map fun s => (rng s).val).sum ≠ 0

/-- What a call of the signing session returns, in terms of the state before it. -/
structure SignsAs (library : BitcoinLibrary) (hash : ChallengeHash) (schnorr : Schnorr)
    (service : InMemoryVaultService) (signingSessionId : String) (digest : Bytes 32)
    (signerSet : List ParticipantId) (rng : ParticipantId → NonZeroScalar)
    (result : Except VaultFault HtssSignatureSharePackage) : Prop where
  isOk_iff : (∃ share, result = .ok share) ↔ service.Signable signingSessionId signerSet rng
  verified : ∀ share, result = .ok share → ∃ groupKey nonces shares signature,
    service.groupKey = some groupKey ∧ shares.head? = some share ∧
    shares.map HtssSignatureSharePackage.participantId = signerSet ∧
    (∀ share ∈ shares, share.signingSessionId = signingSessionId) ∧
    aggregateHtssSignatureShares schnorr groupKey digest nonces shares signerSet service.dkg.config =
      .ok signature ∧
    verifyAggregateSignatureDigest library hash groupKey digest signature = .ok true

theorem SignsAs.of_error {library : BitcoinLibrary} {hash : ChallengeHash} {schnorr : Schnorr}
    {signingSessionId : String} {digest : Bytes 32} {rng : ParticipantId → NonZeroScalar}
    {fault : VaultFault} (h : ¬service.Signable signingSessionId signerSet rng) :
    SignsAs library hash schnorr service signingSessionId digest signerSet rng (.error fault) := by
  refine ⟨⟨fun hok => ?_, fun hcond => absurd hcond h⟩, fun share hok => ?_⟩
  · obtain ⟨share, hshare⟩ := hok
    cases hshare
  · cases hok

variable {hash : ChallengeHash} {schnorr : Schnorr} {first : ParticipantId → ℕ → NonZeroScalar}
  {rng : ParticipantId → NonZeroScalar} {F : Scalar[X]} {members : List RankedParticipant}

theorem Holds.withCoordinator {queues : Queues} (h : Holds wire json draws service)
    {c : FrostCoordinator LocalNostrEventTransport} (hc : Waiting wire json c queues)
    (hleft : ∀ address, queues address ≠ [] → Leftover service.dkg address)
    (hfew : draws.length ≤ 1 → queues = Queues.empty) :
    Holds wire json draws (service.withCoordinator c) :=
  ⟨h.translated, h.ready, h.states, h.groupKey, h.secret, h.shares, queues, hc, hleft, hfew⟩

/-- A session of valid signers, from their nonces on. -/
theorem Holds.signAndVerify (hwire : wire.json.RoundTrips) (hjson : ∀ channel, (json channel).RoundTrips)
    (himpl : schnorr.Implements hash) (h : Holds wire json (first :: draws) service)
    (library : BitcoinLibrary) {signingSessionId : String} (digest : Bytes 32)
    (hvalid : validateGroupedThresholdSignerSet signerSet service.groupedConfig = .ok ())
    (hblank : isBlank signingSessionId = false)
    (hkeys : (⟨honestKey service.dkg.config first, service.dkg.config.participants.map
      (finalShare service.dkg.config first)⟩ : HtssLocalKeySet).Consistent service.dkg.config F)
    (hsub : members ⊆ service.dkg.config.participants)
    (hsigners : signerSet = members.map RankedParticipant.id) {queues : Queues}
    (hwaiting : Waiting wire json service.coordinator queues)
    (hleft : ∀ address, queues address ≠ [] → Leftover service.dkg address) :
    ∃ c result, outcome (InMemoryVaultService.signAndVerify wire json library hash schnorr
        signingSessionId (honestKey service.dkg.config first) digest (members.map (derivativeShare F))
        (members.map fun p => localNonce signingSessionId rng p.id) signerSet service.dkg.config) service =
          (result, service.withCoordinator c) ∧ Waiting wire json c queues ∧
      SignsAs library hash schnorr service signingSessionId digest signerSet rng result := by
  have hne := (members_of_grouped hvalid).1
  have hkey : service.groupKey = some (honestKey service.dkg.config first) := h.groupKey
  have hempty : ∀ channel, channel ≠ .htssDkgRound2 →
      queues ⟨channel, signingSessionId, none⟩ = [] := by
    intro channel hchannel
    by_contra hsome
    exact hchannel (hleft _ hsome).1
  obtain ⟨c, result, hc, hrun, hiff, hsigned⟩ := @outcome_signOverTransport _ _ _ _ _ _ _ _
    signingSessionId rng digest hwire hjson schnorr h.ready.accepted hkeys hwaiting
    (hempty .htssNonce (by decide)) (hempty .htssSignatureShare (by decide)) hblank h.ready.ids hsub
    _ hsigners hne
  have hadapt := outcome_adapt VaultFault.dkgkit (signOverTransport wire json schnorr signingSessionId
    (honestKey service.dkg.config first) digest (members.map (derivativeShare F))
    (members.map fun p => localNonce signingSessionId rng p.id) signerSet service.dkg.config) service
  rw [hrun] at hadapt
  cases result with
  | error fault =>
    refine ⟨c, .error (.dkgkit fault), bind_error hadapt, hc, .of_error ?_⟩
    rintro ⟨-, -, -, hsolvable, hk⟩
    obtain ⟨signed, hok⟩ := hiff.mpr ⟨(quorum_iff_solvable h.ready.accepted).mpr hsolvable, hk⟩
    cases hok
  | ok signed =>
    obtain ⟨shares, aggregate⟩ := signed
    obtain ⟨hids, hsessions, haggregate⟩ := hsigned shares aggregate rfl
    obtain ⟨P, valid, hP, hvalidSignature, hbytes⟩ := (Returned.aggregate haggregate).signatureFor
    have hverify : verifyAggregateSignatureDigest library hash (honestKey service.dkg.config first) digest
        aggregate = .ok true := hbytes ▸ verifyAggregate_of_valid himpl hP hvalidSignature
    obtain ⟨share, rest, rfl⟩ := List.exists_cons_of_ne_nil fun hnil : shares = [] =>
      hne (by rw [← hids, hnil, List.map_nil])
    obtain ⟨hq, hk⟩ := hiff.mp ⟨_, rfl⟩
    have hsignable : service.Signable signingSessionId signerSet rng :=
      ⟨by rw [hkey]; rfl, hblank, hvalid, (quorum_iff_solvable h.ready.accepted).mp hq, hk⟩
    refine ⟨c, .ok share, ?_, hc, ⟨fun _ => hsignable, fun _ => ⟨share, rfl⟩⟩, fun share' hshare => ?_⟩
    · refine (bind_ok hadapt).trans ?_
      dsimp only
      rw [hverify, bind_ok (outcome_anyhow_ok true _)]
      rfl
    · obtain rfl := Except.ok.inj hshare
      exact ⟨_, _, _, _, hkey, rfl, hids, hsessions, haggregate, hverify⟩

/-- A session that is refused before it sends anything. -/
theorem outcome_signAuthorization_refused (library : BitcoinLibrary) (sha256 : List UInt8 → Bytes 32)
    (signingSessionId : String) (authorization : BitcoinAuthorizationMessage)
    (signerSet : List ParticipantId) (rng : ParticipantId → NonZeroScalar)
    (h : ¬(validateGroupedThresholdSignerSet signerSet service.groupedConfig = .ok () ∧
      service.groupKey.isSome ∧ isBlank signingSessionId = false)) :
    ∃ fault, outcome (signAuthorization wire json library hash schnorr sha256 signingSessionId
      authorization signerSet rng) service = (.error fault, service) := by
  rw [signAuthorization, bind_ok (outcome_get _)]
  cases hvalid : validateGroupedThresholdSignerSet signerSet service.groupedConfig with
  | error fault => exact ⟨.dkgkit fault, bind_error rfl⟩
  | ok u =>
    rw [bind_ok (outcome_dkgkit_ok u service)]
    cases hkey : service.groupKey with
    | none => exact ⟨.anyhow (.err "vault DKG is not finalized"), bind_error rfl⟩
    | some groupKey =>
      have hblank : isBlank signingSessionId = true := by
        by_contra hblank
        exact h ⟨hvalid, by rw [hkey]; rfl, Bool.not_eq_true _ ▸ hblank⟩
      have hsession : SessionId.new signingSessionId = fail .emptySessionId := by
        rw [SessionId.new, hblank]
        rfl
      rw [okOrElse, bind_ok (outcome_anyhow_ok groupKey service), hsession]
      exact ⟨.dkgkit (.err .emptySessionId), bind_error rfl⟩

/-- The shares that valid signers hold after a ceremony, and the nonces that they draw. -/
theorem Holds.selects (h : Holds wire json (first :: draws) service) (session : SessionId)
    (rng : ParticipantId → NonZeroScalar)
    (hvalid : validateGroupedThresholdSignerSet signerSet service.groupedConfig = .ok ()) :
    ∃ (F : Scalar[X]) (members : List RankedParticipant),
      (⟨honestKey service.dkg.config first, service.dkg.config.participants.map
        (finalShare service.dkg.config first)⟩ : HtssLocalKeySet).Consistent service.dkg.config F ∧
      members ⊆ service.dkg.config.participants ∧ signerSet = members.map RankedParticipant.id ∧
      signerSet.mapM service.selectShare = .ok (members.map (derivativeShare F)) ∧
      collectResults (fun share : HtssLocalKeyShare => htssNonce session share (rng share.participantId))
        (members.map (derivativeShare F)) = .ok (members.map fun p => localNonce session rng p.id) := by
  obtain ⟨F, hkeys, hshares⟩ := h.keySet
  have hmembers := (members_of_grouped hvalid).2
  rw [← rankOf_of_translation h.translated] at hmembers
  obtain ⟨members, hsub, hsigners⟩ := exists_members h.ready.accepted hmembers
  refine ⟨F, members, hkeys, hsub, hsigners.symm, ?_, ?_⟩
  · rw [← hsigners, mapM_eq_ok, List.forall₂_map_left_iff, List.forall₂_map_right_iff, List.forall₂_same]
    intro p hp
    rw [selectShare, hshares p (hsub hp)]
    rfl
  · rw [collectResults_eq_ok, List.forall₂_map_left_iff, List.forall₂_map_right_iff, List.forall₂_same]
    exact fun p _ => rfl

/-- A signing session: the exact condition under which it returns a share, and that neither the
service nor what waits at the relay changes, whatever the outcome. -/
theorem Holds.signs (hwire : wire.json.RoundTrips) (hjson : ∀ channel, (json channel).RoundTrips)
    (himpl : schnorr.Implements hash) (h : Holds wire json draws service) (library : BitcoinLibrary)
    (sha256 : List UInt8 → Bytes 32) (signingSessionId : String)
    (authorization : BitcoinAuthorizationMessage) (signerSet : List ParticipantId)
    (rng : ParticipantId → NonZeroScalar) :
    ∃ c result, outcome (signAuthorization wire json library hash schnorr sha256 signingSessionId
        authorization signerSet rng) service = (result, service.withCoordinator c) ∧
      (∃ queues, Waiting wire json service.coordinator queues ∧ Waiting wire json c queues) ∧
      Holds wire json draws (service.withCoordinator c) ∧
      SignsAs library hash schnorr service signingSessionId (authorization.digest sha256) signerSet rng
        result := by
  obtain ⟨queues, hwaiting, hleft, hfew⟩ := h.waiting
  by_cases hready : validateGroupedThresholdSignerSet signerSet service.groupedConfig = .ok () ∧
      service.groupKey.isSome ∧ isBlank signingSessionId = false
  case neg =>
    obtain ⟨fault, hrun⟩ := @outcome_signAuthorization_refused wire json service hash schnorr library
      sha256 signingSessionId authorization signerSet rng hready
    exact ⟨service.coordinator, .error fault, hrun, ⟨queues, hwaiting, hwaiting⟩, h,
      .of_error fun hsignable => hready ⟨hsignable.2.2.1, hsignable.1, hsignable.2.1⟩⟩
  obtain ⟨hvalid, hsome, hblank⟩ := hready
  cases draws with
  | nil =>
    rw [h.groupKey] at hsome
    cases hsome
  | cons first later =>
    have hkey : okOrElse "vault DKG is not finalized" service.groupKey =
        .ok (honestKey service.dkg.config first) := by
      rw [h.groupKey]
      rfl
    obtain ⟨F, members, hkeys, hsub, hsigners, hselect, hnonces⟩ := h.selects signingSessionId rng hvalid
    obtain ⟨c, result, hrun, hc, hsigns⟩ := h.signAndVerify hwire hjson himpl library
      (authorization.digest sha256) hvalid hblank hkeys hsub hsigners hwaiting hleft
    refine ⟨c, result, ?_, ⟨queues, hwaiting, hc⟩, h.withCoordinator hc hleft hfew, hsigns⟩
    rw [signAuthorization, bind_ok (outcome_get _), hvalid, bind_ok (outcome_dkgkit_ok _ service), hkey,
      bind_ok (outcome_anyhow_ok _ service), sessionIdNew_eq_ok.mpr ⟨hblank, rfl⟩,
      bind_ok (outcome_dkgkit_ok signingSessionId service), hselect,
      bind_ok (outcome_anyhow_ok _ service), hnonces, bind_ok (outcome_dkgkit_ok _ service)]
    exact hrun

end Sessions

section Calls

/-- A call of the service, with what it draws. -/
inductive VaultCall
  | connectTransport
  | runHtssDkg (rng : ParticipantId → ℕ → NonZeroScalar)
  | deriveReceiveAddress (account change addressIndex : UInt32)
  | signAuthorization (signingSessionId : String) (authorization : BitcoinAuthorizationMessage)
      (signerSet : List ParticipantId) (rng : ParticipantId → NonZeroScalar)

def VaultCall.draws : VaultCall → Option (ParticipantId → ℕ → NonZeroScalar)
  | .runHtssDkg rng => some rng
  | .connectTransport => none
  | .deriveReceiveAddress _ _ _ => none
  | .signAuthorization _ _ _ _ => none

/-- The draws of the ceremonies among the calls. -/
def ceremonies (calls : List VaultCall) : List (ParticipantId → ℕ → NonZeroScalar) :=
  calls.filterMap VaultCall.draws

variable (wire : Wire) (json : PackageCodecs) (library : BitcoinLibrary) (hash : ChallengeHash)
  (schnorr : Schnorr) (sha256 : List UInt8 → Bytes 32)

def VaultCall.after : VaultCall → InMemoryVaultService → InMemoryVaultService
  | .connectTransport, service => (outcome (InMemoryVaultService.connectTransport wire) service).2
  | .runHtssDkg rng, service => (outcome (InMemoryVaultService.runHtssDkg wire json rng) service).2
  | .deriveReceiveAddress _ _ _, service => service
  | .signAuthorization signingSessionId authorization signerSet rng, service =>
    (outcome (InMemoryVaultService.signAuthorization wire json library hash schnorr sha256
      signingSessionId authorization signerSet rng) service).2

def run (calls : List VaultCall) (service : InMemoryVaultService) : InMemoryVaultService :=
  calls.foldl (fun service call => call.after wire json library hash schnorr sha256 service) service

end Calls

section Runs

variable {config : HierarchicalThresholdConfig} {rng : ParticipantId → ℕ → NonZeroScalar}
  {keySet : HtssLocalKeySet}

/-- A ceremony in one process completes only if the constant terms do not cancel. -/
theorem honestSecret_ne_zero_of_ok (hc : config.Accepted)
    (h : runDistributedHtssKeygen config rng = .ok keySet) : honestSecret config rng ≠ 0 := by
  intro hzero
  rw [runDistributedHtssKeygen_cancelled hc hzero] at h
  cases h

/-- Draws whose first ceremony completes, and of which no later one derives the same key. -/
structure Generic (dkg : HtssDkgService) (draws : List (ParticipantId → ℕ → NonZeroScalar)) : Prop where
  completes : ∀ first ∈ draws.head?, ∃ keySet, dkg.runLocalRehearsal first = .ok keySet
  differ : ∀ first ∈ draws.head?, ∀ rng ∈ draws.tail, ∀ firstKeys keySet,
    dkg.runLocalRehearsal first = .ok firstKeys → dkg.runLocalRehearsal rng = .ok keySet →
      firstKeys.groupKey.xonlyPublicKey ≠ keySet.groupKey.xonlyPublicKey

variable {wire : Wire} {json : PackageCodecs} {service : InMemoryVaultService}
  {draws : List (ParticipantId → ℕ → NonZeroScalar)} {hash : ChallengeHash} {schnorr : Schnorr}

theorem Holds.connects (h : Holds wire json draws service) : ∃ c,
    outcome (connectTransport wire) service = (.ok (), service.withCoordinator c) ∧
      Holds wire json draws (service.withCoordinator c) := by
  obtain ⟨queues, hwaiting, hleft, hfew⟩ := h.waiting
  exact ⟨_, outcome_focus rfl, h.withCoordinator hwaiting hleft hfew⟩

/-- A ceremony in any state. -/
theorem Holds.ceremony (hwire : wire.json.RoundTrips) (hjson : ∀ channel, (json channel).RoundTrips)
    (h : Holds wire json draws service) (hgeneric : Generic service.dkg (draws ++ [rng])) :
    ∃ service', outcome (runHtssDkg wire json rng) service =
        (if draws = [] then .ok () else .error (refusal (service.dkg.runLocalRehearsal rng)), service') ∧
      Holds wire json (draws ++ [rng]) service' ∧ service'.settings = service.settings := by
  cases draws with
  | nil =>
    obtain ⟨keySet, hkeySet⟩ := hgeneric.completes rng rfl
    rw [if_pos rfl]
    exact h.firstCeremony hwire hjson (honestSecret_ne_zero_of_ok h.ready.accepted hkeySet)
  | cons first later =>
    rw [if_neg (List.cons_ne_nil first later)]
    refine h.laterCeremony hwire hjson fun hsecret => ?_
    exact hgeneric.differ first rfl rng (List.mem_append_right later List.mem_cons_self) _ _
      (runDistributedHtssKeygen_honest h.ready.accepted (h.secret first rfl))
      (runDistributedHtssKeygen_honest h.ready.accepted hsecret)

theorem Generic.of_append {dkg : HtssDkgService} {draws rest : List (ParticipantId → ℕ → NonZeroScalar)}
    (h : Generic dkg (draws ++ rest)) : Generic dkg draws := by
  cases draws with
  | nil => exact ⟨fun _ hfirst => absurd hfirst (Option.not_mem_none _),
      fun _ hfirst => absurd hfirst (Option.not_mem_none _)⟩
  | cons first later =>
    exact ⟨h.completes, fun first hfirst rng hrng =>
      h.differ first hfirst rng (List.mem_append_left rest hrng)⟩

/-- What one call preserves: the first ceremony sets the key, nothing else does. -/
theorem Holds.after (hwire : wire.json.RoundTrips) (hjson : ∀ channel, (json channel).RoundTrips)
    (himpl : schnorr.Implements hash) (library : BitcoinLibrary) (sha256 : List UInt8 → Bytes 32)
    (h : Holds wire json draws service) (call : VaultCall)
    (hgeneric : Generic service.dkg (draws ++ call.draws.toList)) :
    Holds wire json (draws ++ call.draws.toList)
        (call.after wire json library hash schnorr sha256 service) ∧
      (call.after wire json library hash schnorr sha256 service).settings = service.settings := by
  cases call with
  | connectTransport =>
    obtain ⟨c, hrun, hc⟩ := h.connects
    rw [VaultCall.after, hrun, VaultCall.draws, Option.toList_none, List.append_nil]
    exact ⟨hc, rfl⟩
  | runHtssDkg rng =>
    obtain ⟨service', hrun, hholds, hsettings⟩ := h.ceremony hwire hjson hgeneric
    rw [VaultCall.after, hrun]
    exact ⟨hholds, hsettings⟩
  | deriveReceiveAddress account change addressIndex =>
    rw [VaultCall.draws, Option.toList_none, List.append_nil]
    exact ⟨h, rfl⟩
  | signAuthorization signingSessionId authorization signerSet rng =>
    obtain ⟨c, result, hrun, -, hholds, -⟩ := h.signs hwire hjson himpl library sha256 signingSessionId
      authorization signerSet rng
    rw [VaultCall.after, hrun, VaultCall.draws, Option.toList_none, List.append_nil]
    exact ⟨hholds, rfl⟩

/-- What a run preserves. -/
theorem Holds.run (hwire : wire.json.RoundTrips) (hjson : ∀ channel, (json channel).RoundTrips)
    (himpl : schnorr.Implements hash) (library : BitcoinLibrary) (sha256 : List UInt8 → Bytes 32)
    (h : Holds wire json draws service) (calls : List VaultCall)
    (hgeneric : Generic service.dkg (draws ++ ceremonies calls)) :
    Holds wire json (draws ++ ceremonies calls)
        (InMemoryVaultService.run wire json library hash schnorr sha256 calls service) ∧
      (InMemoryVaultService.run wire json library hash schnorr sha256 calls service).settings =
        service.settings := by
  induction calls generalizing draws service with
  | nil =>
    rw [ceremonies, List.filterMap_nil, List.append_nil]
    exact ⟨h, rfl⟩
  | cons call rest ih =>
    have hsplit : ceremonies (call :: rest) = call.draws.toList ++ ceremonies rest := by
      rw [ceremonies, List.filterMap_cons]
      cases call.draws <;> rfl
    rw [hsplit, ← List.append_assoc] at hgeneric ⊢
    obtain ⟨hafter, hsettings⟩ := h.after hwire hjson himpl library sha256 call hgeneric.of_append
    have hdkg : (call.after wire json library hash schnorr sha256 service).dkg = service.dkg :=
      congrArg (fun settings => settings.2.2.2) hsettings
    obtain ⟨hrun, hsame⟩ := ih hafter (hdkg ▸ hgeneric)
    exact ⟨hrun, hsame.trans hsettings⟩

theorem settings_new {dkgSessionId network : String} {chainCode : Bytes 32}
    {groupedConfig : GroupedThresholdConfig}
    (hnew : new dkgSessionId network chainCode groupedConfig = .ok service) :
    service.settings = (network, chainCode, groupedConfig, service.dkg) := by
  simp only [new, bind_eq_ok, Except.ok.injEq] at hnew
  obtain ⟨_, -, _, -, rfl⟩ := hnew
  rfl

/-- Of participants with nonzero ids, a first ceremony that completes fixes the key, the shares
and so the receive addresses of every state that a service reaches, as the ceremony in one
process returns them for its draws. Later ceremonies, none of which derives the same key, are
refused: with the error of the ceremony in one process, or because of their key. Until there is
a refused one, nothing is left at the relay between calls. -/
theorem vaultService_keeps_first_ceremony (hwire : wire.json.RoundTrips)
    (hjson : ∀ channel, (json channel).RoundTrips) (himpl : schnorr.Implements hash)
    (library : BitcoinLibrary) (sha256 : List UInt8 → Bytes 32) {dkgSessionId network : String}
    {chainCode : Bytes 32} {groupedConfig : GroupedThresholdConfig}
    (hnew : new dkgSessionId network chainCode groupedConfig = .ok service)
    (hids : ∀ p ∈ groupedConfig.participants, p.id ≠ 0) (calls : List VaultCall)
    (hgeneric : Generic service.dkg (ceremonies calls)) :
    let reached := run wire json library hash schnorr sha256 calls service
    (ceremonies calls = [] → reached.groupKey = none) ∧
    (∀ first ∈ (ceremonies calls).head?, ∃ keySet, service.dkg.runLocalRehearsal first = .ok keySet ∧
      reached.groupKey = some keySet.groupKey ∧
      (∀ share ∈ keySet.shares, reached.localShares[share.participantId]? = some share) ∧
      ∀ account change addressIndex, reached.deriveReceiveAddress library account change addressIndex =
        taprootChildAddressDescriptorForNetwork library ⟨keySet.groupKey, chainCode⟩ network
          (.bip86 account change addressIndex)) ∧
    ((ceremonies calls).length ≤ 1 → reached.coordinator.transport.pendingLen = 0) ∧
    ∀ rng, Generic service.dkg (ceremonies calls ++ [rng]) →
      (outcome (runHtssDkg wire json rng) reached).1 = if ceremonies calls = [] then .ok ()
        else match service.dkg.runLocalRehearsal rng with
          | .ok _ => .error (.err (.protocol "participants derived different group keys"))
          | .error fault => .error fault := by
  intro reached
  obtain ⟨hholds, hsettings⟩ := (holds_new hnew hids).run hwire hjson himpl library sha256 calls hgeneric
  change Holds wire json (ceremonies calls) reached at hholds
  have hdkg : reached.dkg = service.dkg := congrArg (fun settings => settings.2.2.2) hsettings
  have hnetwork : reached.network = network :=
    congrArg (fun settings => settings.1) (hsettings.trans (settings_new hnew))
  have hchainCode : reached.chainCode = chainCode :=
    congrArg (fun settings => settings.2.1) (hsettings.trans (settings_new hnew))
  refine ⟨fun hnil => ?_, fun first hfirst => ?_, fun hfew => ?_, fun rng hrng => ?_⟩
  · rw [hholds.groupKey, hnil]
    rfl
  · have hkey : reached.groupKey = some (honestKey service.dkg.config first) := by
      rw [hholds.groupKey, Option.mem_def.mp hfirst, hdkg]
      rfl
    have hrehearsal : service.dkg.runLocalRehearsal first = .ok ⟨honestKey service.dkg.config first,
        service.dkg.config.participants.map (finalShare service.dkg.config first)⟩ :=
      hdkg ▸ runDistributedHtssKeygen_honest hholds.ready.accepted (hholds.secret first hfirst)
    refine ⟨_, hrehearsal, hkey, fun share hshare => ?_, fun account change addressIndex => ?_⟩
    · obtain ⟨p, hp, rfl⟩ := List.mem_map.mp hshare
      exact hdkg ▸ hholds.shares first hfirst p (hdkg ▸ hp)
    · rw [deriveReceiveAddress, hkey, hnetwork, hchainCode]
      rfl
  · obtain ⟨queues, hwaiting, -, hempty⟩ := hholds.waiting
    rw [hempty hfew] at hwaiting
    exact congrArg List.length hwaiting.events_eq_nil
  · obtain ⟨service', hrun, -⟩ := hholds.ceremony hwire hjson (hdkg ▸ hrng)
    rw [hrun, hdkg]
    cases service.dkg.runLocalRehearsal rng <;> rfl

theorem pairVault_new : ∃ service, new "vault-dkg" "regtest" (List.Vector.replicate 32 0) pairGroups =
    .ok service ∧ service.dkg = ⟨"vault-dkg", pairConfig⟩ := ⟨_, rfl, rfl⟩

def unitDraws : ParticipantId → ℕ → NonZeroScalar := fun _ _ => NonZeroScalar.one

def otherDraws : ParticipantId → ℕ → NonZeroScalar := fun _ _ =>
  ⟨((2 : ℕ) : Scalar), scalar_natCast_ne_zero (by decide) (by decide)⟩

def cancellingDraws : ParticipantId → ℕ → NonZeroScalar := fun id _ =>
  if id = 1 then NonZeroScalar.one else ⟨-1, neg_ne_zero.mpr one_ne_zero⟩

theorem cancellingDraws_cancel : honestSecret pairConfig cancellingDraws = 0 := by
  have hsum : honestSecret pairConfig cancellingDraws = [(1 : Scalar), -1].sum := rfl
  rw [hsum]
  norm_num

/-- The keys of the two ceremonies are `2` and `4` times the generator. -/
theorem unitDraws_differ : honestSecret pairConfig otherDraws ≠ 0 ∧
    (honestKey pairConfig unitDraws).xonlyPublicKey ≠ (honestKey pairConfig otherDraws).xonlyPublicKey := by
  have hunit : honestSecret pairConfig unitDraws = ((2 : ℕ) : Scalar) := by
    have hsum : honestSecret pairConfig unitDraws = [(1 : Scalar), 1].sum := rfl
    rw [hsum]
    norm_num
  have hother : honestSecret pairConfig otherDraws = ((4 : ℕ) : Scalar) := by
    have hsum : honestSecret pairConfig otherDraws = [((2 : ℕ) : Scalar), ((2 : ℕ) : Scalar)].sum := rfl
    rw [hsum]
    norm_num
  have hne : ∀ n : ℕ, 0 < n → n < 7 → ((n : ℕ) : Scalar) • generator ≠ 0 := by
    intro n hpos hlt hzero
    exact scalar_natCast_ne_zero hpos (hlt.trans (by norm_num [groupOrder])) (smul_generator_eq_zero.mp hzero)
  refine ⟨hother ▸ scalar_natCast_ne_zero (by decide) (by decide), fun heq => ?_⟩
  rw [honestKey, honestKey, hunit, hother] at heq
  rcases eq_or_eq_neg_of_xonly (hne 2 (by decide) (by decide)) (hne 4 (by decide) (by decide)) heq with
      hsame | hopposite
  · have hscalar := smul_generator_injective hsame
    exact absurd ((scalar_natCast_inj (by decide) (by decide)).mp hscalar) (by decide)
  · refine hne 6 (by decide) (by decide) ?_
    have hsix : ((6 : ℕ) : Scalar) = ((2 : ℕ) : Scalar) + ((4 : ℕ) : Scalar) := by norm_num
    rw [hsix, add_smul, hopposite, neg_add_cancel]

theorem pairVault_generic {later : List (ParticipantId → ℕ → NonZeroScalar)}
    (hlater : ∀ rng ∈ later, rng = otherDraws ∨ rng = cancellingDraws) :
    Generic ⟨"vault-dkg", pairConfig⟩ (unitDraws :: later) := by
  have hc := HierarchicalThresholdConfig.accepted_of_new pairConfig_new
  have hunit := runDistributedHtssKeygen_honest hc honestSecret_pair_ne_zero
  refine ⟨fun first hfirst => ?_, fun first hfirst rng hrng firstKeys keySet hkeys hkeySet => ?_⟩
  · obtain rfl := Option.some.inj hfirst
    exact ⟨_, hunit⟩
  · obtain rfl := Option.some.inj hfirst
    obtain rfl := Except.ok.inj (hunit.symm.trans hkeys)
    rcases hlater rng hrng with rfl | rfl
    · obtain rfl := Except.ok.inj
        ((runDistributedHtssKeygen_honest hc unitDraws_differ.1).symm.trans hkeySet)
      exact unitDraws_differ.2
    · exact absurd cancellingDraws_cancel (honestSecret_ne_zero_of_ok hc hkeySet)

theorem pairVault_ids : ∀ p ∈ pairGroups.participants, p.id ≠ 0 := by decide

/-- After a ceremony whose draws cancel, a third one, with another key, is refused as well. -/
theorem vaultService_keeps_first_ceremony_pair : ∃ service,
    new "vault-dkg" "regtest" (List.Vector.replicate 32 0) pairGroups = .ok service ∧
    ∃ keySet, service.dkg.runLocalRehearsal unitDraws = .ok keySet ∧
      let reached := run helloWire helloCodecs plainLibrary sampleHash sampleSchnorr
        (fun _ => List.Vector.replicate 32 0)
        [.connectTransport, .runHtssDkg unitDraws, .runHtssDkg cancellingDraws] service
      reached.groupKey = some keySet.groupKey ∧
      (outcome (runHtssDkg helloWire helloCodecs otherDraws) reached).1 =
        .error (.err (.protocol "participants derived different group keys")) := by
  obtain ⟨service, hnew, hdkg⟩ := pairVault_new
  have hkeeps := vaultService_keeps_first_ceremony helloWire_roundTrips helloCodecs_roundTrips
    sampleSchnorr_implements plainLibrary (fun _ => List.Vector.replicate 32 0) hnew pairVault_ids
    [.connectTransport, .runHtssDkg unitDraws, .runHtssDkg cancellingDraws]
    (hdkg ▸ @pairVault_generic [cancellingDraws] (by simp))
  obtain ⟨keySet, hrehearsal, hkey, -⟩ := hkeeps.2.1 _ rfl
  have hrefused := hkeeps.2.2.2 otherDraws (hdkg ▸ @pairVault_generic [cancellingDraws, otherDraws] (by simp))
  have hother := runDistributedHtssKeygen_honest
    (HierarchicalThresholdConfig.accepted_of_new pairConfig_new) unitDraws_differ.1
  rw [hdkg, HtssDkgService.runLocalRehearsal, hother] at hrefused
  exact ⟨service, hnew, keySet, hrehearsal, hkey, hrefused⟩

/-- Where ids are nonzero, the first ceremony completes and no later one derives the same key, a
signing session in any state that a service reaches returns a share exactly if there has been a
ceremony, the session id is not blank, the grouped policy accepts the signers, their
coefficients exist and their nonces do not cancel. The share is then the first signer's, and the
shares of that session aggregate to a signature that verifies. In no case does the session
change the service or what waits at the relay. -/
theorem vaultService_signs_iff (hwire : wire.json.RoundTrips)
    (hjson : ∀ channel, (json channel).RoundTrips) (himpl : schnorr.Implements hash)
    (library : BitcoinLibrary) (sha256 : List UInt8 → Bytes 32) {dkgSessionId network : String}
    {chainCode : Bytes 32} {groupedConfig : GroupedThresholdConfig}
    (hnew : new dkgSessionId network chainCode groupedConfig = .ok service)
    (hids : ∀ p ∈ groupedConfig.participants, p.id ≠ 0) (calls : List VaultCall)
    (hgeneric : Generic service.dkg (ceremonies calls)) (signingSessionId : String)
    (authorization : BitcoinAuthorizationMessage) (signerSet : List ParticipantId)
    (rng : ParticipantId → NonZeroScalar) :
    let reached := run wire json library hash schnorr sha256 calls service
    (reached.groupKey.isSome ↔ ceremonies calls ≠ []) ∧ reached.groupedConfig = groupedConfig ∧
    hierarchicalConfigFromGroupedThreshold groupedConfig = .ok reached.dkg.config ∧
    ∃ c result, outcome (signAuthorization wire json library hash schnorr sha256 signingSessionId
        authorization signerSet rng) reached = (result, reached.withCoordinator c) ∧
      (∃ queues, Waiting wire json reached.coordinator queues ∧ Waiting wire json c queues) ∧
      SignsAs library hash schnorr reached signingSessionId (authorization.digest sha256) signerSet rng
        result := by
  intro reached
  obtain ⟨hholds, hsettings⟩ := (holds_new hnew hids).run hwire hjson himpl library sha256 calls hgeneric
  change Holds wire json (ceremonies calls) reached at hholds
  have hgrouped : reached.groupedConfig = groupedConfig :=
    congrArg (fun settings => settings.2.2.1) (hsettings.trans (settings_new hnew))
  obtain ⟨c, result, hrun, hwaiting, -, hsigns⟩ := hholds.signs hwire hjson himpl library sha256
    signingSessionId authorization signerSet rng
  refine ⟨?_, hgrouped, hgrouped ▸ hholds.translated, c, result, hrun, hwaiting, hsigns⟩
  rw [hholds.groupKey, Option.isSome_map, List.isSome_head?]

theorem vaultService_signs_iff_pair : ∃ service share,
    new "vault-dkg" "regtest" (List.Vector.replicate 32 0) pairGroups = .ok service ∧
    (outcome (signAuthorization helloWire helloCodecs plainLibrary sampleHash sampleSchnorr
      (fun _ => List.Vector.replicate 32 0) "vault-signing" ⟨"regtest", "approve", none, none, none, "1"⟩
      [1, 2] fun _ => NonZeroScalar.one)
      (run helloWire helloCodecs plainLibrary sampleHash sampleSchnorr (fun _ => List.Vector.replicate 32 0)
        [.connectTransport, .runHtssDkg unitDraws] service)).1 = .ok share := by
  obtain ⟨service, hnew, hdkg⟩ := pairVault_new
  obtain ⟨hfinalized, hgrouped, htranslate, c, result, hrun, -, hsigns⟩ := vaultService_signs_iff
    helloWire_roundTrips helloCodecs_roundTrips sampleSchnorr_implements plainLibrary
    (fun _ => List.Vector.replicate 32 0) hnew pairVault_ids [.connectTransport, .runHtssDkg unitDraws]
    (hdkg ▸ @pairVault_generic [] (by simp)) "vault-signing"
    ⟨"regtest", "approve", none, none, none, "1"⟩ [1, 2] fun _ => NonZeroScalar.one
  rw [pairGroups_translate, Except.ok.injEq] at htranslate
  have hsolvable := (quorum_iff_solvable
    (HierarchicalThresholdConfig.accepted_of_new pairConfig_new)).mp pairConfig_quorum
  obtain ⟨share, rfl⟩ := hsigns.isOk_iff.mpr
    ⟨hfinalized.mpr (List.cons_ne_nil _ _), rfl, by rw [hgrouped]; rfl, htranslate ▸ hsolvable,
      sum_ones_ne_zero⟩
  exact ⟨service, share, hnew, by rw [hrun]⟩

end Runs

end InMemoryVaultService

end DkgKit
