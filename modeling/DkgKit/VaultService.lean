import DkgKit.Authorization
import DkgKit.Ceremony
import DkgKit.NostrCoordinator
import DkgKit.OrderedMaps
import DkgKit.StatefulPrograms
import DkgKit.VaultSigning

/-! The vault service: key generation of all participants and signing by a quorum, with every
package sent through one coordinator over the Nostr-shaped transport. -/

open Polynomial BigEndian BirkhoffMatrix LoopRules SelectiveQueue OrderedMaps StatefulPrograms

namespace DkgKit

section Service

structure HtssDkgService where
  sessionId : SessionId
  config : HierarchicalThresholdConfig

namespace HtssDkgService

def new (sessionId : String) (config : HierarchicalThresholdConfig) : Result HtssDkgService := do
  let sessionId ← SessionId.new sessionId
  .ok ⟨sessionId, config⟩

variable (service : HtssDkgService)

def beginRound1 (participantId : ParticipantId) (rng : ℕ → NonZeroScalar) : Result HtssDkgRound1State :=
  htssDkgRound1 participantId service.config rng

def createRound2Packages (state : HtssDkgRound1State) (round1Packages : List HtssDkgRound1Package) :
    Result (List HtssDkgRound2Package) :=
  htssDkgRound2 state round1Packages service.config

def finalizeParticipant (participantId : ParticipantId) (round1Packages : List HtssDkgRound1Package)
    (round2Packages : List HtssDkgRound2Package) : Result (GroupKey × HtssLocalKeyShare) :=
  finalizeHtssDkg participantId round1Packages round2Packages service.config

def runLocalRehearsal (rng : ParticipantId → ℕ → NonZeroScalar) : Result HtssLocalKeySet :=
  runDistributedHtssKeygen service.config rng

end HtssDkgService

def FrostCoordinator.connect {τ : Type} (impl : Transport τ) (coordinator : FrostCoordinator τ) :
    Result Unit × FrostCoordinator τ :=
  let (result, transport) := impl.connect coordinator.transport
  (result, ⟨transport⟩)

/-- A call that ends in an error of the crates or of `anyhow`. -/
inductive VaultFault
  | dkgkit (fault : Fault)
  | anyhow (fault : AnyhowFault)
  deriving DecidableEq, Repr

structure InMemoryVaultService where
  network : String
  chainCode : Bytes 32
  groupedConfig : GroupedThresholdConfig
  dkg : HtssDkgService
  coordinator : FrostCoordinator LocalNostrEventTransport
  round1States : Std.TreeMap ParticipantId HtssDkgRound1State
  localShares : Std.TreeMap ParticipantId HtssLocalKeyShare
  groupKey : Option GroupKey

namespace InMemoryVaultService

def new (dkgSessionId network : String) (chainCode : Bytes 32) (groupedConfig : GroupedThresholdConfig) :
    Result InMemoryVaultService := do
  let htssConfig ← hierarchicalConfigFromGroupedThreshold groupedConfig
  let dkg ← HtssDkgService.new dkgSessionId htssConfig
  .ok ⟨network, chainCode, groupedConfig, dkg, ⟨LocalNostrEventTransport.default⟩, ∅, ∅, none⟩

def withCoordinator (coordinator : FrostCoordinator LocalNostrEventTransport)
    (service : InMemoryVaultService) : InMemoryVaultService :=
  { service with coordinator := coordinator }

/-- A call of the service's own coordinator. -/
def coordinate {α : Type} (call : FrostCoordinator LocalNostrEventTransport →
    Result α × FrostCoordinator LocalNostrEventTransport) : Program Fault InMemoryVaultService α :=
  focus coordinator withCoordinator call

variable (wire : Wire) (json : PackageCodecs)

def connectTransport : Program Fault InMemoryVaultService Unit :=
  coordinate (FrostCoordinator.connect (LocalNostrEventTransport.transport wire))

def publishRound1For (dkg : HtssDkgService) (rng : ParticipantId → ℕ → NonZeroScalar)
    (participant : RankedParticipant) : Program Fault InMemoryVaultService Unit := do
  let state ← attempt (dkg.beginRound1 participant.id (rng participant.id))
  coordinate (FrostCoordinator.publishHtssDkgRound1 (LocalNostrEventTransport.transport wire) json
    dkg.sessionId state.package)
  modify fun service => { service with round1States := service.round1States.insert participant.id state }

def publishRound2For (dkg : HtssDkgService) (round1Packages : List HtssDkgRound1Package)
    (state : HtssDkgRound1State) : Program Fault InMemoryVaultService Unit := do
  let packages ← attempt (dkg.createRound2Packages state round1Packages)
  packages.forM fun package => coordinate (FrostCoordinator.publishHtssDkgRound2
    (LocalNostrEventTransport.transport wire) json dkg.sessionId package)

def finalizeFor (dkg : HtssDkgService) (round1Packages : List HtssDkgRound1Package)
    (participant : RankedParticipant) : Program Fault InMemoryVaultService Unit := do
  let round2ForParticipant ← coordinate (FrostCoordinator.drainHtssDkgRound2For
    (LocalNostrEventTransport.transport wire) json dkg.sessionId participant.id)
  let (groupKey, localShare) ← attempt
    (dkg.finalizeParticipant participant.id round1Packages round2ForParticipant)
  match (← get).groupKey with
  | some existing =>
    if existing.xonlyPublicKey ≠ groupKey.xonlyPublicKey then
      throw (.err (.protocol "participants derived different group keys"))
  | none => modify fun service => { service with groupKey := some groupKey }
  modify fun service =>
    { service with localShares := service.localShares.insert participant.id localShare }

/-- The three loops of `run_htss_dkg`; round two goes through the states in the order of ids. -/
def runHtssDkg (rng : ParticipantId → ℕ → NonZeroScalar) : Program Fault InMemoryVaultService Unit := do
  let dkg := (← get).dkg
  dkg.config.participants.forM (publishRound1For wire json dkg rng)
  let round1Packages ← coordinate (FrostCoordinator.drainHtssDkgRound1
    (LocalNostrEventTransport.transport wire) json dkg.sessionId)
  (values (← get).round1States).forM (publishRound2For wire json dkg round1Packages)
  dkg.config.participants.forM (finalizeFor wire json dkg round1Packages)

variable (library : BitcoinLibrary) (hash : ChallengeHash) (schnorr : Schnorr)
  (sha256 : List UInt8 → Bytes 32)

def deriveReceiveAddress (service : InMemoryVaultService) (account change addressIndex : UInt32) :
    AnyhowResult BitcoinAddressDescriptor := do
  let groupKey ← okOrElse "vault DKG is not finalized" service.groupKey
  taprootChildAddressDescriptorForNetwork library ⟨groupKey, service.chainCode⟩ service.network
    (.bip86 account change addressIndex)

def publishSignatureShareFor (groupKey : GroupKey) (digest : Bytes 32)
    (publicNonces : List HtssNoncePackage) (signerSet : List ParticipantId)
    (config : HierarchicalThresholdConfig) (pair : HtssLocalKeyShare × HtssLocalNonce) :
    Program Fault InMemoryVaultService Unit := do
  let signatureShare ← attempt
    (htssSignShare schnorr groupKey digest pair.1 pair.2 publicNonces signerSet config)
  coordinate (FrostCoordinator.publishHtssSignatureShare (LocalNostrEventTransport.transport wire) json
    signatureShare)

/-- The messages of a signing session, and the aggregate of what comes back. -/
def signOverTransport (signingSessionId : SessionId) (groupKey : GroupKey) (digest : Bytes 32)
    (selectedShares : List HtssLocalKeyShare) (localNonces : List HtssLocalNonce)
    (signerSet : List ParticipantId) (config : HierarchicalThresholdConfig) :
    Program Fault InMemoryVaultService (List HtssSignatureSharePackage × AggregateSignature) := do
  localNonces.forM fun nonce => coordinate (FrostCoordinator.publishHtssNonce
    (LocalNostrEventTransport.transport wire) json nonce.package)
  let publicNonces ← coordinate (FrostCoordinator.drainHtssNonces
    (LocalNostrEventTransport.transport wire) json signingSessionId)
  (selectedShares.zip localNonces).forM
    (publishSignatureShareFor wire json schnorr groupKey digest publicNonces signerSet config)
  let signatureShares ← coordinate (FrostCoordinator.drainHtssSignatureShares
    (LocalNostrEventTransport.transport wire) json signingSessionId)
  let aggregate ← attempt (aggregateHtssSignatureShares schnorr groupKey digest publicNonces
    signatureShares signerSet config)
  pure (signatureShares, aggregate)

def selectShare (service : InMemoryVaultService) (participantId : ParticipantId) :
    AnyhowResult HtssLocalKeyShare :=
  okOrElse s!"missing local share for signer {participantId}" service.localShares[participantId]?

def dkgkit {α : Type} (x : Result α) : Program VaultFault InMemoryVaultService α :=
  attempt (x.mapError .dkgkit)

def anyhow {α : Type} (x : AnyhowResult α) : Program VaultFault InMemoryVaultService α :=
  attempt (x.mapError .anyhow)

def signAndVerify (signingSessionId : SessionId) (groupKey : GroupKey) (digest : Bytes 32)
    (selectedShares : List HtssLocalKeyShare) (localNonces : List HtssLocalNonce)
    (signerSet : List ParticipantId) (config : HierarchicalThresholdConfig) :
    Program VaultFault InMemoryVaultService HtssSignatureSharePackage := do
  let (signatureShares, aggregate) ← ExceptT.adapt VaultFault.dkgkit (signOverTransport wire json schnorr
    signingSessionId groupKey digest selectedShares localNonces signerSet config)
  let verified ← anyhow (verifyAggregateSignatureDigest library hash groupKey digest aggregate)
  if verified then anyhow (okOrElse "no signature shares produced" signatureShares.head?)
  else throw (VaultFault.anyhow (.err "aggregate signature failed Bitcoin verification"))

def signAuthorization (signingSessionId : String) (authorization : BitcoinAuthorizationMessage)
    (signerSet : List ParticipantId) (rng : ParticipantId → NonZeroScalar) :
    Program VaultFault InMemoryVaultService HtssSignatureSharePackage := do
  let service ← get
  dkgkit (validateGroupedThresholdSignerSet signerSet service.groupedConfig)
  let groupKey ← anyhow (okOrElse "vault DKG is not finalized" service.groupKey)
  let signingSessionId ← dkgkit (SessionId.new signingSessionId)
  let selectedShares ← anyhow (signerSet.mapM service.selectShare)
  let localNonces ← dkgkit (collectResults (fun share : HtssLocalKeyShare =>
    htssNonce signingSessionId share (rng share.participantId)) selectedShares)
  signAndVerify wire json library hash schnorr signingSessionId groupKey (authorization.digest sha256)
    selectedShares localNonces signerSet service.dkg.config

end InMemoryVaultService

end Service

namespace InMemoryVaultService

section Coordination

variable {wire : Wire} {json : PackageCodecs} {service : InMemoryVaultService} {queues : Queues}

@[simp] theorem withCoordinator_withCoordinator (service : InMemoryVaultService)
    (c c' : FrostCoordinator LocalNostrEventTransport) :
    (service.withCoordinator c).withCoordinator c' = service.withCoordinator c' := rfl

@[simp] theorem coordinator_withCoordinator (service : InMemoryVaultService)
    (c : FrostCoordinator LocalNostrEventTransport) : (service.withCoordinator c).coordinator = c := rfl

theorem coordinate_publish (hwire : wire.json.RoundTrips) (hjson : ∀ channel, (json channel).RoundTrips)
    (h : Waiting wire json service.coordinator queues) {publication : Publication}
    (hlen : publication.LengthValid) (hwf : publication.WellFormed) :
    ∃ c, outcome (coordinate (FrostCoordinator.publish (LocalNostrEventTransport.transport wire) json
        publication)) service = (.ok (), service.withCoordinator c) ∧
      Waiting wire json c (push queues publication.address publication.package) := by
  obtain ⟨events, hpublish, hwaiting⟩ := h.publish hwire hjson hlen hwf
  exact ⟨_, outcome_focus hpublish, hwaiting⟩

theorem coordinate_drain (h : Waiting wire json service.coordinator queues) (drain : Drain) :
    ∃ c, outcome (coordinate (FrostCoordinator.drain (LocalNostrEventTransport.transport wire) json
        drain)) service = (.ok (queues drain.address), service.withCoordinator c) ∧
      Waiting wire json c (clear queues drain.address) := by
  obtain ⟨events, hdrain, hwaiting⟩ := h.drain drain
  exact ⟨_, outcome_focus hdrain, hwaiting⟩

/-- A loop that publishes one package a pass delivers them in the order of the loop. -/
theorem forM_publish {α : Type} (hwire : wire.json.RoundTrips)
    (hjson : ∀ channel, (json channel).RoundTrips) (h : Waiting wire json service.coordinator queues)
    {l : List α} {body : α → Program Fault InMemoryVaultService Unit} (publication : α → Publication)
    (hbody : ∀ a ∈ l, ∀ s, outcome (body a) s = outcome (coordinate (FrostCoordinator.publish
      (LocalNostrEventTransport.transport wire) json (publication a))) s)
    (hlen : ∀ a ∈ l, (publication a).LengthValid) (hwf : ∀ a ∈ l, (publication a).WellFormed) :
    ∃ c, outcome (l.forM body) service = (.ok (), service.withCoordinator c) ∧
      Waiting wire json c (deliver queues
        (l.map fun a => ⟨(publication a).address, (publication a).package⟩)) := by
  obtain ⟨s', hloop, c, rfl, hwaiting⟩ := forM_ok (f := body) (s := service) (l := l)
    (fun done s => ∃ c, s = service.withCoordinator c ∧ Waiting wire json c (deliver queues
      (done.map fun a => ⟨(publication a).address, (publication a).package⟩)))
    (fun done a rest hl s hs => by
      obtain ⟨c, rfl, hc⟩ := hs
      have ha : a ∈ l := hl ▸ List.mem_append_right done List.mem_cons_self
      obtain ⟨c', hpublish, hc'⟩ := @coordinate_publish _ _ (service.withCoordinator c) _ hwire hjson hc
        (publication a) (hlen a ha) (hwf a ha)
      refine ⟨_, (hbody a ha _).trans hpublish, c', rfl, ?_⟩
      rw [push_deliver] at hc'
      rw [List.map_append]
      exact hc')
    ⟨service.coordinator, rfl, by rw [List.map_nil, deliver_nil]; exact h⟩
  exact ⟨c, hloop, hwaiting⟩

/-- Packages published at an address where nothing waits are read back, and nothing is left. -/
theorem outcome_exchange {α : Type} (hwire : wire.json.RoundTrips)
    (hjson : ∀ channel, (json channel).RoundTrips) (h : Waiting wire json service.coordinator queues)
    (drain : Drain) (hempty : queues drain.address = []) {l : List α}
    {body : α → Program Fault InMemoryVaultService Unit} (publication : α → Publication)
    (package : α → drain.address.Package) (hsent : ∀ a ∈ l,
      (⟨(publication a).address, (publication a).package⟩ : Σ address : Address, address.Package) =
        ⟨drain.address, package a⟩)
    (hbody : ∀ a ∈ l, ∀ s, outcome (body a) s = outcome (coordinate (FrostCoordinator.publish
      (LocalNostrEventTransport.transport wire) json (publication a))) s)
    (hlen : ∀ a ∈ l, (publication a).LengthValid) (hwf : ∀ a ∈ l, (publication a).WellFormed) :
    ∃ c c', outcome (l.forM body) service = (.ok (), service.withCoordinator c) ∧
      outcome (coordinate (FrostCoordinator.drain (LocalNostrEventTransport.transport wire) json drain))
        (service.withCoordinator c) = (.ok (l.map package), service.withCoordinator c') ∧
      Waiting wire json c' queues := by
  obtain ⟨c, hpublish, hc⟩ := forM_publish hwire hjson h publication hbody hlen hwf
  rw [List.map_congr_left hsent] at hc
  obtain ⟨c', hdrain, hc'⟩ := @coordinate_drain _ _ (service.withCoordinator c) _ hc drain
  rw [deliver, hempty, List.nil_append, fiber_map_const] at hdrain
  rw [clear_deliver hempty fun sent hmem => by
    obtain ⟨a, -, rfl⟩ := List.mem_map.mp hmem
    rfl] at hc'
  exact ⟨c, c', hpublish, hdrain, hc'⟩

end Coordination

section Ceremony

variable {wire : Wire} {json : PackageCodecs} {service : InMemoryVaultService} {queues : Queues}
  {config : HierarchicalThresholdConfig} {sessionId : SessionId}
  {rng : ParticipantId → ℕ → NonZeroScalar}

/-- What a ceremony needs of its members and of its session. -/
structure CeremonyReady (dkg : HtssDkgService) : Prop where
  accepted : dkg.config.Accepted
  ids : ∀ p ∈ dkg.config.participants, p.id ≠ 0
  session : isBlank dkg.sessionId = false

/-- The packages of round one as they are sent. -/
def sentRound1 (dkg : HtssDkgService) (rng : ParticipantId → ℕ → NonZeroScalar)
    (members : List RankedParticipant) : List (Σ address : Address, address.Package) :=
  members.map fun p => ⟨⟨.htssDkgRound1, dkg.sessionId, none⟩, (honestState dkg.config rng p).package⟩

def withRound1 (config : HierarchicalThresholdConfig) (rng : ParticipantId → ℕ → NonZeroScalar)
    (members : List RankedParticipant) (service : InMemoryVaultService) : InMemoryVaultService :=
  let states := insertAll RankedParticipant.id (honestState config rng) members service.round1States
  { service with round1States := states }

theorem outcome_round1 (hwire : wire.json.RoundTrips) (hjson : ∀ channel, (json channel).RoundTrips)
    {dkg : HtssDkgService} (hdkg : CeremonyReady dkg) (h : Waiting wire json service.coordinator queues) :
    ∃ c, outcome (dkg.config.participants.forM (publishRound1For wire json dkg rng)) service =
        (.ok (), (service.withCoordinator c).withRound1 dkg.config rng dkg.config.participants) ∧
      Waiting wire json c (deliver queues (sentRound1 dkg rng dkg.config.participants)) := by
  obtain ⟨s', hloop, c, rfl, hwaiting⟩ := forM_ok (f := publishRound1For wire json dkg rng)
    (s := service) (l := dkg.config.participants)
    (fun done s => ∃ c, s = (service.withCoordinator c).withRound1 dkg.config rng done ∧
      Waiting wire json c (deliver queues (sentRound1 dkg rng done)))
    (fun done p rest hl s hs => by
      obtain ⟨c, rfl, hc⟩ := hs
      have hp : p ∈ dkg.config.participants := hl ▸ List.mem_append_right done List.mem_cons_self
      have hstate : dkg.beginRound1 p.id (rng p.id) = .ok (honestState dkg.config rng p) :=
        htssDkgRound1_honest hdkg.accepted hp
      have hwf : (Publication.htssDkgRound1 dkg.sessionId
          (honestState dkg.config rng p).package).WellFormed :=
        ⟨hdkg.ids p hp, by simp [Publication.address], hdkg.session⟩
      obtain ⟨c', hpublish, hc'⟩ := @coordinate_publish _ _
        ((service.withCoordinator c).withRound1 dkg.config rng done) _ hwire hjson hc
        (.htssDkgRound1 dkg.sessionId (honestState dkg.config rng p).package) trivial hwf
      refine ⟨(service.withCoordinator c').withRound1 dkg.config rng (done ++ [p]), ?_, c', rfl, ?_⟩
      · rw [publishRound1For, hstate, bind_ok (outcome_attempt _ _)]
        refine (bind_ok hpublish).trans ?_
        rw [outcome_modify, withRound1, withRound1, insertAll_append]
        rfl
      · rw [push_deliver] at hc'
        rw [sentRound1, List.map_append]
        exact hc')
    ⟨service.coordinator, rfl, by rw [sentRound1, List.map_nil, deliver_nil]; exact h⟩
  exact ⟨c, hloop, hwaiting⟩

/-- The shares that the member with this state sends. -/
noncomputable def sharesFrom (config : HierarchicalThresholdConfig)
    (rng : ParticipantId → ℕ → NonZeroScalar) (state : HtssDkgRound1State) : List HtssDkgRound2Package :=
  config.participants.map
    (honestShare config rng ⟨state.package.participantId, state.package.rank, none⟩)

def round2Address (dkg : HtssDkgService) (recipient : ParticipantId) : Address :=
  ⟨.htssDkgRound2, dkg.sessionId, some recipient⟩

def sentRound2 (dkg : HtssDkgService) (packages : List HtssDkgRound2Package) :
    List (Σ address : Address, address.Package) :=
  packages.map fun package => ⟨⟨.htssDkgRound2, dkg.sessionId, some package.recipient⟩, package⟩

theorem fiber_sentRound2 (dkg : HtssDkgService) (recipient : ParticipantId)
    (packages : List HtssDkgRound2Package) : fiber (round2Address dkg recipient) (sentRound2 dkg packages) =
      packages.filter fun package => package.recipient == recipient := by
  induction packages with
  | nil => rfl
  | cons package rest ih =>
    by_cases h : package.recipient = recipient
    · subst h
      have hfilter : (package :: rest).filter (fun other => other.recipient == package.recipient) =
          package :: rest.filter fun other => other.recipient == package.recipient :=
        List.filter_cons_of_pos (beq_self_eq_true package.recipient)
      have hfiber := fiber_cons_self (round2Address dkg package.recipient) package (sentRound2 dkg rest)
      exact hfiber.trans ((congrArg (List.cons package) ih).trans hfilter.symm)
    · have haddress : round2Address dkg package.recipient ≠ round2Address dkg recipient :=
        fun heq => h (Option.some.inj (congrArg Address.recipient heq))
      have hfilter : (package :: rest).filter (fun other => other.recipient == recipient) =
          rest.filter fun other => other.recipient == recipient :=
        List.filter_cons_of_neg (by simpa using h)
      exact (fiber_cons_of_ne haddress (sentRound2 dkg rest)).trans (ih.trans hfilter.symm)

theorem outcome_round2 (hwire : wire.json.RoundTrips) (hjson : ∀ channel, (json channel).RoundTrips)
    {dkg : HtssDkgService} (hdkg : CeremonyReady dkg) (h : Waiting wire json service.coordinator queues)
    {states : List HtssDkgRound1State}
    (hstates : ∀ state ∈ states, ∃ p ∈ dkg.config.participants, state = honestState dkg.config rng p)
    {round1Packages : List HtssDkgRound1Package} (hperm : round1Packages.Perm
      (dkg.config.participants.map fun p => (honestState dkg.config rng p).package)) :
    ∃ c, outcome (states.forM (publishRound2For wire json dkg round1Packages)) service =
        (.ok (), service.withCoordinator c) ∧
      Waiting wire json c (deliver queues
        (sentRound2 dkg (states.flatMap (sharesFrom dkg.config rng)))) := by
  obtain ⟨s', hloop, c, rfl, hwaiting⟩ := forM_ok (f := publishRound2For wire json dkg round1Packages)
    (s := service) (l := states)
    (fun done s => ∃ c, s = service.withCoordinator c ∧ Waiting wire json c
      (deliver queues (sentRound2 dkg (done.flatMap (sharesFrom dkg.config rng)))))
    (fun done state rest hl s hs => by
      obtain ⟨c, rfl, hc⟩ := hs
      obtain ⟨p, hp, rfl⟩ := hstates state (hl ▸ List.mem_append_right done List.mem_cons_self)
      have hround2 : dkg.createRound2Packages (honestState dkg.config rng p) round1Packages =
          .ok (sharesFrom dkg.config rng (honestState dkg.config rng p)) :=
        htssDkgRound2_honest hdkg.accepted hp hperm
      obtain ⟨c', hpublish, hc'⟩ := @forM_publish _ _ (service.withCoordinator c) _ _ hwire hjson hc
        (sharesFrom dkg.config rng (honestState dkg.config rng p))
        (fun package => coordinate (FrostCoordinator.publishHtssDkgRound2
          (LocalNostrEventTransport.transport wire) json dkg.sessionId package))
        (.htssDkgRound2 dkg.sessionId) (fun _ _ _ => rfl) (fun _ _ => trivial)
        (fun package hpackage => by
          obtain ⟨q, hq, rfl⟩ := List.mem_map.mp hpackage
          refine ⟨hdkg.ids p hp, fun hzero => hdkg.ids q hq ?_, hdkg.session⟩
          exact Option.some.inj hzero)
      refine ⟨service.withCoordinator c', ?_, c', rfl, ?_⟩
      · rw [publishRound2For, hround2, bind_ok (outcome_attempt _ _)]
        exact hpublish
      · rw [deliver_deliver] at hc'
        rw [List.flatMap_append, sentRound2, List.map_append, List.flatMap_singleton]
        exact hc')
    ⟨service.coordinator, rfl, by rw [List.flatMap_nil, sentRound2, List.map_nil, deliver_nil]; exact h⟩
  exact ⟨c, hloop, hwaiting⟩

noncomputable def withShares (config : HierarchicalThresholdConfig) (rng : ParticipantId → ℕ → NonZeroScalar)
    (members : List RankedParticipant) (service : InMemoryVaultService) : InMemoryVaultService :=
  let shares := insertAll RankedParticipant.id (finalShare config rng) members service.localShares
  let groupKey := if members = [] then service.groupKey else some (honestKey config rng)
  { service with localShares := shares, groupKey := groupKey }

theorem withShares_append (members : List RankedParticipant) (p : RankedParticipant)
    (service : InMemoryVaultService) : service.withShares config rng (members ++ [p]) =
      { service.withShares config rng members with
        localShares := (service.withShares config rng members).localShares.insert p.id
          (finalShare config rng p)
        groupKey := some (honestKey config rng) } := by
  have hne : members ++ [p] ≠ [] := List.append_ne_nil_of_right_ne_nil _ (List.cons_ne_nil _ _)
  simp only [withShares, insertAll_append, if_neg hne]

theorem outcome_finalize {dkg : HtssDkgService} (hdkg : CeremonyReady dkg)
    (h : Waiting wire json service.coordinator queues) (hkey : service.groupKey = none)
    (hsecret : honestSecret dkg.config rng ≠ 0) {round1Packages : List HtssDkgRound1Package}
    (h1 : round1Packages.Perm
      (dkg.config.participants.map fun p => (honestState dkg.config rng p).package))
    (h2 : ∀ q ∈ dkg.config.participants, (queues (round2Address dkg q.id)).Perm
      (dkg.config.participants.map fun p => honestShare dkg.config rng p q)) :
    ∃ c, outcome (dkg.config.participants.forM (finalizeFor wire json dkg round1Packages)) service =
        (.ok (), (service.withCoordinator c).withShares dkg.config rng dkg.config.participants) ∧
      Waiting wire json c (clearAll queues
        (dkg.config.participants.map fun p => round2Address dkg p.id)) := by
  obtain ⟨s', hloop, c, rfl, hwaiting⟩ := forM_ok (f := finalizeFor wire json dkg round1Packages)
    (s := service) (l := dkg.config.participants)
    (fun done s => ∃ c, s = (service.withCoordinator c).withShares dkg.config rng done ∧
      Waiting wire json c (clearAll queues (done.map fun p => round2Address dkg p.id)))
    (fun done p rest hl s hs => by
      obtain ⟨c, rfl, hc⟩ := hs
      have hp : p ∈ dkg.config.participants := hl ▸ List.mem_append_right done List.mem_cons_self
      obtain ⟨c', hdrain, hc'⟩ := @coordinate_drain _ _
        ((service.withCoordinator c).withShares dkg.config rng done) _ hc
        (.htssDkgRound2For dkg.sessionId p.id)
      have hfresh : round2Address dkg p.id ∉ done.map fun q => round2Address dkg q.id := by
        intro hmem
        obtain ⟨q, hq, haddress⟩ := List.mem_map.mp hmem
        have hid : q.id = p.id := Option.some.inj (congrArg Address.recipient haddress)
        have hnd := hdkg.accepted.distinct
        rw [hl, List.map_append, List.map_cons] at hnd
        exact (List.nodup_append.mp hnd).2.2 q.id (List.mem_map_of_mem hq) p.id List.mem_cons_self hid
      have hread : clearAll queues (done.map fun q => round2Address dkg q.id)
          (Drain.htssDkgRound2For dkg.sessionId p.id).address = queues (round2Address dkg p.id) :=
        if_neg hfresh
      rw [hread] at hdrain
      have hfinal : dkg.finalizeParticipant p.id round1Packages (queues (round2Address dkg p.id)) =
          .ok (honestKey dkg.config rng, finalShare dkg.config rng p) :=
        finalizeHtssDkg_honest hdkg.accepted hsecret hp h1 (h2 p hp)
      rw [clear_clearAll] at hc'
      refine ⟨(service.withCoordinator c').withShares dkg.config rng (done ++ [p]), ?_, c', rfl, ?_⟩
      · rw [finalizeFor]
        refine (bind_ok hdrain).trans ?_
        rw [hfinal, bind_ok (outcome_attempt _ _)]
        dsimp only
        rw [bind_ok (outcome_get _)]
        cases done with
        | nil =>
          have hnone : (((service.withCoordinator c).withShares dkg.config rng []).withCoordinator
              c').groupKey = none := hkey
          rw [hnone]
          exact bind_ok (outcome_modify _ _)
        | cons first more =>
          have hsome : (((service.withCoordinator c).withShares dkg.config rng
              (first :: more)).withCoordinator c').groupKey = some (honestKey dkg.config rng) := rfl
          rw [hsome]
          dsimp only
          rw [if_neg (not_not.mpr rfl), outcome_modify, withShares_append]
          rfl
      · rw [List.map_append]
        exact hc')
    ⟨service.coordinator, rfl, by rw [List.map_nil, clearAll_nil]; exact h⟩
  exact ⟨c, hloop, hwaiting⟩

/-- What a ceremony ends with where a key is in place that it does not derive: an error of its
own, or the refusal of its key. -/
def refusal {α : Type} : Result α → Fault
  | .ok _ => .err (.protocol "participants derived different group keys")
  | .error fault => fault

/-- The ceremony ends at the first participant, whose queue it has read. -/
theorem outcome_finalize_refused {dkg : HtssDkgService}
    (h : Waiting wire json service.coordinator queues) {existing : GroupKey}
    (hkey : service.groupKey = some existing) {round1Packages : List HtssDkgRound1Package}
    {first : RankedParticipant} {rest : List RankedParticipant}
    (hfirst : dkg.config.participants = first :: rest) {final : Result (GroupKey × HtssLocalKeyShare)}
    (hfinal : dkg.finalizeParticipant first.id round1Packages (queues (round2Address dkg first.id)) = final)
    (hne : ∀ key share, final = .ok (key, share) → existing.xonlyPublicKey ≠ key.xonlyPublicKey) :
    ∃ c, outcome (dkg.config.participants.forM (finalizeFor wire json dkg round1Packages)) service =
        (.error (refusal final), service.withCoordinator c) ∧
      Waiting wire json c (clear queues (round2Address dkg first.id)) := by
  obtain ⟨c, hdrain, hc⟩ := coordinate_drain h (.htssDkgRound2For dkg.sessionId first.id)
  refine ⟨c, ?_, hc⟩
  rw [hfirst]
  apply forM_error
  rw [finalizeFor]
  refine (bind_ok hdrain).trans ?_
  have hread : queues (Drain.htssDkgRound2For dkg.sessionId first.id).address =
      queues (round2Address dkg first.id) := rfl
  rw [hread, hfinal]
  cases final with
  | error fault => exact bind_error (outcome_attempt _ _)
  | ok result =>
    rw [bind_ok (outcome_attempt _ _)]
    dsimp only
    have hsome : (service.withCoordinator c).groupKey = some existing := hkey
    rw [bind_ok (outcome_get _), hsome]
    dsimp only
    rw [if_pos (hne result.1 result.2 rfl)]
    exact bind_error (outcome_throw _ _)

/-- The two rounds of a ceremony, up to where the participants finalize: everybody's states are
stored, and every participant's queue has gained one share from everybody. -/
theorem outcome_rounds (hwire : wire.json.RoundTrips) (hjson : ∀ channel, (json channel).RoundTrips)
    (hdkg : CeremonyReady service.dkg) (h : Waiting wire json service.coordinator queues)
    (hround1 : queues ⟨.htssDkgRound1, service.dkg.sessionId, none⟩ = [])
    (hstates : ∀ id state, service.round1States[id]? = some state →
      id ∈ service.dkg.config.participants.map RankedParticipant.id)
    (rng : ParticipantId → ℕ → NonZeroScalar) :
    ∃ c round1Packages packages, round1Packages.Perm (service.dkg.config.participants.map fun p =>
        (honestState service.dkg.config rng p).package) ∧
      packages.Perm (service.dkg.config.participants.map fun p =>
        service.dkg.config.participants.map (honestShare service.dkg.config rng p)).flatten ∧
      Waiting wire json c (deliver queues (sentRound2 service.dkg packages)) ∧
      outcome (runHtssDkg wire json rng) service = outcome (service.dkg.config.participants.forM
          (finalizeFor wire json service.dkg round1Packages))
        ((service.withRound1 service.dkg.config rng service.dkg.config.participants).withCoordinator c) := by
  obtain ⟨c₁, hpublish, hc₁⟩ := @outcome_round1 _ _ _ _ rng hwire hjson _ hdkg h
  obtain ⟨c₂, hdrain, hc₂⟩ := @coordinate_drain _ _ ((service.withCoordinator c₁).withRound1
    service.dkg.config rng service.dkg.config.participants) _ hc₁
    (.htssDkgRound1 service.dkg.sessionId)
  have hread : deliver queues (sentRound1 service.dkg rng service.dkg.config.participants)
      (Drain.htssDkgRound1 service.dkg.sessionId).address =
        service.dkg.config.participants.map fun p => (honestState service.dkg.config rng p).package := by
    have hfiber : fiber ⟨.htssDkgRound1, service.dkg.sessionId, none⟩
        (sentRound1 service.dkg rng service.dkg.config.participants) =
          service.dkg.config.participants.map fun p => (honestState service.dkg.config rng p).package :=
      fiber_map_const _ _ _
    have hqueue := congrArg (· ++ fiber ⟨.htssDkgRound1, service.dkg.sessionId, none⟩
      (sentRound1 service.dkg rng service.dkg.config.participants)) hround1
    exact hqueue.trans hfiber
  have hcleared : clear (deliver queues (sentRound1 service.dkg rng service.dkg.config.participants))
      (Drain.htssDkgRound1 service.dkg.sessionId).address = queues := by
    refine clear_deliver hround1 fun sent hsent => ?_
    obtain ⟨p, -, rfl⟩ := List.mem_map.mp hsent
    rfl
  rw [hread] at hdrain
  rw [hcleared] at hc₂
  have hvalues : (values ((service.withCoordinator c₂).withRound1 service.dkg.config rng
      service.dkg.config.participants).round1States).Perm
        (service.dkg.config.participants.map (honestState service.dkg.config rng)) :=
    values_insertAll_perm hdkg.accepted.distinct hstates
  obtain ⟨c₃, hround2, hc₃⟩ := @outcome_round2 _ _ ((service.withCoordinator c₂).withRound1
    service.dkg.config rng service.dkg.config.participants) _ rng hwire hjson _ hdkg hc₂ _
    (fun state hstate => by
      obtain ⟨p, hp, rfl⟩ := List.mem_map.mp (hvalues.mem_iff.mp hstate)
      exact ⟨p, hp, rfl⟩) _ (List.Perm.refl _)
  refine ⟨c₃, _, _, List.Perm.refl _, ?_, hc₃, ?_⟩
  · have hpackages := hvalues.flatMap_right (sharesFrom service.dkg.config rng)
    rw [List.flatMap_map] at hpackages
    rw [← List.flatMap_def]
    exact hpackages
  · rw [runHtssDkg]
    refine (bind_ok (outcome_get _)).trans ((bind_ok hpublish).trans ((bind_ok hdrain).trans ?_))
    exact (bind_ok (outcome_get _)).trans (bind_ok hround2)

/-- What no call of the service changes. -/
def settings (service : InMemoryVaultService) :
    String × Bytes 32 × GroupedThresholdConfig × HtssDkgService :=
  (service.network, service.chainCode, service.groupedConfig, service.dkg)

/-- What may wait at the relay between calls: shares of refused ceremonies, but none for the
first participant. -/
def Leftover (dkg : HtssDkgService) (address : Address) : Prop :=
  address.channel = .htssDkgRound2 ∧
    ∀ p ∈ dkg.config.participants.head?, address ≠ round2Address dkg p.id

/-- A service between calls, with the draws of its ceremonies so far; its key is from the first. -/
structure Holds (wire : Wire) (json : PackageCodecs) (draws : List (ParticipantId → ℕ → NonZeroScalar))
    (service : InMemoryVaultService) : Prop where
  translated : hierarchicalConfigFromGroupedThreshold service.groupedConfig = .ok service.dkg.config
  ready : CeremonyReady service.dkg
  states : ∀ id state, service.round1States[id]? = some state →
    id ∈ service.dkg.config.participants.map RankedParticipant.id
  groupKey : service.groupKey = draws.head?.map (honestKey service.dkg.config)
  secret : ∀ rng ∈ draws.head?, honestSecret service.dkg.config rng ≠ 0
  shares : ∀ rng ∈ draws.head?, ∀ p ∈ service.dkg.config.participants,
    service.localShares[p.id]? = some (finalShare service.dkg.config rng p)
  waiting : ∃ queues, Waiting wire json service.coordinator queues ∧
    (∀ address, queues address ≠ [] → Leftover service.dkg address) ∧
      (draws.length ≤ 1 → queues = Queues.empty)

theorem holds_new {dkgSessionId network : String} {chainCode : Bytes 32}
    {groupedConfig : GroupedThresholdConfig}
    (hnew : new dkgSessionId network chainCode groupedConfig = .ok service)
    (hids : ∀ p ∈ groupedConfig.participants, p.id ≠ 0) : Holds wire json [] service := by
  simp only [new, HtssDkgService.new, bind_eq_ok, sessionIdNew_eq_ok, Except.ok.injEq] at hnew
  obtain ⟨hierarchical, htranslate, dkg, ⟨session, ⟨hblank, rfl⟩, rfl⟩, rfl⟩ := hnew
  have hc := accepted_of_translation htranslate
  have hparticipants : hierarchical.participants = groupedConfig.participants := by
    obtain ⟨required, -, hconfig⟩ := bind_eq_ok.mp htranslate
    rw [(HierarchicalThresholdConfig.new_eq_ok.mp hconfig).1]
  refine ⟨htranslate, ⟨hc, hparticipants ▸ hids, hblank⟩, fun id state hstate => ?_, rfl,
    fun _ h => absurd h (Option.not_mem_none _), fun _ h => absurd h (Option.not_mem_none _),
    Queues.empty, waiting_empty false, fun address h => absurd rfl h, fun _ => rfl⟩
  rw [Std.TreeMap.getElem?_emptyc] at hstate
  cases hstate

theorem states_withRound1 (hstates : ∀ id state, service.round1States[id]? = some state →
      id ∈ config.participants.map RankedParticipant.id) (id : ParticipantId) (state : HtssDkgRound1State)
    (h : (service.withRound1 config rng config.participants).round1States[id]? = some state) :
    id ∈ config.participants.map RankedParticipant.id := by
  by_contra hid
  have hsame := getElem?_insertAll_of_notMem (honestState config rng) hid service.round1States
  exact hid (hstates id state (hsame.symm.trans h))

section Deliveries

variable {dkg : HtssDkgService} {packages : List HtssDkgRound2Package}

/-- The queue of a participant gains one share from everybody. -/
theorem deliver_round2_perm (hdkg : CeremonyReady dkg)
    (hpackages : packages.Perm (dkg.config.participants.map fun p =>
      dkg.config.participants.map (honestShare dkg.config rng p)).flatten)
    {q : RankedParticipant} (hq : q ∈ dkg.config.participants)
    (hempty : queues (round2Address dkg q.id) = []) :
    (deliver queues (sentRound2 dkg packages) (round2Address dkg q.id)).Perm
      (dkg.config.participants.map fun p => honestShare dkg.config rng p q) := by
  have hqueue : deliver queues (sentRound2 dkg packages) (round2Address dkg q.id) =
      packages.filter fun package => package.recipient == q.id := by
    rw [deliver, hempty, List.nil_append]
    exact fiber_sentRound2 dkg q.id packages
  have hfilter := hpackages.filter fun package => package.recipient == q.id
  rw [filter_recipient_honest hdkg.accepted hq] at hfilter
  exact hqueue ▸ hfilter

theorem recipient_of_sentRound2 (hpackages : packages.Perm (dkg.config.participants.map fun p =>
      dkg.config.participants.map (honestShare dkg.config rng p)).flatten)
    {sent : Σ address : Address, address.Package} (hsent : sent ∈ sentRound2 dkg packages) :
    sent.1 ∈ dkg.config.participants.map fun p => round2Address dkg p.id := by
  obtain ⟨package, hpackage, rfl⟩ := List.mem_map.mp hsent
  obtain ⟨shares, hshares, hpackage⟩ := List.mem_flatten.mp (hpackages.mem_iff.mp hpackage)
  obtain ⟨p, -, rfl⟩ := List.mem_map.mp hshares
  obtain ⟨q, hq, rfl⟩ := List.mem_map.mp hpackage
  exact List.mem_map.mpr ⟨q, hq, rfl⟩

end Deliveries

/-- The first ceremony stores the key and the shares that the ceremony in one process returns
for the same draws, and leaves nothing at the relay. -/
theorem Holds.firstCeremony (hwire : wire.json.RoundTrips) (hjson : ∀ channel, (json channel).RoundTrips)
    (h : Holds wire json [] service) (hsecret : honestSecret service.dkg.config rng ≠ 0) :
    ∃ service', outcome (runHtssDkg wire json rng) service = (.ok (), service') ∧
      Holds wire json [rng] service' ∧ service'.settings = service.settings := by
  obtain ⟨queues, hwaiting, -, hempty⟩ := h.waiting
  obtain rfl := hempty (Nat.zero_le 1)
  obtain ⟨c, round1Packages, packages, h1, hpackages, hc, hrun⟩ :=
    outcome_rounds hwire hjson h.ready hwaiting rfl h.states rng
  obtain ⟨c', hfinal, hc'⟩ := @outcome_finalize _ _ ((service.withRound1 service.dkg.config rng
    service.dkg.config.participants).withCoordinator c) _ rng _ h.ready hc h.groupKey hsecret _ h1
    fun q hq => deliver_round2_perm h.ready hpackages hq rfl
  have hcleared : clearAll (deliver Queues.empty (sentRound2 service.dkg packages))
      (service.dkg.config.participants.map fun p => round2Address service.dkg p.id) = Queues.empty :=
    clearAll_deliver (fun _ _ => rfl) fun sent hsent => recipient_of_sentRound2 hpackages hsent
  rw [hcleared] at hc'
  refine ⟨_, hrun.trans hfinal, ⟨h.translated, h.ready, fun id state hstate =>
    states_withRound1 h.states id state hstate, if_neg (participants_ne_nil_of_accepted h.ready.accepted), ?_, ?_,
    Queues.empty, hc', fun address hne => absurd rfl hne, fun _ => rfl⟩, rfl⟩
  · rintro rng' hrng
    obtain rfl := Option.some.inj hrng
    exact hsecret
  · rintro rng' hrng p hp
    obtain rfl := Option.some.inj hrng
    exact getElem?_insertAll h.ready.accepted.distinct hp service.localShares

/-- The first participant of a ceremony gets a key exactly if the ceremony in one process does. -/
theorem refusal_finalize {dkg : HtssDkgService} (hdkg : CeremonyReady dkg) {first : RankedParticipant}
    (hfirst : first ∈ dkg.config.participants) {round1Packages : List HtssDkgRound1Package}
    {round2Packages : List HtssDkgRound2Package} (h1 : round1Packages.Perm
      (dkg.config.participants.map fun p => (honestState dkg.config rng p).package))
    (h2 : round2Packages.Perm (dkg.config.participants.map fun p => honestShare dkg.config rng p first)) :
    refusal (dkg.finalizeParticipant first.id round1Packages round2Packages) =
        refusal (dkg.runLocalRehearsal rng) ∧
      ∀ key share, dkg.finalizeParticipant first.id round1Packages round2Packages = .ok (key, share) →
        honestSecret dkg.config rng ≠ 0 ∧ key = honestKey dkg.config rng := by
  rw [HtssDkgService.finalizeParticipant, HtssDkgService.runLocalRehearsal]
  by_cases hsecret : honestSecret dkg.config rng = 0
  · rw [finalizeHtssDkg_honest_cancelled hdkg.accepted hsecret hfirst h1 h2,
      runDistributedHtssKeygen_cancelled hdkg.accepted hsecret]
    exact ⟨rfl, fun key share hok => by cases hok⟩
  · rw [finalizeHtssDkg_honest hdkg.accepted hsecret hfirst h1 h2,
      runDistributedHtssKeygen_honest hdkg.accepted hsecret]
    exact ⟨rfl, fun key share hok => ⟨hsecret, (congrArg Prod.fst (Except.ok.inj hok)).symm⟩⟩

/-- Every later ceremony that does not derive the same key is refused, and changes neither the
key nor the shares. -/
theorem Holds.laterCeremony (hwire : wire.json.RoundTrips) (hjson : ∀ channel, (json channel).RoundTrips)
    {first : ParticipantId → ℕ → NonZeroScalar} {later : List (ParticipantId → ℕ → NonZeroScalar)}
    (h : Holds wire json (first :: later) service)
    (hne : honestSecret service.dkg.config rng ≠ 0 → (honestKey service.dkg.config first).xonlyPublicKey ≠
      (honestKey service.dkg.config rng).xonlyPublicKey) :
    ∃ service', outcome (runHtssDkg wire json rng) service =
        (.error (refusal (service.dkg.runLocalRehearsal rng)), service') ∧
      Holds wire json (first :: later ++ [rng]) service' ∧ service'.settings = service.settings := by
  obtain ⟨queues, hwaiting, hleft, -⟩ := h.waiting
  have hempty : ∀ {address}, ¬Leftover service.dkg address → queues address = [] := by
    intro address hnot
    by_contra hne
    exact hnot (hleft address hne)
  obtain ⟨c, round1Packages, packages, h1, hpackages, hc, hrun⟩ := outcome_rounds hwire hjson h.ready
    hwaiting (hempty fun hl => Channel.noConfusion hl.1) h.states rng
  obtain ⟨p, rest, hparticipants⟩ := List.exists_cons_of_ne_nil
    (participants_ne_nil_of_accepted h.ready.accepted)
  have hfirst : queues (round2Address service.dkg p.id) = [] := by
    refine hempty fun hl => hl.2 p ?_ rfl
    rw [hparticipants]
    rfl
  have hp : p ∈ service.dkg.config.participants := hparticipants ▸ List.mem_cons_self
  obtain ⟨hrefusal, hfinalKey⟩ := refusal_finalize h.ready hp h1
    (deliver_round2_perm h.ready hpackages hp hfirst)
  obtain ⟨c', hfinal, hc'⟩ := @outcome_finalize_refused _ _ ((service.withRound1 service.dkg.config rng
    service.dkg.config.participants).withCoordinator c) _ _ hc _ h.groupKey _ _ _ hparticipants _ rfl
    fun key share hok => by
      obtain ⟨hsecret, rfl⟩ := hfinalKey key share hok
      exact hne hsecret
  rw [hrefusal] at hfinal
  refine ⟨_, hrun.trans hfinal, ⟨h.translated, h.ready, fun id state hstate =>
    states_withRound1 h.states id state hstate, h.groupKey, h.secret, h.shares, _, hc', ?_, ?_⟩, rfl⟩
  · intro address hnonempty
    by_cases haddress : address = round2Address service.dkg p.id
    · subst haddress
      exact absurd (Function.update_self _ _ _) hnonempty
    · rw [clear, Function.update_of_ne haddress] at hnonempty
      refine ⟨?_, fun q hq => ?_⟩
      · by_contra hchannel
        refine hnonempty (List.append_eq_nil_iff.mpr ⟨hempty fun hl => hchannel hl.1, ?_⟩)
        refine fiber_of_forall_ne fun sent hsent heq => hchannel ?_
        obtain ⟨q, -, hq⟩ := List.mem_map.mp (recipient_of_sentRound2 hpackages hsent)
        rw [← heq, ← hq]
        rfl
      · have hhead : q ∈ service.dkg.config.participants.head? := hq
        rw [hparticipants, List.head?_cons] at hhead
        obtain rfl := Option.some.inj hhead
        exact haddress
  · intro hlen
    simp at hlen

end Ceremony

section Signing

variable {wire : Wire} {json : PackageCodecs} {service : InMemoryVaultService} {queues : Queues}
  {config : HierarchicalThresholdConfig} {F : Scalar[X]} {keySet : HtssLocalKeySet}
  {members : List RankedParticipant} {session : SessionId} {rng : ParticipantId → NonZeroScalar}
  {digest : Bytes 32}

theorem quorum_of_htssSignShare (schnorr : Schnorr) (hc : config.Accepted) {signers : List ParticipantId}
    {localShare : HtssLocalKeyShare} {nonce : HtssLocalNonce} {share : HtssSignatureSharePackage}
    (h : htssSignShare schnorr keySet.groupKey digest localShare nonce
      (signers.map (honestNonce session rng)) signers config = .ok share) :
    config.Quorum signers ∧ nonceSum rng signers ≠ 0 := by
  obtain ⟨-, -, points, hpoints, coefficients, hcoeff, _, -, -, aggregate, haggregate, -⟩ :=
    (signShareUnder_eq_ok schnorr).mp h
  refine ⟨HierarchicalThresholdConfig.quorum_of_coefficients hc hpoints hcoeff, fun hzero => ?_⟩
  have hne := (evenPublicNonce_of_ok haggregate).1
  rw [publicNonceSum_honest] at hne
  exact hne (smul_generator_eq_zero.mpr hzero)

section Exchanges

variable (hwire : wire.json.RoundTrips) (hjson : ∀ channel, (json channel).RoundTrips)
  (h : Waiting wire json service.coordinator queues) (hsession : isBlank session = false)
  (hids : ∀ p ∈ members, p.id ≠ 0)

include hwire hjson h hsession hids

/-- The signers' nonces through the relay. -/
theorem outcome_nonceExchange (hempty : queues ⟨.htssNonce, session, none⟩ = []) :
    ∃ c c', outcome ((members.map fun p => localNonce session rng p.id).forM fun nonce =>
        coordinate (FrostCoordinator.publishHtssNonce (LocalNostrEventTransport.transport wire) json
          nonce.package)) service = (.ok (), service.withCoordinator c) ∧
      outcome (coordinate (FrostCoordinator.drainHtssNonces (LocalNostrEventTransport.transport wire) json
        session)) (service.withCoordinator c) =
          (.ok ((members.map RankedParticipant.id).map (honestNonce session rng)),
            service.withCoordinator c') ∧
      Waiting wire json c' queues := by
  obtain ⟨c, c', hpublish, hdrain, hc'⟩ := @outcome_exchange _ _ service _ _ hwire hjson h
    (.htssNonces session) hempty (members.map fun p => localNonce session rng p.id)
    (fun nonce => coordinate (FrostCoordinator.publishHtssNonce
      (LocalNostrEventTransport.transport wire) json nonce.package))
    (fun nonce => .htssNonce nonce.package) HtssLocalNonce.package
    (fun nonce hnonce => by
      obtain ⟨p, -, rfl⟩ := List.mem_map.mp hnonce
      rfl)
    (fun _ _ _ => rfl)
    (fun nonce hnonce => by
      obtain ⟨p, -, rfl⟩ := List.mem_map.mp hnonce
      exact List.Vector.toList_length _)
    (fun nonce hnonce => by
      obtain ⟨p, hp, rfl⟩ := List.mem_map.mp hnonce
      exact ⟨hids p hp, by simp [Publication.address], hsession⟩)
  have hpublic : (members.map fun p => localNonce session rng p.id).map HtssLocalNonce.package =
      (members.map RankedParticipant.id).map (honestNonce session rng) := by
    rw [List.map_map, List.map_map]
    rfl
  exact ⟨c, c', hpublish, hdrain.trans (congrArg
    (fun nonces => (Except.ok nonces, service.withCoordinator c')) hpublic), hc'⟩

/-- The signature shares through the relay, where every signer signs. -/
theorem outcome_shareExchange (hempty : queues ⟨.htssSignatureShare, session, none⟩ = [])
    {schnorr : Schnorr} {groupKey : GroupKey} {nonces : List HtssNoncePackage}
    {signers : List ParticipantId} {value : ParticipantId → Bytes 32}
    (hsign : ∀ p ∈ members, htssSignShare schnorr groupKey digest (derivativeShare F p)
      (localNonce session rng p.id) nonces signers config = .ok ⟨p.id, session, value p.id⟩) :
    ∃ c c', outcome ((members.map fun p => (derivativeShare F p, localNonce session rng p.id)).forM
        (publishSignatureShareFor wire json schnorr groupKey digest nonces signers config)) service =
          (.ok (), service.withCoordinator c) ∧
      outcome (coordinate (FrostCoordinator.drainHtssSignatureShares
        (LocalNostrEventTransport.transport wire) json session)) (service.withCoordinator c) =
          (.ok ((members.map RankedParticipant.id).map fun signer => ⟨signer, session, value signer⟩),
            service.withCoordinator c') ∧
      Waiting wire json c' queues := by
  obtain ⟨c, c', hpublish, hdrain, hc'⟩ := @outcome_exchange _ _ service _ _ hwire hjson h
    (.htssSignatureShares session) hempty
    (members.map fun p => (derivativeShare F p, localNonce session rng p.id))
    (publishSignatureShareFor wire json schnorr groupKey digest nonces signers config)
    (fun pair => .htssSignatureShare ⟨pair.1.participantId, session, value pair.1.participantId⟩)
    (fun pair => ⟨pair.1.participantId, session, value pair.1.participantId⟩)
    (fun _ _ => rfl)
    (fun pair hpair s => by
      obtain ⟨p, hp, rfl⟩ := List.mem_map.mp hpair
      rw [publishSignatureShareFor, hsign p hp]
      exact bind_ok (outcome_attempt _ _))
    (fun _ _ => trivial)
    (fun pair hpair => by
      obtain ⟨p, hp, rfl⟩ := List.mem_map.mp hpair
      exact ⟨hids p hp, by simp [Publication.address], hsession⟩)
  have hsigned : (members.map fun p => (derivativeShare F p, localNonce session rng p.id)).map
      (fun pair => (⟨pair.1.participantId, session, value pair.1.participantId⟩ :
        HtssSignatureSharePackage)) =
        (members.map RankedParticipant.id).map fun signer => ⟨signer, session, value signer⟩ := by
    rw [List.map_map, List.map_map]
    rfl
  exact ⟨c, c', hpublish, hdrain.trans (congrArg
    (fun shares => (Except.ok shares, service.withCoordinator c')) hsigned), hc'⟩

end Exchanges

/-- A loop over signers that are no quorum, or whose nonces cancel, ends at the first of them. -/
theorem publishSignatureShares_refused (schnorr : Schnorr) (hc : config.Accepted)
    {signers : List ParticipantId} (hne : members ≠ [])
    (hq : ¬(config.Quorum signers ∧ nonceSum rng signers ≠ 0)) :
    ∃ fault, outcome ((members.map fun p => (derivativeShare F p, localNonce session rng p.id)).forM
      (publishSignatureShareFor wire json schnorr keySet.groupKey digest
        (signers.map (honestNonce session rng)) signers config)) service = (.error fault, service) := by
  obtain ⟨p, rest, rfl⟩ := List.exists_cons_of_ne_nil hne
  cases hfirst : htssSignShare schnorr keySet.groupKey digest (derivativeShare F p)
      (localNonce session rng p.id) (signers.map (honestNonce session rng)) signers config with
  | ok share => exact absurd (quorum_of_htssSignShare schnorr hc hfirst) hq
  | error fault =>
    refine ⟨fault, forM_error ?_⟩
    rw [publishSignatureShareFor, hfirst]
    exact bind_error (outcome_attempt _ _)

/-- What every signer of a quorum signs, and the aggregate of it. -/
theorem exists_signatureShares (schnorr : Schnorr) (hc : config.Accepted)
    (hkeys : keySet.Consistent config F) {signers : List ParticipantId} (hq : config.Quorum signers)
    (hk : nonceSum rng signers ≠ 0) (digest : Bytes 32) (session : SessionId) :
    ∃ (value : ParticipantId → Bytes 32) (aggregate : AggregateSignature),
      (∀ p ∈ config.participants, p.id ∈ signers → htssSignShare schnorr keySet.groupKey digest
        (derivativeShare F p) (localNonce session rng p.id) (signers.map (honestNonce session rng))
          signers config = .ok ⟨p.id, session, value p.id⟩) ∧
      aggregateHtssSignatureShares schnorr keySet.groupKey digest (signers.map (honestNonce session rng))
        (signers.map fun signer => ⟨signer, session, value signer⟩) signers config = .ok aggregate := by
  obtain ⟨w, hw, -, -⟩ := hq.exists_weights hc
  obtain ⟨value, hvalue⟩ : ∃ value : ParticipantId → Bytes 32,
      (fun signer => ⟨signer, session, value signer⟩) =
        signaturePackage schnorr config F w session rng signers false (F.eval 0 • generator) digest := ⟨_, rfl⟩
  refine ⟨value, _, fun p hp hmem => ?_, aggregateHtssSignatureShares_eq schnorr hc hkeys hq hw hk
    (List.Perm.refl _) (List.Perm.refl _) (List.Perm.of_eq (congrArg (fun share => signers.map share) hvalue))⟩
  have hshare := congrFun hvalue p.id
  rw [hshare]
  exact signShareUnder_eq schnorr hc hq hw hk (List.Perm.refl _) (List.Perm.refl _)
    hkeys.groupKey_point _ _ _ hp hmem

/-- The signing session at the relay: in every outcome the queues are as before, and it ends in
an aggregate exactly for quorums whose nonces do not cancel. -/
theorem outcome_signOverTransport (hwire : wire.json.RoundTrips)
    (hjson : ∀ channel, (json channel).RoundTrips) (schnorr : Schnorr) (hc : config.Accepted)
    (hkeys : keySet.Consistent config F) (h : Waiting wire json service.coordinator queues)
    (hnonces : queues ⟨.htssNonce, session, none⟩ = [])
    (hshares : queues ⟨.htssSignatureShare, session, none⟩ = []) (hsession : isBlank session = false)
    (hids : ∀ p ∈ config.participants, p.id ≠ 0) (hmembers : members ⊆ config.participants)
    {signers : List ParticipantId} (hsigners : signers = members.map RankedParticipant.id)
    (hne : signers ≠ []) :
    ∃ c result, Waiting wire json c queues ∧
      outcome (signOverTransport wire json schnorr session keySet.groupKey digest
        (members.map (derivativeShare F)) (members.map fun p => localNonce session rng p.id) signers
        config) service = (result, service.withCoordinator c) ∧
      ((∃ signed, result = .ok signed) ↔ config.Quorum signers ∧ nonceSum rng signers ≠ 0) ∧
      ∀ shares aggregate, result = .ok (shares, aggregate) →
        shares.map HtssSignatureSharePackage.participantId = signers ∧
        (∀ share ∈ shares, share.signingSessionId = session) ∧
        aggregateHtssSignatureShares schnorr keySet.groupKey digest
          (signers.map (honestNonce session rng)) shares signers config = .ok aggregate := by
  have hids' : ∀ p ∈ members, p.id ≠ 0 := fun p hp => hids p (hmembers hp)
  have hzip : (members.map (derivativeShare F)).zip (members.map fun p => localNonce session rng p.id) =
      members.map fun p => (derivativeShare F p, localNonce session rng p.id) := List.zip_map'
  obtain ⟨c₁, c₂, hpublish, hread, hc₂⟩ := @outcome_nonceExchange _ _ _ _ _ _ rng hwire hjson h hsession
    hids' hnonces
  rw [← hsigners] at hread
  rw [signOverTransport, hzip, bind_ok hpublish, bind_ok hread]
  by_cases hq : config.Quorum signers ∧ nonceSum rng signers ≠ 0
  · obtain ⟨value, aggregate, hsign, haggregate⟩ :=
      exists_signatureShares schnorr hc hkeys hq.1 hq.2 digest session
    obtain ⟨c₃, c₄, hpublish', hread', hc₄⟩ := @outcome_shareExchange _ _ (service.withCoordinator c₂) _ _ _ _ _
      rng digest hwire hjson hc₂ hsession hids' hshares _ _ _ _ _
      fun p hp => hsign p (hmembers hp) (hsigners ▸ List.mem_map_of_mem hp)
    rw [← hsigners] at hread'
    refine ⟨c₄, .ok (signers.map fun signer => ⟨signer, session, value signer⟩, aggregate), hc₄, ?_,
      ⟨fun _ => hq, fun _ => ⟨_, rfl⟩⟩, fun shares aggregate' hok => ?_⟩
    · rw [bind_ok hpublish', bind_ok hread', haggregate, bind_ok (outcome_attempt _ _)]
      rfl
    · obtain ⟨rfl, rfl⟩ := Prod.mk.inj (Except.ok.inj hok)
      refine ⟨by rw [List.map_map]; exact List.map_id _, fun share hshare => ?_, haggregate⟩
      obtain ⟨signer, -, rfl⟩ := List.mem_map.mp hshare
      rfl
  · have hmembers' : members ≠ [] := fun hnil => hne (by rw [hsigners, hnil, List.map_nil])
    obtain ⟨fault, hrefused⟩ := @publishSignatureShares_refused wire json (service.withCoordinator c₂) _ F
      keySet _ session _ digest schnorr hc signers hmembers' hq
    refine ⟨c₂, .error fault, hc₂, bind_error hrefused, ⟨?_, fun hquorum => absurd hquorum hq⟩, ?_⟩
    · rintro ⟨signed, hsigned⟩
      cases hsigned
    · intro shares aggregate hok
      cases hok

end Signing

end InMemoryVaultService

end DkgKit
