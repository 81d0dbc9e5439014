import DkgKit.Packages

/-! The coordinator of `dkgkit-sdk`: typed packages over one transport. Over the memory
transport its operations act as independent queues, one per kind of package, session
and recipient. -/

open SelectiveQueue

namespace DkgKit

structure FrostCoordinator (τ : Type) where
  transport : τ

namespace FrostCoordinator

section Operations

variable {τ α : Type} (impl : Transport τ) (json : PackageCodecs)

/-- The body of the functions `publish_..`. -/
def publishMessage (message : Result ProtocolMessage) (coordinator : FrostCoordinator τ) :
    Result Unit × FrostCoordinator τ :=
  match message with
  | .ok message =>
    let (result, transport) := impl.publish message coordinator.transport
    (result, ⟨transport⟩)
  | .error fault => (.error fault, coordinator)

/-- The body of the functions `drain_..`: messages leave the transport, then are decoded. -/
def drainPackages (sessionId : SessionId) (only : ProtocolMessage → Bool)
    (fromProtocolMessage : ProtocolMessage → Result α) (coordinator : FrostCoordinator τ) :
    Result (List α) × FrostCoordinator τ :=
  let (messages, transport, _) := impl.drainMatching sessionId
    (fun (s : Unit) message => (only message, s)) coordinator.transport ()
  (messages >>= collectResults fromProtocolMessage, ⟨transport⟩)

def publishRound1 (sessionId : SessionId) (package : Round1Package) :=
  publishMessage impl (package.toProtocolMessage (json .round1) sessionId)

def publishRound2 (sessionId : SessionId) (package : Round2Package) :=
  publishMessage impl (package.toProtocolMessage (json .round2) sessionId)

def publishHtssDkgRound1 (sessionId : SessionId) (package : HtssDkgRound1Package) :=
  publishMessage impl (package.toProtocolMessage (json .htssDkgRound1) sessionId)

def publishHtssDkgRound2 (sessionId : SessionId) (package : HtssDkgRound2Package) :=
  publishMessage impl (package.toProtocolMessage (json .htssDkgRound2) sessionId)

def publishNonce (package : NoncePackage) :=
  publishMessage impl (package.toProtocolMessage (json .nonce))

def publishSignatureShare (package : SignatureSharePackage) :=
  publishMessage impl (package.toProtocolMessage (json .signatureShare))

def publishHtssNonce (package : HtssNoncePackage) :=
  publishMessage impl (package.toProtocolMessage (json .htssNonce))

def publishHtssSignatureShare (package : HtssSignatureSharePackage) :=
  publishMessage impl (package.toProtocolMessage (json .htssSignatureShare))

def drainRound1 (sessionId : SessionId) :=
  drainPackages impl sessionId (fun message => message.kind = .frostDkgRound1)
    (Round1Package.fromProtocolMessage (json .round1))

def drainRound2For (sessionId : SessionId) (recipient : ParticipantId) :=
  drainPackages impl sessionId (fun message => message.kind = .frostDkgRound2 && message.isFor recipient)
    (Round2Package.fromProtocolMessage (json .round2))

def drainHtssDkgRound1 (sessionId : SessionId) :=
  drainPackages impl sessionId (fun message => message.kind = .htssDkgRound1)
    (HtssDkgRound1Package.fromProtocolMessage (json .htssDkgRound1))

def drainHtssDkgRound2For (sessionId : SessionId) (recipient : ParticipantId) :=
  drainPackages impl sessionId (fun message => message.kind = .htssDkgRound2 && message.isFor recipient)
    (HtssDkgRound2Package.fromProtocolMessage (json .htssDkgRound2))

def drainNonces (signingSessionId : SessionId) :=
  drainPackages impl signingSessionId (fun message => message.kind = .frostSigningNonce)
    (NoncePackage.fromProtocolMessage (json .nonce))

def drainSignatureShares (signingSessionId : SessionId) :=
  drainPackages impl signingSessionId (fun message => message.kind = .frostSignatureShare)
    (SignatureSharePackage.fromProtocolMessage (json .signatureShare))

def drainHtssNonces (signingSessionId : SessionId) :=
  drainPackages impl signingSessionId (fun message => message.kind = .htssSigningNonce)
    (HtssNoncePackage.fromProtocolMessage (json .htssNonce))

def drainHtssSignatureShares (signingSessionId : SessionId) :=
  drainPackages impl signingSessionId (fun message => message.kind = .htssSignatureShare)
    (HtssSignatureSharePackage.fromProtocolMessage (json .htssSignatureShare))

end Operations

end FrostCoordinator

section Calls

/-- Where packages wait: the kind of package, the session, and the recipient if there is one. -/
structure Address where
  channel : Channel
  sessionId : SessionId
  recipient : Option ParticipantId
  deriving DecidableEq

abbrev Address.Package (address : Address) : Type := address.channel.Package

inductive Publication
  | round1 (sessionId : SessionId) (package : Round1Package)
  | round2 (sessionId : SessionId) (package : Round2Package)
  | htssDkgRound1 (sessionId : SessionId) (package : HtssDkgRound1Package)
  | htssDkgRound2 (sessionId : SessionId) (package : HtssDkgRound2Package)
  | nonce (package : NoncePackage)
  | signatureShare (package : SignatureSharePackage)
  | htssNonce (package : HtssNoncePackage)
  | htssSignatureShare (package : HtssSignatureSharePackage)

inductive Drain
  | round1 (sessionId : SessionId)
  | round2For (sessionId : SessionId) (recipient : ParticipantId)
  | htssDkgRound1 (sessionId : SessionId)
  | htssDkgRound2For (sessionId : SessionId) (recipient : ParticipantId)
  | nonces (signingSessionId : SessionId)
  | signatureShares (signingSessionId : SessionId)
  | htssNonces (signingSessionId : SessionId)
  | htssSignatureShares (signingSessionId : SessionId)

namespace Publication

def address : Publication → Address
  | round1 sessionId _ => ⟨.round1, sessionId, none⟩
  | round2 sessionId package => ⟨.round2, sessionId, some package.recipient⟩
  | htssDkgRound1 sessionId _ => ⟨.htssDkgRound1, sessionId, none⟩
  | htssDkgRound2 sessionId package => ⟨.htssDkgRound2, sessionId, some package.recipient⟩
  | nonce package => ⟨.nonce, package.signingSessionId, none⟩
  | signatureShare package => ⟨.signatureShare, package.signingSessionId, none⟩
  | htssNonce package => ⟨.htssNonce, package.signingSessionId, none⟩
  | htssSignatureShare package => ⟨.htssSignatureShare, package.signingSessionId, none⟩

def package : (publication : Publication) → publication.address.Package
  | round1 _ package => package
  | round2 _ package => package
  | htssDkgRound1 _ package => package
  | htssDkgRound2 _ package => package
  | nonce package => package
  | signatureShare package => package
  | htssNonce package => package
  | htssSignatureShare package => package

end Publication

def Drain.address : Drain → Address
  | round1 sessionId => ⟨.round1, sessionId, none⟩
  | round2For sessionId recipient => ⟨.round2, sessionId, some recipient⟩
  | htssDkgRound1 sessionId => ⟨.htssDkgRound1, sessionId, none⟩
  | htssDkgRound2For sessionId recipient => ⟨.htssDkgRound2, sessionId, some recipient⟩
  | nonces signingSessionId => ⟨.nonce, signingSessionId, none⟩
  | signatureShares signingSessionId => ⟨.signatureShare, signingSessionId, none⟩
  | htssNonces signingSessionId => ⟨.htssNonce, signingSessionId, none⟩
  | htssSignatureShares signingSessionId => ⟨.htssSignatureShare, signingSessionId, none⟩

inductive CoordinatorCall
  | publish (publication : Publication)
  | drain (drain : Drain)

inductive CoordinatorReply
  | published (result : Result Unit)
  | drained (channel : Channel) (result : Result (List channel.Package))

end Calls

namespace FrostCoordinator

variable {τ : Type} (impl : Transport τ) (json : PackageCodecs)

def publish : Publication → FrostCoordinator τ → Result Unit × FrostCoordinator τ
  | .round1 sessionId package => publishRound1 impl json sessionId package
  | .round2 sessionId package => publishRound2 impl json sessionId package
  | .htssDkgRound1 sessionId package => publishHtssDkgRound1 impl json sessionId package
  | .htssDkgRound2 sessionId package => publishHtssDkgRound2 impl json sessionId package
  | .nonce package => publishNonce impl json package
  | .signatureShare package => publishSignatureShare impl json package
  | .htssNonce package => publishHtssNonce impl json package
  | .htssSignatureShare package => publishHtssSignatureShare impl json package

def drain : (drain : Drain) → FrostCoordinator τ →
    Result (List drain.address.Package) × FrostCoordinator τ
  | .round1 sessionId => drainRound1 impl json sessionId
  | .round2For sessionId recipient => drainRound2For impl json sessionId recipient
  | .htssDkgRound1 sessionId => drainHtssDkgRound1 impl json sessionId
  | .htssDkgRound2For sessionId recipient => drainHtssDkgRound2For impl json sessionId recipient
  | .nonces signingSessionId => drainNonces impl json signingSessionId
  | .signatureShares signingSessionId => drainSignatureShares impl json signingSessionId
  | .htssNonces signingSessionId => drainHtssNonces impl json signingSessionId
  | .htssSignatureShares signingSessionId => drainHtssSignatureShares impl json signingSessionId

def perform (call : CoordinatorCall) (coordinator : FrostCoordinator τ) :
    CoordinatorReply × FrostCoordinator τ :=
  match call with
  | .publish publication =>
    let (result, coordinator) := publish impl json publication coordinator
    (.published result, coordinator)
  | .drain which =>
    let (result, coordinator) := drain impl json which coordinator
    (.drained which.address.channel result, coordinator)

def run : List CoordinatorCall → FrostCoordinator τ → List CoordinatorReply × FrostCoordinator τ
  | [], coordinator => ([], coordinator)
  | call :: rest, coordinator =>
    let (reply, coordinator) := perform impl json call coordinator
    let (replies, coordinator) := run rest coordinator
    (reply :: replies, coordinator)

end FrostCoordinator

section Drains

open FrostCoordinator

/-- The messages that a drain takes out of the transport. -/
def Drain.selects (drain : Drain) (message : ProtocolMessage) : Bool :=
  message.sessionId = drain.address.sessionId && (message.kind = drain.address.channel.kind &&
    (drain.address.recipient.map message.isFor).getD true)

theorem drainPackages_memory {α : Type} (sessionId : SessionId) (only : ProtocolMessage → Bool)
    (fromProtocolMessage : ProtocolMessage → Result α) (coordinator : FrostCoordinator MemoryTransport) :
    drainPackages MemoryTransport.transport sessionId only fromProtocolMessage coordinator =
      (collectResults fromProtocolMessage (coordinator.transport.messages.filter fun message =>
          message.sessionId = sessionId && only message),
        ⟨{ coordinator.transport with messages := coordinator.transport.messages.filter fun message =>
          !(message.sessionId = sessionId && only message) }⟩) := by
  have hwithin : Predicate.within (fun (s : Unit) message => (only message, s)) sessionId =
      fun s message => (message.sessionId = sessionId && only message, s) := by
    funext s message
    by_cases h : message.sessionId = sessionId <;> simp [Predicate.within, h]
  have hmemory := MemoryTransport.drainMatching_eq_sift sessionId
    (fun (s : Unit) message => (only message, s)) coordinator.transport ()
  rw [hwithin, sift_pure] at hmemory
  have hdrain : MemoryTransport.transport.drainMatching sessionId
      (fun (s : Unit) message => (only message, s)) coordinator.transport () = _ := hmemory
  rw [drainPackages, hdrain]
  rfl

theorem drain_memory (json : PackageCodecs) (drain : Drain)
    (coordinator : FrostCoordinator MemoryTransport) :
    FrostCoordinator.drain MemoryTransport.transport json drain coordinator =
      (collectResults (drain.address.channel.fromProtocolMessage (json drain.address.channel))
          (coordinator.transport.messages.filter drain.selects),
        ⟨{ coordinator.transport with
          messages := coordinator.transport.messages.filter fun message => !drain.selects message }⟩) := by
  have hbroadcast : ∀ (drain : Drain), drain.address.recipient = none →
      drain.selects = fun message => message.sessionId = drain.address.sessionId &&
        decide (message.kind = drain.address.channel.kind) := by
    intro drain h
    funext message
    simp [Drain.selects, h]
  cases drain with
  | round1 sessionId =>
    rw [hbroadcast _ rfl]
    exact drainPackages_memory _ _ _ coordinator
  | round2For sessionId recipient => exact drainPackages_memory _ _ _ coordinator
  | htssDkgRound1 sessionId =>
    rw [hbroadcast _ rfl]
    exact drainPackages_memory _ _ _ coordinator
  | htssDkgRound2For sessionId recipient => exact drainPackages_memory _ _ _ coordinator
  | nonces signingSessionId =>
    rw [hbroadcast _ rfl]
    exact drainPackages_memory _ _ _ coordinator
  | signatureShares signingSessionId =>
    rw [hbroadcast _ rfl]
    exact drainPackages_memory _ _ _ coordinator
  | htssNonces signingSessionId =>
    rw [hbroadcast _ rfl]
    exact drainPackages_memory _ _ _ coordinator
  | htssSignatureShares signingSessionId =>
    rw [hbroadcast _ rfl]
    exact drainPackages_memory _ _ _ coordinator

/-- A failed drain leaves the transport as it was exactly if every selected message carries
a package of the drain's kind, so that the drain does not fail. -/
theorem failedDrain_keeps_iff (json : PackageCodecs) (drain : Drain)
    (coordinator : FrostCoordinator MemoryTransport) :
    (∀ fault, (FrostCoordinator.drain MemoryTransport.transport json drain coordinator).1 = .error fault →
      (FrostCoordinator.drain MemoryTransport.transport json drain coordinator).2.transport.messages =
        coordinator.transport.messages) ↔
    ∀ message ∈ coordinator.transport.messages, drain.selects message → ∃ package,
      drain.address.channel.Genuine (json drain.address.channel) message package := by
  rw [drain_memory]
  have hdecode : (∀ message ∈ coordinator.transport.messages, drain.selects message → ∃ package,
      drain.address.channel.Genuine (json drain.address.channel) message package) ↔
      ∃ packages, collectResults (drain.address.channel.fromProtocolMessage (json drain.address.channel))
        (coordinator.transport.messages.filter drain.selects) = .ok packages := by
    simp only [exists_collectResults_eq_ok, Channel.fromProtocolMessage_eq_ok, List.mem_filter, and_imp]
  rw [hdecode]
  constructor
  · intro h
    cases hresult : collectResults (drain.address.channel.fromProtocolMessage
        (json drain.address.channel)) (coordinator.transport.messages.filter drain.selects) with
    | ok packages => exact ⟨packages, rfl⟩
    | error fault =>
      -- nothing was selected, so there was nothing to fail on
      have hnone := filter_eq_nil_of_filter_not (h fault hresult)
      rw [hnone] at hresult
      cases hresult
  · rintro ⟨packages, hok⟩ fault hfault
    rw [hok] at hfault
    cases hfault

/-- One misrouted message of round one takes an honest package with it, for every codec. -/
theorem failedDrain_loses_package :
    let misrouted : ProtocolMessage := .direct "vault-1-dkg" 2 1 .frostDkgRound1 []
    let honest : ProtocolMessage := .broadcast "vault-1-dkg" 1 .frostDkgRound1
      (asBytes "\x7b\"participant_id\":1,\"bytes\":[7]\x7d")
    let coordinator : FrostCoordinator MemoryTransport := ⟨⟨true, [misrouted, honest]⟩⟩
    coordinator.transport.pendingLen = 2 ∧ ∀ json : PackageCodecs,
      drainRound1 MemoryTransport.transport json "vault-1-dkg" coordinator =
        (fail (.protocol "expected broadcast protocol message"), ⟨⟨true, []⟩⟩) := by
  refine ⟨rfl, fun json => ?_⟩
  rw [drainRound1, drainPackages_memory]
  simp [ProtocolMessage.direct, ProtocolMessage.broadcast, collectResults,
    Round1Package.fromProtocolMessage, fromBroadcast, requireKind, requireBroadcast, fail]

end Drains

section Queues

open FrostCoordinator

/-- One queue for every address, as the coordinator is meant to behave. -/
abbrev Queues := (address : Address) → List address.Package

namespace Queues

def empty : Queues := fun _ => []

/-- Publishing appends to one queue; draining returns one queue and empties it. -/
def perform (call : CoordinatorCall) (queues : Queues) : CoordinatorReply × Queues :=
  match call with
  | .publish publication => (.published (.ok ()), push queues publication.address publication.package)
  | .drain drain =>
    (.drained drain.address.channel (.ok (queues drain.address)), clear queues drain.address)

def run : List CoordinatorCall → Queues → List CoordinatorReply × Queues
  | [], queues => ([], queues)
  | call :: rest, queues =>
    let (reply, queues) := perform call queues
    let (replies, queues) := run rest queues
    (reply :: replies, queues)

end Queues

/-- The message carries the package for its address. -/
def Carries (json : PackageCodecs) (sent : Σ address : Address, address.Package)
    (message : ProtocolMessage) : Prop :=
  message.sessionId = sent.1.sessionId ∧ message.recipient = sent.1.recipient ∧
    sent.1.channel.Genuine (json sent.1.channel) message sent.2

/-- The messages carry the packages of all queues, each once and in the order of its queue. -/
def Represents (json : PackageCodecs) (messages : List ProtocolMessage) (queues : Queues) : Prop :=
  ∃ pending : List (Σ address : Address, address.Package),
    List.Forall₂ (Carries json) pending messages ∧ queues = fun address => fiber address pending

def Publication.LengthValid (publication : Publication) : Prop :=
  publication.address.channel.LengthValid publication.package

variable {json : PackageCodecs}

theorem toProtocolMessage_carries (hjson : ∀ channel, (json channel).RoundTrips) (channel : Channel)
    (sessionId : SessionId) (package : channel.Package) (hlen : channel.LengthValid package) :
    ∃ message, channel.toProtocolMessage (json channel) package sessionId = .ok message ∧
      Carries json ⟨⟨channel, (channel.session package).getD sessionId, channel.recipient package⟩,
        package⟩ message := by
  obtain ⟨message, hto, hencoded⟩ :=
    channel.toProtocolMessage_spec (hjson channel) package sessionId
  exact ⟨message, hto, hencoded.session, hencoded.recipient, hencoded.genuine hlen⟩

/-- Every publication appends one message, and the message carries its package. -/
theorem publish_memory (hjson : ∀ channel, (json channel).RoundTrips) (publication : Publication)
    (hlen : publication.LengthValid) (coordinator : FrostCoordinator MemoryTransport) : ∃ message,
      Carries json ⟨publication.address, publication.package⟩ message ∧
      publish MemoryTransport.transport json publication coordinator = (.ok (),
        ⟨{ coordinator.transport with messages := coordinator.transport.messages ++ [message] }⟩) := by
  have hpublish : ∀ {result : Result ProtocolMessage} {message}, result = .ok message →
      publishMessage MemoryTransport.transport result coordinator = (.ok (),
        ⟨{ coordinator.transport with messages := coordinator.transport.messages ++ [message] }⟩) := by
    rintro _ message rfl
    rfl
  cases publication with
  | round1 sessionId package =>
    obtain ⟨message, hto, h⟩ := toProtocolMessage_carries hjson .round1 sessionId package hlen
    exact ⟨message, h, hpublish hto⟩
  | round2 sessionId package =>
    obtain ⟨message, hto, h⟩ := toProtocolMessage_carries hjson .round2 sessionId package hlen
    exact ⟨message, h, hpublish hto⟩
  | htssDkgRound1 sessionId package =>
    obtain ⟨message, hto, h⟩ := toProtocolMessage_carries hjson .htssDkgRound1 sessionId package hlen
    exact ⟨message, h, hpublish hto⟩
  | htssDkgRound2 sessionId package =>
    obtain ⟨message, hto, h⟩ := toProtocolMessage_carries hjson .htssDkgRound2 sessionId package hlen
    exact ⟨message, h, hpublish hto⟩
  | nonce package =>
    obtain ⟨message, hto, h⟩ :=
      toProtocolMessage_carries hjson .nonce package.signingSessionId package hlen
    exact ⟨message, h, hpublish hto⟩
  | signatureShare package =>
    obtain ⟨message, hto, h⟩ :=
      toProtocolMessage_carries hjson .signatureShare package.signingSessionId package hlen
    exact ⟨message, h, hpublish hto⟩
  | htssNonce package =>
    obtain ⟨message, hto, h⟩ :=
      toProtocolMessage_carries hjson .htssNonce package.signingSessionId package hlen
    exact ⟨message, h, hpublish hto⟩
  | htssSignatureShare package =>
    obtain ⟨message, hto, h⟩ :=
      toProtocolMessage_carries hjson .htssSignatureShare package.signingSessionId package hlen
    exact ⟨message, h, hpublish hto⟩

/-- Whether packages of the channel have a recipient. -/
def Channel.isDirect : Channel → Bool
  | round2 => true
  | htssDkgRound2 => true
  | _ => false

theorem Channel.recipient_isSome (channel : Channel) (package : channel.Package) :
    (channel.recipient package).isSome = channel.isDirect := by
  cases channel <;> rfl

theorem Drain.recipient_isSome (drain : Drain) :
    drain.address.recipient.isSome = drain.address.channel.isDirect := by
  cases drain <;> rfl

theorem selects_iff {sent : Σ address : Address, address.Package} {message : ProtocolMessage}
    (h : Carries json sent message) (drain : Drain) :
    drain.selects message ↔ sent.1 = drain.address := by
  obtain ⟨⟨channel, sessionId, recipient⟩, package⟩ := sent
  obtain ⟨hsession, hrecipient, hgenuine⟩ := h
  have hsome : recipient.isSome = channel.isDirect := by
    rw [← channel.recipient_isSome package, ← hgenuine.recipient, hrecipient]
  have hsome' := drain.recipient_isSome
  rw [Drain.selects]
  generalize drain.address = address at hsome' ⊢
  obtain ⟨channel', sessionId', recipient'⟩ := address
  simp only [Bool.and_eq_true, decide_eq_true_eq, Address.mk.injEq, hgenuine.kind, hsession,
    Channel.kind_injective.eq_iff]
  -- within one channel, either both recipients are there or none
  have hmatch : channel = channel' →
      ((recipient'.map message.isFor).getD true = true ↔ recipient = recipient') := by
    rintro rfl
    rw [← hsome] at hsome'
    cases recipient with
    | none => cases recipient' with
      | none => simp
      | some id' => cases hsome'
    | some id => cases recipient' with
      | none => cases hsome'
      | some id' => simp [ProtocolMessage.isFor, hrecipient]
  constructor
  · rintro ⟨hs, hc, hr⟩
    exact ⟨hc, hs, (hmatch hc).mp hr⟩
  · rintro ⟨hc, hs, hr⟩
    exact ⟨hs, hc, (hmatch hc).mpr hr⟩

theorem represents_empty : Represents json [] Queues.empty := ⟨[], .nil, rfl⟩

theorem Represents.push {messages : List ProtocolMessage} {queues : Queues} (h : Represents json messages queues)
    {address : Address} {package : address.Package} {message : ProtocolMessage}
    (hmessage : Carries json ⟨address, package⟩ message) :
    Represents json (messages ++ [message]) (push queues address package) := by
  obtain ⟨pending, hpending, rfl⟩ := h
  exact ⟨pending ++ [⟨address, package⟩], List.rel_append hpending (.cons hmessage .nil),
    (fiber_push pending address package).symm⟩

/-- A drain reads the whole queue of its address, in order, and leaves all others. -/
theorem Represents.drain {messages : List ProtocolMessage} {queues : Queues}
    (h : Represents json messages queues) (drain : Drain) :
    collectResults (drain.address.channel.fromProtocolMessage (json drain.address.channel))
        (messages.filter drain.selects) = .ok (queues drain.address) ∧
      Represents json (messages.filter fun message => !drain.selects message)
        (clear queues drain.address) := by
  obtain ⟨pending, hpending, rfl⟩ := h
  constructor
  · have htaken : List.Forall₂ (Carries json) (pending.filter fun sent => sent.1 = drain.address)
        (messages.filter drain.selects) := by
      refine List.rel_filter ?_ hpending
      intro sent message hsent
      simp only [decide_eq_true_eq, selects_iff hsent]
    rw [filter_eq_map_fiber, List.forall₂_map_left_iff] at htaken
    rw [collectResults_eq_ok]
    refine htaken.flip.imp ?_
    intro message package hcarries
    exact Channel.fromProtocolMessage_eq_ok.mpr hcarries.2.2
  · refine ⟨pending.filter fun sent => sent.1 ≠ drain.address, List.rel_filter ?_ hpending,
      (fiber_clear pending drain.address).symm⟩
    intro sent message hsent
    simp only [decide_eq_true_eq, ne_eq, Bool.not_eq_true', ← selects_iff hsent, Bool.not_eq_true]

def CoordinatorCall.LengthValid : CoordinatorCall → Prop
  | .publish publication => publication.LengthValid
  | .drain _ => True

theorem perform_represents (hjson : ∀ channel, (json channel).RoundTrips) (call : CoordinatorCall)
    (hlen : call.LengthValid) {coordinator : FrostCoordinator MemoryTransport} {queues : Queues}
    (h : Represents json coordinator.transport.messages queues) :
    (perform MemoryTransport.transport json call coordinator).1 = (queues.perform call).1 ∧
      Represents json (perform MemoryTransport.transport json call coordinator).2.transport.messages
        (queues.perform call).2 := by
  cases call with
  | publish publication =>
    obtain ⟨message, hcarries, hpublish⟩ := publish_memory hjson publication hlen coordinator
    simp only [perform, Queues.perform, hpublish]
    exact ⟨trivial, h.push hcarries⟩
  | drain drain =>
    obtain ⟨hread, hrest⟩ := h.drain drain
    simp only [perform, Queues.perform, drain_memory, hread]
    exact ⟨trivial, hrest⟩

theorem run_represents (hjson : ∀ channel, (json channel).RoundTrips) (calls : List CoordinatorCall)
    (hlen : ∀ call ∈ calls, call.LengthValid) {coordinator : FrostCoordinator MemoryTransport}
    {queues : Queues} (h : Represents json coordinator.transport.messages queues) :
    (run MemoryTransport.transport json calls coordinator).1 = (queues.run calls).1 ∧
      Represents json (run MemoryTransport.transport json calls coordinator).2.transport.messages
        (queues.run calls).2 := by
  induction calls generalizing coordinator queues with
  | nil => exact ⟨rfl, h⟩
  | cons call rest ih =>
    rw [List.forall_mem_cons] at hlen
    obtain ⟨hreply, hstep⟩ := perform_represents hjson call hlen.1 h
    obtain ⟨hreplies, hrest⟩ := ih hlen.2 hstep
    simp only [run, Queues.run, hreply, hreplies]
    exact ⟨trivial, hrest⟩

end Queues

open FrostCoordinator

/-- Whatever is published and drained in whatever order, every call answers as the family of
queues does, and the messages left over are exactly what the queues still hold. -/
theorem coordinator_refines_queues (json : PackageCodecs) (hjson : ∀ channel, (json channel).RoundTrips)
    (calls : List CoordinatorCall) (hlen : ∀ call ∈ calls, call.LengthValid) :
    (FrostCoordinator.run MemoryTransport.transport json calls ⟨MemoryTransport.default⟩).1 =
        (Queues.empty.run calls).1 ∧
      Represents json
        (FrostCoordinator.run MemoryTransport.transport json calls ⟨MemoryTransport.default⟩).2.transport.messages
        (Queues.empty.run calls).2 :=
  run_represents hjson calls hlen represents_empty

theorem coordinator_refines_queues_hello :
    (FrostCoordinator.run MemoryTransport.transport helloCodecs
        [.publish (.round1 "vault-1-dkg" helloPackage), .drain (.nonces "vault-1-dkg"),
          .drain (.round1 "vault-1-dkg")] ⟨MemoryTransport.default⟩).1 =
      [.published (.ok ()), .drained .nonce (.ok []), .drained .round1 (.ok [helloPackage])] := by
  have hlen : ∀ call ∈ [CoordinatorCall.publish (.round1 "vault-1-dkg" helloPackage),
      .drain (.nonces "vault-1-dkg"), .drain (.round1 "vault-1-dkg")], call.LengthValid := by
    simp [CoordinatorCall.LengthValid, Publication.LengthValid, Publication.address, Channel.LengthValid]
  rw [(coordinator_refines_queues helloCodecs helloCodecs_roundTrips _ hlen).1]
  rfl

end DkgKit
