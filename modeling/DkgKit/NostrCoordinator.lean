import DkgKit.Coordinator
import DkgKit.Nostr

/-! The coordinator over the Nostr-shaped local transport. Its calls act on the same queues as
over the memory transport, as long as the packages name members and a session. -/

open SelectiveQueue

namespace DkgKit

open FrostCoordinator

section Calls

variable {τ : Type}

/-- The message that a publication puts on the transport. -/
def Publication.message (json : PackageCodecs) : Publication → Result ProtocolMessage
  | .round1 sessionId package => package.toProtocolMessage (json .round1) sessionId
  | .round2 sessionId package => package.toProtocolMessage (json .round2) sessionId
  | .htssDkgRound1 sessionId package => package.toProtocolMessage (json .htssDkgRound1) sessionId
  | .htssDkgRound2 sessionId package => package.toProtocolMessage (json .htssDkgRound2) sessionId
  | .nonce package => package.toProtocolMessage (json .nonce)
  | .signatureShare package => package.toProtocolMessage (json .signatureShare)
  | .htssNonce package => package.toProtocolMessage (json .htssNonce)
  | .htssSignatureShare package => package.toProtocolMessage (json .htssSignatureShare)

theorem publish_eq_publishMessage (impl : Transport τ) (json : PackageCodecs) (publication : Publication) :
    publish impl json publication = publishMessage impl (publication.message json) := by
  cases publication <;> rfl

/-- The test of a drain, besides the session. -/
def Drain.only (drain : Drain) (message : ProtocolMessage) : Bool :=
  message.kind = drain.address.channel.kind && (drain.address.recipient.map message.isFor).getD true

theorem drain_eq_drainPackages (impl : Transport τ) (json : PackageCodecs) (drain : Drain) :
    FrostCoordinator.drain impl json drain = drainPackages impl drain.address.sessionId drain.only
      (drain.address.channel.fromProtocolMessage (json drain.address.channel)) := by
  have hbroadcast : ∀ drain : Drain, drain.address.recipient = none →
      drain.only = fun message => decide (message.kind = drain.address.channel.kind) := by
    intro drain h
    funext message
    simp [Drain.only, h]
  cases drain with
  | round1 sessionId =>
    rw [hbroadcast _ rfl]
    rfl
  | round2For sessionId recipient => rfl
  | htssDkgRound1 sessionId =>
    rw [hbroadcast _ rfl]
    rfl
  | htssDkgRound2For sessionId recipient => rfl
  | nonces signingSessionId =>
    rw [hbroadcast _ rfl]
    rfl
  | signatureShares signingSessionId =>
    rw [hbroadcast _ rfl]
    rfl
  | htssNonces signingSessionId =>
    rw [hbroadcast _ rfl]
    rfl
  | htssSignatureShares signingSessionId =>
    rw [hbroadcast _ rfl]
    rfl

end Calls

section Queues

variable {wire : Wire} {json : PackageCodecs}

/-- The stored events carry the packages of all queues. -/
def Waiting (wire : Wire) (json : PackageCodecs)
    (coordinator : FrostCoordinator LocalNostrEventTransport) (queues : Queues) : Prop :=
  ∃ messages, LocalNostrEventTransport.Decodes wire coordinator.transport.events messages ∧
    Represents json messages queues

theorem waiting_empty (connected : Bool) : Waiting wire json ⟨⟨connected, []⟩⟩ Queues.empty :=
  ⟨[], .nil, represents_empty⟩

/-- Nothing is stored where all queues are empty. -/
theorem Waiting.events_eq_nil {coordinator : FrostCoordinator LocalNostrEventTransport}
    (h : Waiting wire json coordinator Queues.empty) : coordinator.transport.events = [] := by
  obtain ⟨messages, hdecodes, pending, hpending, hqueues⟩ := h
  have hnone : pending = [] := by
    cases pending with
    | nil => rfl
    | cons sent rest =>
      have hfiber := congrFun hqueues sent.1
      simp [Queues.empty, fiber] at hfiber
  subst hnone
  rw [List.forall₂_nil_left_iff] at hpending
  rw [hpending] at hdecodes
  exact List.forall₂_nil_right_iff.mp hdecodes

/-- The packages that the events of a Nostr relay can carry: their ids are not zero and
their session is not blank. -/
structure Publication.WellFormed (publication : Publication) : Prop where
  sender : publication.address.channel.sender publication.package ≠ 0
  recipient : publication.address.recipient ≠ some 0
  sessionId : isBlank publication.address.sessionId = false

theorem Publication.message_carries (hjson : ∀ channel, (json channel).RoundTrips)
    (publication : Publication) (hlen : publication.LengthValid) : ∃ message,
      publication.message json = .ok message ∧
        Carries json ⟨publication.address, publication.package⟩ message := by
  obtain ⟨message, hcarries, hpublish⟩ := publish_memory hjson publication hlen ⟨MemoryTransport.default⟩
  rw [publish_eq_publishMessage] at hpublish
  refine ⟨message, ?_, hcarries⟩
  cases hmessage : publication.message json with
  | error fault => simp [publishMessage, hmessage] at hpublish
  | ok sent =>
    rw [hmessage] at hpublish
    have hevents := congrArg (fun outcome => outcome.2.transport.messages) hpublish
    simp [publishMessage, MemoryTransport.transport, MemoryTransport.publish,
      MemoryTransport.default] at hevents
    rw [hevents]

theorem Carries.wellFormed {publication : Publication} {message : ProtocolMessage}
    (hcarries : Carries json ⟨publication.address, publication.package⟩ message)
    (h : publication.WellFormed) : message.WellFormed := by
  obtain ⟨hsession, hrecipient, hgenuine⟩ := hcarries
  refine ⟨hgenuine.sender ▸ h.sender, hrecipient ▸ h.recipient, hsession ▸ h.sessionId, ?_⟩
  intro value hvalue
  have hkind : publication.address.channel.kind = .custom value := hgenuine.kind.symm.trans hvalue
  exact absurd hkind (publication.address.channel.kind_ne_custom value)

variable {coordinator : FrostCoordinator LocalNostrEventTransport} {queues : Queues}

theorem Waiting.publish (hwire : wire.json.RoundTrips) (hjson : ∀ channel, (json channel).RoundTrips)
    (h : Waiting wire json coordinator queues) {publication : Publication}
    (hlen : publication.LengthValid) (hwf : publication.WellFormed) :
    ∃ events, FrostCoordinator.publish (LocalNostrEventTransport.transport wire) json publication
        coordinator = (.ok (), ⟨{ coordinator.transport with events := events }⟩) ∧
      Waiting wire json ⟨{ coordinator.transport with events := events }⟩
        (push queues publication.address publication.package) := by
  obtain ⟨messages, hdecodes, hqueues⟩ := h
  obtain ⟨message, hmessage, hcarries⟩ := publication.message_carries hjson hlen
  obtain ⟨event, hpublish, -, hdecode⟩ :=
    LocalNostrEventTransport.publish_spec hwire message coordinator.transport
  have hevent := (hdecode message).mpr ⟨hcarries.wellFormed hwf, rfl⟩
  refine ⟨coordinator.transport.events ++ [event], ?_, messages ++ [message],
    List.rel_append hdecodes (.cons hevent .nil), hqueues.push hcarries⟩
  rw [publish_eq_publishMessage, hmessage]
  simp only [publishMessage, LocalNostrEventTransport.transport, hpublish]

theorem Waiting.drain (h : Waiting wire json coordinator queues)
    (drain : Drain) : ∃ events, FrostCoordinator.drain (LocalNostrEventTransport.transport wire) json
        drain coordinator =
        (.ok (queues drain.address), ⟨{ coordinator.transport with events := events }⟩) ∧
      Waiting wire json ⟨{ coordinator.transport with events := events }⟩
        (clear queues drain.address) := by
  obtain ⟨messages, hdecodes, hqueues⟩ := h
  obtain ⟨hread, hrest⟩ := hqueues.drain drain
  have hwithin : Predicate.within (fun (s : Unit) message => (drain.only message, s))
      drain.address.sessionId = fun s message => (drain.selects message, s) := by
    funext s message
    by_cases h : message.sessionId = drain.address.sessionId <;>
      simp [Predicate.within, Drain.selects, Drain.only, h]
  obtain ⟨left, hloop, hleft⟩ := LocalNostrEventTransport.drainLoop_of_decodes drain.address.sessionId
    (fun (s : Unit) message => (drain.only message, s)) hdecodes [] [] ()
  rw [hwithin, sift_pure] at hloop hleft
  have hdrain : (LocalNostrEventTransport.transport wire).drainMatching drain.address.sessionId
      (fun (s : Unit) message => (drain.only message, s)) coordinator.transport () =
        (.ok (messages.filter drain.selects), { coordinator.transport with events := left }, ()) := by
    change LocalNostrEventTransport.drainMatching wire _ _ coordinator.transport () = _
    rw [LocalNostrEventTransport.drainMatching, hloop]
    rfl
  refine ⟨left, ?_, _, hleft, hrest⟩
  rw [drain_eq_drainPackages, drainPackages, hdrain]
  dsimp only
  rw [ok_bind, hread]

def CoordinatorCall.WellFormed : CoordinatorCall → Prop
  | .publish publication => publication.WellFormed
  | .drain _ => True

theorem Waiting.perform (hwire : wire.json.RoundTrips) (hjson : ∀ channel, (json channel).RoundTrips)
    (h : Waiting wire json coordinator queues) {call : CoordinatorCall} (hlen : call.LengthValid)
    (hwf : call.WellFormed) :
    (FrostCoordinator.perform (LocalNostrEventTransport.transport wire) json call coordinator).1 =
        (queues.perform call).1 ∧
      Waiting wire json
        (FrostCoordinator.perform (LocalNostrEventTransport.transport wire) json call coordinator).2
        (queues.perform call).2 := by
  cases call with
  | publish publication =>
    obtain ⟨events, hpublish, hwaiting⟩ := h.publish hwire hjson hlen hwf
    simp only [FrostCoordinator.perform, Queues.perform, hpublish]
    exact ⟨trivial, hwaiting⟩
  | drain drain =>
    obtain ⟨events, hdrain, hwaiting⟩ := h.drain drain
    simp only [FrostCoordinator.perform, Queues.perform, hdrain]
    exact ⟨trivial, hwaiting⟩

theorem Waiting.run (hwire : wire.json.RoundTrips) (hjson : ∀ channel, (json channel).RoundTrips)
    (h : Waiting wire json coordinator queues) (calls : List CoordinatorCall)
    (hlen : ∀ call ∈ calls, call.LengthValid) (hwf : ∀ call ∈ calls, call.WellFormed) :
    (FrostCoordinator.run (LocalNostrEventTransport.transport wire) json calls coordinator).1 =
        (queues.run calls).1 ∧
      Waiting wire json
        (FrostCoordinator.run (LocalNostrEventTransport.transport wire) json calls coordinator).2
        (queues.run calls).2 := by
  induction calls generalizing coordinator queues with
  | nil => exact ⟨rfl, h⟩
  | cons call rest ih =>
    rw [List.forall_mem_cons] at hlen hwf
    obtain ⟨hreply, hstep⟩ := h.perform hwire hjson hlen.1 hwf.1
    obtain ⟨hreplies, hrest⟩ := ih hstep hlen.2 hwf.2
    simp only [FrostCoordinator.run, Queues.run, hreply, hreplies]
    exact ⟨trivial, hrest⟩

end Queues

/-- Over the Nostr-shaped transport too, in every run that publishes only packages with nonzero
ids, sessions that are not blank and public nonces of 33 bytes, every call answers as the family
of queues does, nothing that waits is lost or doubled, and an event is stored only while some
queue holds its package. -/
theorem localNostrCoordinator_refines_queues (wire : Wire) (hwire : wire.json.RoundTrips)
    (json : PackageCodecs) (hjson : ∀ channel, (json channel).RoundTrips) (calls : List CoordinatorCall)
    (hlen : ∀ call ∈ calls, call.LengthValid) (hwf : ∀ call ∈ calls, call.WellFormed) :
    let outcome := FrostCoordinator.run (LocalNostrEventTransport.transport wire) json calls
      ⟨LocalNostrEventTransport.default⟩
    outcome.1 = (Queues.empty.run calls).1 ∧
      (∃ messages, LocalNostrEventTransport.Decodes wire outcome.2.transport.events messages ∧
        Represents json messages (Queues.empty.run calls).2) ∧
      ((∀ address, (Queues.empty.run calls).2 address = []) → outcome.2.transport.events = []) := by
  obtain ⟨hreplies, hwaiting⟩ := (waiting_empty false).run hwire hjson calls hlen hwf
  refine ⟨hreplies, hwaiting, fun hempty => ?_⟩
  have hqueues : (Queues.empty.run calls).2 = Queues.empty := funext hempty
  rw [hqueues] at hwaiting
  exact hwaiting.events_eq_nil

theorem localNostrCoordinator_refines_queues_hello :
    (FrostCoordinator.run (LocalNostrEventTransport.transport helloWire) helloCodecs
        [.publish (.round1 "vault-1-dkg" helloPackage), .drain (.nonces "vault-1-dkg"),
          .drain (.round1 "vault-1-dkg")] ⟨LocalNostrEventTransport.default⟩).1 =
      [.published (.ok ()), .drained .nonce (.ok []), .drained .round1 (.ok [helloPackage])] := by
  have hlen : ∀ call ∈ [CoordinatorCall.publish (.round1 "vault-1-dkg" helloPackage),
      .drain (.nonces "vault-1-dkg"), .drain (.round1 "vault-1-dkg")], call.LengthValid := by
    simp [CoordinatorCall.LengthValid, Publication.LengthValid, Publication.address, Channel.LengthValid]
  have hhello : (Publication.round1 "vault-1-dkg" helloPackage).WellFormed :=
    ⟨by decide, by simp [Publication.address], (by decide : isBlank "vault-1-dkg" = false)⟩
  have hwf : ∀ call ∈ [CoordinatorCall.publish (.round1 "vault-1-dkg" helloPackage),
      .drain (.nonces "vault-1-dkg"), .drain (.round1 "vault-1-dkg")], call.WellFormed := by
    simp [CoordinatorCall.WellFormed, hhello]
  rw [(localNostrCoordinator_refines_queues helloWire helloWire_roundTrips helloCodecs
    helloCodecs_roundTrips _ hlen hwf).1]
  rfl

end DkgKit
