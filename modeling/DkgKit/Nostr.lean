import DkgKit.Messages

/-! Nostr events as envelopes of protocol messages, and the local transport of
`dkgkit-nostr` that stores events instead of messages. -/

open SelectiveQueue

namespace DkgKit

/-- What the envelopes and events need from outside: the codec of messages, the text of the
error of `String::from_utf8`, and what `Tag::hashtag` writes for a hashtag. -/
structure Wire where
  json : Json ProtocolMessage
  utf8Error : List UInt8 → String
  hashtag : String → String

/-- `Tag::hashtag` lower-cases; only ASCII texts are spelled out here. -/
def Wire.LowersHashtags (wire : Wire) : Prop :=
  ∀ text : String, (∀ c ∈ text.toList, c.toNat < 128) → wire.hashtag text = text.toLower

structure NostrEnvelopeEvent where
  kind : UInt64
  app : String
  sessionId : String
  sender : UInt16
  recipient : Option UInt16
  messageKind : String
  content : String
  deriving DecidableEq

def dkgkitNostrEventKind : UInt64 := 30333

def dkgkitNostrAppTag : String := "dkgkit"

namespace NostrEnvelopeEvent

def fromProtocolMessage (wire : Wire) (message : ProtocolMessage) : Result NostrEnvelopeEvent := do
  let bytes ← message.encodeJson wire.json
  let content ← okOr (.serialization (wire.utf8Error bytes)) (fromUtf8 bytes)
  .ok ⟨dkgkitNostrEventKind, dkgkitNostrAppTag, message.sessionId, message.sender, message.recipient,
    message.kind.asStr, content⟩

def validateMetadata (event : NostrEnvelopeEvent) : Result Unit :=
  if event.kind ≠ dkgkitNostrEventKind then
    fail (.protocol s!"unexpected Nostr event kind: expected {dkgkitNostrEventKind}, got {event.kind}")
  else if event.app ≠ dkgkitNostrAppTag then
    fail (.protocol s!"unexpected Nostr app tag: expected {dkgkitNostrAppTag}, got {event.app}")
  else do
    let _ ← SessionId.new event.sessionId
    let _ ← ParticipantId.new event.sender
    let _ ← event.recipient.mapM ParticipantId.new
    match ProtocolMessageKind.from event.messageKind with
    | .custom value => if isBlank value then fail .emptyMessageKind else .ok ()
    | _ => .ok ()

def toProtocolMessage (wire : Wire) (event : NostrEnvelopeEvent) : Result ProtocolMessage := do
  event.validateMetadata
  let message ← ProtocolMessage.decodeJson wire.json (asBytes event.content)
  if message.sessionId ≠ event.sessionId then
    fail (.protocol "Nostr event session tag does not match message content")
  else if message.sender ≠ event.sender then
    fail (.protocol "Nostr event sender tag does not match message content")
  else if message.recipient ≠ event.recipient then
    fail (.protocol "Nostr event recipient tag does not match message content")
  else if message.kind.asStr ≠ event.messageKind then
    fail (.protocol "Nostr event kind tag does not match message content")
  else .ok message

end NostrEnvelopeEvent

structure LocalNostrEventTransport where
  connected : Bool
  events : List NostrEnvelopeEvent
  deriving DecidableEq

namespace LocalNostrEventTransport

def default : LocalNostrEventTransport := ⟨false, []⟩

def pendingLen (transport : LocalNostrEventTransport) : ℕ := transport.events.length

def publish (wire : Wire) (message : ProtocolMessage) (transport : LocalNostrEventTransport) :
    Result Unit × LocalNostrEventTransport :=
  match NostrEnvelopeEvent.fromProtocolMessage wire message with
  | .ok event => (.ok (), { transport with events := transport.events ++ [event] })
  | .error fault => (.error fault, transport)

/-- The loop of `drain_matching` over the events, with `drained` and `kept` so far. -/
def drainLoop {σ : Type} (wire : Wire) (sessionId : SessionId) (predicate : Predicate σ) :
    List NostrEnvelopeEvent → List ProtocolMessage → List NostrEnvelopeEvent → σ →
      Result (List ProtocolMessage × List NostrEnvelopeEvent) × σ
  | [], drained, kept, s => (.ok (drained, kept), s)
  | event :: rest, drained, kept, s =>
    match event.toProtocolMessage wire with
    | .error fault => (.error fault, s)
    | .ok message =>
      let (hit, s) := predicate.within sessionId s message
      if hit then drainLoop wire sessionId predicate rest (drained ++ [message]) kept s
      else drainLoop wire sessionId predicate rest drained (kept ++ [event]) s

def drainMatching {σ : Type} (wire : Wire) (sessionId : SessionId) (predicate : Predicate σ)
    (transport : LocalNostrEventTransport) (s : σ) :
    Result (List ProtocolMessage) × LocalNostrEventTransport × σ :=
  match drainLoop wire sessionId predicate transport.events [] [] s with
  | (.ok (drained, kept), s) => (.ok drained, { transport with events := kept }, s)
  -- `drain(..)` has already taken all events out of the vector
  | (.error fault, s) => (.error fault, { transport with events := [] }, s)

def transport (wire : Wire) : Transport LocalNostrEventTransport where
  connect := fun nostr => (.ok (), { nostr with connected := true })
  disconnect := fun nostr => (.ok (), { nostr with connected := false })
  publish := publish wire
  drainMatching := drainMatching wire

end LocalNostrEventTransport

section Envelopes

/-- Ids are not zero; neither the session id nor a custom kind is blank. -/
structure ProtocolMessage.WellFormed (message : ProtocolMessage) : Prop where
  sender : message.sender ≠ 0
  recipient : message.recipient ≠ some 0
  sessionId : isBlank message.sessionId = false
  kind : ∀ value, message.kind = .custom value → isBlank value = false

theorem isBlank_asStr {kind : ProtocolMessageKind} :
    isBlank kind.asStr = false ↔ ∀ value, kind = .custom value → isBlank value = false := by
  cases kind with
  | custom value => simp [ProtocolMessageKind.asStr]
  | _ => simp only [reduceCtorEq, false_implies, implies_true, iff_true]; decide

/-- The texts that `From<&str>` reads as one of the built-in kinds. -/
def ProtocolMessageKind.builtinNames : List String :=
  ["session_manifest", "frost_dkg_round1", "round1", "frost_dkg_round2", "round2", "htss_dkg_round1",
    "htss_dkg_round2", "frost_signing_nonce", "nonce", "frost_signature_share", "signature_share",
    "htss_signing_nonce", "htss_signature_share"]

/-- A text that is no kind's name is a custom kind; the names are not blank. -/
theorem from_cases (value : String) :
    (value ∉ ProtocolMessageKind.builtinNames ∧ ProtocolMessageKind.from value = .custom value) ∨
    value ∈ ProtocolMessageKind.builtinNames ∧
      (∀ value', ProtocolMessageKind.from value ≠ .custom value') ∧ isBlank value = false := by
  by_cases h : value ∈ ProtocolMessageKind.builtinNames
  · refine .inr ⟨h, ?_⟩
    simp only [ProtocolMessageKind.builtinNames, List.mem_cons, List.not_mem_nil, or_false] at h
    rcases h with rfl | rfl | rfl | rfl | rfl | rfl | rfl | rfl | rfl | rfl | rfl | rfl | rfl <;>
      exact ⟨by simp [ProtocolMessageKind.from], by decide⟩
  · refine .inl ⟨h, ?_⟩
    simp only [ProtocolMessageKind.builtinNames, List.mem_cons, List.not_mem_nil, or_false, not_or] at h
    simp [ProtocolMessageKind.from, h]

/-- Reading a kind's name gives the kind back, except for custom kinds under a built-in name. -/
theorem from_asStr_iff (kind : ProtocolMessageKind) : ProtocolMessageKind.from kind.asStr = kind ↔
    ∀ value, kind = .custom value → value ∉ ProtocolMessageKind.builtinNames := by
  cases kind with
  | custom value =>
    rcases from_cases value with ⟨hnot, hfrom⟩ | ⟨hmem, hfrom, -⟩
    · simp [ProtocolMessageKind.asStr, hfrom, hnot]
    · simp [ProtocolMessageKind.asStr, hfrom, hmem]
  | _ => simp [ProtocolMessageKind.asStr, ProtocolMessageKind.from]

namespace NostrEnvelopeEvent

theorem validateMetadata_eq_ok {event : NostrEnvelopeEvent} {u : Unit} :
    event.validateMetadata = .ok u ↔ event.kind = dkgkitNostrEventKind ∧
      event.app = dkgkitNostrAppTag ∧ isBlank event.sessionId = false ∧ event.sender ≠ 0 ∧
      event.recipient ≠ some 0 ∧ isBlank event.messageKind = false := by
  have hrecipient : (∃ id, event.recipient.mapM ParticipantId.new = .ok id) ↔
      event.recipient ≠ some 0 := by
    cases event.recipient with
    | none => simp [pure, Except.pure]
    | some id => by_cases hid : id = 0 <;> simp [ParticipantId.new, hid, fail, Functor.map, Except.map]
  have hkind : (match ProtocolMessageKind.from event.messageKind with
      | .custom value => if isBlank value then fail .emptyMessageKind else .ok ()
      | _ => .ok () : Result Unit) = .ok u ↔ isBlank event.messageKind = false := by
    rcases from_cases event.messageKind with ⟨-, h⟩ | ⟨-, h, hblank⟩
    · rw [h]
      simp only [ifFail_eq_ok, Bool.not_eq_true, and_true]
    · rw [hblank]
      split
      · next value hvalue => exact absurd hvalue (h value)
      · simp
  unfold validateMetadata
  simp only [ifFail_eq_ok, bind_eq_ok, sessionIdNew_eq_ok, participantIdNew_eq_ok, hkind, ne_eq, not_not]
  constructor
  · rintro ⟨hkind, happ, _, ⟨hsession, -⟩, _, ⟨hsender, -⟩, id, hid, hblank⟩
    exact ⟨hkind, happ, hsession, hsender, hrecipient.mp ⟨id, hid⟩, hblank⟩
  · rintro ⟨hkind, happ, hsession, hsender, hne, hblank⟩
    obtain ⟨id, hid⟩ := hrecipient.mpr hne
    exact ⟨hkind, happ, _, ⟨hsession, rfl⟩, _, ⟨hsender, rfl⟩, id, hid, hblank⟩

theorem toProtocolMessage_eq_ok {wire : Wire} {event : NostrEnvelopeEvent} {message : ProtocolMessage} :
    event.toProtocolMessage wire = .ok message ↔ event.validateMetadata = .ok () ∧
      wire.json.fromSlice (asBytes event.content) = .ok message ∧
      message.sessionId = event.sessionId ∧ message.sender = event.sender ∧
      message.recipient = event.recipient ∧ message.kind.asStr = event.messageKind := by
  unfold toProtocolMessage
  simp only [bind_eq_ok, ProtocolMessage.decodeJson, serialized_eq_ok, ifFail_eq_ok, ne_eq, not_not]
  constructor
  · rintro ⟨_, hvalid, message', hdecode, hsession, hsender, hrecipient, hkind, hmessage⟩
    cases hmessage
    exact ⟨hvalid, hdecode, hsession, hsender, hrecipient, hkind⟩
  · rintro ⟨hvalid, hdecode, hsession, hsender, hrecipient, hkind⟩
    exact ⟨(), hvalid, message, hdecode, hsession, hsender, hrecipient, hkind, rfl⟩

theorem fromProtocolMessage_eq {wire : Wire} {message : ProtocolMessage} {text : String}
    (hwrite : wire.json.toVec message = .ok (asBytes text)) : fromProtocolMessage wire message =
      .ok ⟨dkgkitNostrEventKind, dkgkitNostrAppTag, message.sessionId, message.sender, message.recipient,
        message.kind.asStr, text⟩ := by
  rw [fromProtocolMessage, ProtocolMessage.encodeJson, hwrite, serialized, ok_bind, fromUtf8_asBytes]
  rfl

/-- A published message is stored, and its event gives the message back if it is well formed. -/
theorem fromProtocolMessage_spec {wire : Wire} (hjson : wire.json.RoundTrips)
    (message : ProtocolMessage) : ∃ event, fromProtocolMessage wire message = .ok event ∧
      ∀ message', event.toProtocolMessage wire = .ok message' ↔
        message.WellFormed ∧ message' = message := by
  obtain ⟨text, hwrite, hread⟩ := hjson message
  refine ⟨_, fromProtocolMessage_eq hwrite, fun message' => ?_⟩
  rw [toProtocolMessage_eq_ok, validateMetadata_eq_ok, hread]
  constructor
  · rintro ⟨⟨-, -, hsession, hsender, hrecipient, hkind⟩, hdecode, -⟩
    exact ⟨⟨hsender, hrecipient, hsession, isBlank_asStr.mp hkind⟩, (Except.ok.inj hdecode).symm⟩
  · rintro ⟨hwf, rfl⟩
    exact ⟨⟨rfl, rfl, hwf.sessionId, hwf.sender, hwf.recipient, isBlank_asStr.mpr hwf.kind⟩, rfl, rfl,
      rfl, rfl, rfl⟩

end NostrEnvelopeEvent

end Envelopes

namespace LocalNostrEventTransport

section Drains

variable {σ : Type} {wire : Wire} {sessionId : SessionId} {predicate : Predicate σ}

/-- The messages that the stored events decode to. -/
def Decodes (wire : Wire) (events : List NostrEnvelopeEvent) (messages : List ProtocolMessage) : Prop :=
  List.Forall₂ (fun event message => event.toProtocolMessage wire = .ok message) events messages

theorem exists_decodes {events : List NostrEnvelopeEvent}
    (h : ∀ event ∈ events, ∃ message, event.toProtocolMessage wire = .ok message) :
    ∃ messages, Decodes wire events messages := by
  obtain ⟨messages, hmessages⟩ := exists_collectResults_eq_ok.mpr h
  exact ⟨messages, collectResults_eq_ok.mp hmessages⟩

/-- Where all events decode, the loop is the pass over the messages. -/
theorem drainLoop_of_decodes (sessionId : SessionId) (predicate : Predicate σ)
    {events : List NostrEnvelopeEvent} {messages : List ProtocolMessage}
    (h : Decodes wire events messages) (drained : List ProtocolMessage) (kept : List NostrEnvelopeEvent)
    (s : σ) : ∃ left, drainLoop wire sessionId predicate events drained kept s =
      (.ok (drained ++ (sift (predicate.within sessionId) messages s).1, kept ++ left),
        (sift (predicate.within sessionId) messages s).2.2) ∧
      Decodes wire left (sift (predicate.within sessionId) messages s).2.1 := by
  induction h generalizing drained kept s with
  | nil => exact ⟨[], by simp [drainLoop, sift], .nil⟩
  | @cons event message events messages hevent _ ih =>
    cases hhit : (predicate.within sessionId s message).1 with
    | true =>
      obtain ⟨left, hloop, hleft⟩ :=
        ih (drained ++ [message]) kept (predicate.within sessionId s message).2
      refine ⟨left, ?_, ?_⟩
      · simp [drainLoop, sift, hevent, hhit, hloop]
      · simpa [sift, hhit] using hleft
    | false =>
      obtain ⟨left, hloop, hleft⟩ :=
        ih drained (kept ++ [event]) (predicate.within sessionId s message).2
      refine ⟨event :: left, ?_, ?_⟩
      · simp [drainLoop, sift, hevent, hhit, hloop]
      · have hcons : Decodes wire (event :: left) (message :: _) := .cons hevent hleft
        simpa [sift, hhit] using hcons

/-- An event that does not decode ends the loop with an error. -/
theorem drainLoop_error (sessionId : SessionId) (predicate : Predicate σ)
    {events : List NostrEnvelopeEvent} {event : NostrEnvelopeEvent} (hmem : event ∈ events) (hbad : ∀ message, event.toProtocolMessage wire ≠ .ok message)
    (drained : List ProtocolMessage) (kept : List NostrEnvelopeEvent) (s : σ) :
    ∃ fault, (drainLoop wire sessionId predicate events drained kept s).1 = .error fault := by
  induction events generalizing drained kept s with
  | nil => cases hmem
  | cons first rest ih =>
    cases hfirst : first.toProtocolMessage wire with
    | error fault => exact ⟨fault, by simp [drainLoop, hfirst]⟩
    | ok message =>
      have hrest : event ∈ rest := by
        rcases List.mem_cons.mp hmem with rfl | hrest
        · exact absurd hfirst (hbad message)
        · exact hrest
      cases hhit : (predicate.within sessionId s message).1 with
      | true => simpa [drainLoop, hfirst, hhit] using ih hrest _ _ _
      | false => simpa [drainLoop, hfirst, hhit] using ih hrest _ _ _

theorem drainLoop_kept_subset {events kept : List NostrEnvelopeEvent} {drained : List ProtocolMessage}
    {s s' : σ} {messages : List ProtocolMessage} {left : List NostrEnvelopeEvent}
    (h : drainLoop wire sessionId predicate events drained kept s = (.ok (messages, left), s')) :
    left ⊆ kept ++ events := by
  induction events generalizing drained kept s with
  | nil =>
    simp only [drainLoop, Prod.mk.injEq, Except.ok.injEq] at h
    simp [h.1.2]
  | cons first rest ih =>
    cases hfirst : first.toProtocolMessage wire with
    | error fault => simp [drainLoop, hfirst] at h
    | ok message =>
      cases hhit : (predicate.within sessionId s message).1 with
      | true =>
        simp only [drainLoop, hfirst, hhit, if_pos] at h
        refine List.Subset.trans (ih h) (List.append_subset.mpr ⟨List.subset_append_left _ _, ?_⟩)
        exact List.Subset.trans (List.subset_cons_self _ _) (List.subset_append_right _ _)
      | false =>
        simp only [drainLoop, hfirst, hhit, Bool.false_eq_true, if_false] at h
        simpa using ih h

theorem drainMatching_subset (nostr : LocalNostrEventTransport) (s : σ) :
    (drainMatching wire sessionId predicate nostr s).2.1.events ⊆ nostr.events := by
  rw [drainMatching]
  split
  · next drained kept s' h => simpa using drainLoop_kept_subset h
  · exact List.nil_subset _

end Drains

/-- No drain of this state that ends in an error changes the stored events. -/
def KeepsEvents (wire : Wire) (nostr : LocalNostrEventTransport) : Prop :=
  ∀ (σ : Type) (sessionId : SessionId) (predicate : Predicate σ) (s : σ) (fault : Fault),
    (nostr.drainMatching wire sessionId predicate s).1 = .error fault →
      (nostr.drainMatching wire sessionId predicate s).2.1.events = nostr.events

theorem keepsEvents_iff {wire : Wire} {nostr : LocalNostrEventTransport} : nostr.KeepsEvents wire ↔
    ∀ event ∈ nostr.events, ∃ message, event.toProtocolMessage wire = .ok message := by
  constructor
  · intro h event hmem
    by_contra hbad
    rw [not_exists] at hbad
    obtain ⟨fault, hfault⟩ := drainLoop_error "" (fun (s : Unit) _ => (true, s)) hmem hbad [] [] ()
    have hdrain : nostr.drainMatching wire "" (fun (s : Unit) _ => (true, s)) () =
        (.error fault, { nostr with events := [] }, ()) := by
      rw [drainMatching]
      split
      · next hok => simp [hok] at hfault
      · next herr =>
        rw [herr, Except.error.injEq] at hfault
        rw [hfault]
    have hkeep := h Unit "" _ () fault (by rw [hdrain])
    rw [hdrain] at hkeep
    simp only [← hkeep, List.not_mem_nil] at hmem
  · intro h σ sessionId predicate s fault hfault
    obtain ⟨messages, hdecodes⟩ := exists_decodes h
    obtain ⟨left, hloop, -⟩ := drainLoop_of_decodes sessionId predicate hdecodes [] [] s
    rw [drainMatching, hloop] at hfault
    cases hfault

theorem publish_spec {wire : Wire} (hjson : wire.json.RoundTrips) (message : ProtocolMessage)
    (nostr : LocalNostrEventTransport) : ∃ event,
      nostr.publish wire message = (.ok (), { nostr with events := nostr.events ++ [event] }) ∧
      NostrEnvelopeEvent.fromProtocolMessage wire message = .ok event ∧
      ∀ message', event.toProtocolMessage wire = .ok message' ↔
        message.WellFormed ∧ message' = message := by
  obtain ⟨event, hevent, hdecode⟩ := NostrEnvelopeEvent.fromProtocolMessage_spec hjson message
  exact ⟨event, by rw [publish, hevent], hevent, hdecode⟩

/-- The events in a state of a run were made from messages published in it. -/
theorem run_events_published {σ : Type} {wire : Wire} (calls : List (TransportCall σ)) (s : σ)
    {event : NostrEnvelopeEvent}
    (hmem : event ∈ ((transport wire).run pendingLen calls default s).2.1.events) :
    ∃ message, .publish message ∈ calls ∧
      NostrEnvelopeEvent.fromProtocolMessage wire message = .ok event := by
  refine (transport wire).run_keeps pendingLen (P := fun nostr => ∀ event ∈ nostr.events,
    ∃ message, .publish message ∈ calls ∧
      NostrEnvelopeEvent.fromProtocolMessage wire message = .ok event) calls ?_ default ?_ s event hmem
  · intro call hcall nostr s' h
    cases call with
    | publish message =>
      cases hevent : NostrEnvelopeEvent.fromProtocolMessage wire message with
      | error fault => simpa [Transport.perform, transport, publish, hevent] using h
      | ok stored =>
        intro event' hmem'
        simp only [Transport.perform, transport, publish, hevent, List.mem_append,
          List.mem_singleton] at hmem'
        rcases hmem' with hold | rfl
        · exact h event' hold
        · exact ⟨message, hcall, hevent⟩
    | drainMatching sessionId predicate =>
      intro event' hmem'
      exact h event' (drainMatching_subset nostr _ hmem')
    | drainSession sessionId =>
      intro event' hmem'
      exact h event' (drainMatching_subset nostr _ hmem')
  · intro event' hmem'
    cases hmem'

end LocalNostrEventTransport

open LocalNostrEventTransport

/-- Along a run, no failed drain can lose events exactly as long as the run publishes
well-formed messages only. -/
theorem localNostr_keepsEvents_iff {σ : Type} (wire : Wire) (hjson : wire.json.RoundTrips)
    (calls : List (TransportCall σ)) (s : σ) :
    (∀ k, KeepsEvents wire
      ((LocalNostrEventTransport.transport wire).run pendingLen (calls.take k)
        LocalNostrEventTransport.default s).2.1) ↔
      ∀ message, .publish message ∈ calls → message.WellFormed := by
  constructor
  · intro h message hmem
    obtain ⟨before, after, rfl⟩ := List.append_of_mem hmem
    have hk := h (before ++ [TransportCall.publish message]).length
    rw [List.append_cons before _ after, List.take_left, Transport.run_append] at hk
    obtain ⟨event, hpublish, -, hdecode⟩ := publish_spec hjson message
      ((LocalNostrEventTransport.transport wire).run pendingLen before LocalNostrEventTransport.default s).2.1
    have hlast : event ∈ (publish wire message ((LocalNostrEventTransport.transport wire).run pendingLen
        before LocalNostrEventTransport.default s).2.1).2.events := by
      rw [hpublish]
      exact List.mem_append_right _ (List.mem_singleton_self event)
    obtain ⟨message', hmessage⟩ := keepsEvents_iff.mp hk event hlast
    exact ((hdecode message').mp hmessage).1
  · intro h k
    rw [keepsEvents_iff]
    intro event hmem
    obtain ⟨message, hmessage, hevent⟩ := run_events_published (calls.take k) s hmem
    obtain ⟨event', hevent', hdecode⟩ := NostrEnvelopeEvent.fromProtocolMessage_spec hjson message
    rw [hevent, Except.ok.injEq] at hevent'
    subst hevent'
    exact ⟨message, (hdecode message).mpr ⟨h message (List.mem_of_mem_take hmessage), rfl⟩⟩

section Instances

def helloMessage : ProtocolMessage := .broadcast "vault-1-dkg" 1 .frostDkgRound1 [1]

def helloText : String :=
  "\x7b\"protocol_version\":\"dkgkit/0.1\",\"session_id\":\"vault-1-dkg\",\"sender\":1,\"recipient\":null,\"kind\":\"FrostDkgRound1\",\"payload\":[1]\x7d"

noncomputable def helloWire : Wire where
  json := .ofText (tabledText [(helloMessage, helloText)])
  utf8Error := fun _ => "invalid utf-8 sequence of 1 bytes from index 0"
  hashtag := String.toLower

theorem helloWire_lowersHashtags : helloWire.LowersHashtags := fun _ _ => rfl

theorem helloWire_roundTrips : helloWire.json.RoundTrips :=
  Json.ofText_roundTrips (tabledText_injective (List.nodup_singleton _))

theorem helloWire_writes : helloWire.json.toVec helloMessage = .ok (asBytes helloText) := by
  simp [helloWire, Json.ofText, tabledText]

theorem helloWire_reads : helloWire.json.fromSlice (asBytes helloText) = .ok helloMessage := by
  obtain ⟨text, hwrite, hread⟩ := helloWire_roundTrips helloMessage
  rw [helloWire_writes, Except.ok.injEq] at hwrite
  rwa [hwrite]

theorem helloBroadcast_wellFormed (payload : List UInt8) :
    (ProtocolMessage.broadcast "vault-1-dkg" 1 .frostDkgRound1 payload).WellFormed where
  sender := by simp [ProtocolMessage.broadcast]
  recipient := by simp [ProtocolMessage.broadcast]
  sessionId := (by decide : isBlank "vault-1-dkg" = false)
  kind := by
    intro value h
    cases h

theorem helloMessage_wellFormed : helloMessage.WellFormed := helloBroadcast_wellFormed [1]

end Instances

theorem localNostr_keepsEvents_iff_hello : helloWire.json.RoundTrips ∧ ∀ k, KeepsEvents helloWire
    ((LocalNostrEventTransport.transport helloWire).run pendingLen
      ([.publish helloMessage, .drainSession "vault-1-dkg"].take k) LocalNostrEventTransport.default ()).2.1 := by
  refine ⟨helloWire_roundTrips,
    (localNostr_keepsEvents_iff helloWire helloWire_roundTrips _ ()).mpr fun message hmem => ?_⟩
  have heq : message = helloMessage := by simpa using hmem
  rw [heq]
  exact helloMessage_wellFormed

/-- A message from participant `0` is stored; the next drain, of any session, then wipes
the events of all sessions. -/
theorem localNostr_drain_wipes_events : (∃ wire : Wire, wire.json.RoundTrips) ∧
    ∀ wire : Wire, wire.json.RoundTrips →
      let nostr := ((LocalNostrEventTransport.transport wire).run pendingLen
        [.publish (.broadcast "vault-2-dkg" 0 .frostDkgRound1 []), .publish helloMessage]
        LocalNostrEventTransport.default ()).2.1
      nostr.pendingLen = 2 ∧
      (nostr.drainMatching wire "vault-1-dkg" (fun (s : Unit) _ => (true, s)) ()).1 =
        fail (.invalidParticipantId 0) ∧
      (nostr.drainMatching wire "vault-1-dkg" (fun (s : Unit) _ => (true, s)) ()).2.1.pendingLen = 0 := by
  refine ⟨⟨helloWire, helloWire_roundTrips⟩, fun wire hjson => ?_⟩
  obtain ⟨text, hwrite, -⟩ := hjson (.broadcast "vault-2-dkg" 0 .frostDkgRound1 [])
  obtain ⟨text', hwrite', -⟩ := hjson helloMessage
  have hevent := NostrEnvelopeEvent.fromProtocolMessage_eq hwrite
  have hevent' := NostrEnvelopeEvent.fromProtocolMessage_eq hwrite'
  set event : NostrEnvelopeEvent := ⟨dkgkitNostrEventKind, dkgkitNostrAppTag, _, _, _, _, text⟩
  set event' : NostrEnvelopeEvent := ⟨dkgkitNostrEventKind, dkgkitNostrAppTag, _, _, _, _, text'⟩
  have hnostr : ((LocalNostrEventTransport.transport wire).run pendingLen
      [.publish (.broadcast "vault-2-dkg" 0 .frostDkgRound1 []), .publish helloMessage]
      LocalNostrEventTransport.default ()).2.1 = ⟨false, [event, event']⟩ := by
    simp [Transport.run, Transport.perform, LocalNostrEventTransport.transport, publish, hevent, hevent',
      LocalNostrEventTransport.default]
  have hblank : isBlank "vault-2-dkg" = false := by decide
  have hbad : event.toProtocolMessage wire = fail (.invalidParticipantId 0) := by
    simp [NostrEnvelopeEvent.toProtocolMessage, NostrEnvelopeEvent.validateMetadata, event,
      ProtocolMessage.broadcast, SessionId.new, ParticipantId.new, hblank, fail]
  have hdrain : drainMatching wire "vault-1-dkg" (fun (s : Unit) _ => (true, s))
      ⟨false, [event, event']⟩ () = (fail (.invalidParticipantId 0), ⟨false, []⟩, ()) := by
    simp [drainMatching, drainLoop, hbad, fail]
  rw [hnostr]
  refine ⟨rfl, ?_, ?_⟩
  · rw [hdrain]
  · rw [hdrain]
    rfl

theorem localNostr_simulates_memory {wire : Wire} (hjson : wire.json.RoundTrips) :
    Transport.Simulation (LocalNostrEventTransport.transport wire) MemoryTransport.transport
      LocalNostrEventTransport.pendingLen MemoryTransport.pendingLen ProtocolMessage.WellFormed
      (fun nostr memory => Decodes wire nostr.events memory.messages) where
  pendingLen_eq := fun h => h.length_eq
  publish_eq := by
    intro nostr memory message h hwf
    obtain ⟨event, hpublish, -, hdecode⟩ := publish_spec hjson message nostr
    have hnostr : (LocalNostrEventTransport.transport wire).publish message nostr =
      (.ok (), { nostr with events := nostr.events ++ [event] }) := hpublish
    rw [hnostr]
    exact ⟨rfl, List.rel_append h (.cons ((hdecode message).mpr ⟨hwf, rfl⟩) .nil)⟩
  drain_eq := by
    intro nostr memory σ sessionId predicate s h
    obtain ⟨left, hloop, hleft⟩ := drainLoop_of_decodes sessionId predicate h [] [] s
    have hnostr : (LocalNostrEventTransport.transport wire).drainMatching sessionId predicate nostr s =
        (.ok (sift (predicate.within sessionId) memory.messages s).1, { nostr with events := left },
          (sift (predicate.within sessionId) memory.messages s).2.2) := by
      change LocalNostrEventTransport.drainMatching wire sessionId predicate nostr s = _
      rw [LocalNostrEventTransport.drainMatching, hloop]
      rfl
    have hmemory := MemoryTransport.drainMatching_eq_sift sessionId predicate memory s
    change MemoryTransport.transport.drainMatching sessionId predicate memory s = _ at hmemory
    rw [hnostr, hmemory]
    exact ⟨rfl, rfl, hleft⟩

/-- Over well-formed messages, every run looks the same on the Nostr-shaped transport and
on the memory transport. -/
theorem localNostr_refines_memory {σ : Type} (wire : Wire) (hjson : wire.json.RoundTrips)
    (calls : List (TransportCall σ)) (hcalls : ∀ message, .publish message ∈ calls → message.WellFormed)
    (s : σ) :
    ((LocalNostrEventTransport.transport wire).run LocalNostrEventTransport.pendingLen calls
        LocalNostrEventTransport.default s).1 =
      (MemoryTransport.transport.run MemoryTransport.pendingLen calls MemoryTransport.default s).1 := by
  have hstart : Decodes wire LocalNostrEventTransport.default.events MemoryTransport.default.messages :=
    .nil
  exact (localNostr_simulates_memory hjson).run_eq hcalls hstart s

theorem localNostr_refines_memory_hello :
    ((LocalNostrEventTransport.transport helloWire).run LocalNostrEventTransport.pendingLen
        [.publish helloMessage, .drainMatching "vault-1-dkg" fun count _ => (count = 0, count + 1)]
        LocalNostrEventTransport.default 0).1 =
      (MemoryTransport.transport.run MemoryTransport.pendingLen
        [.publish helloMessage, .drainMatching "vault-1-dkg" fun count _ => (count = 0, count + 1)]
        MemoryTransport.default 0).1 := by
  refine localNostr_refines_memory helloWire helloWire_roundTrips _ (fun message hmem => ?_) 0
  have heq : message = helloMessage := by simpa using hmem
  rw [heq]
  exact helloMessage_wellFormed

section Routing

namespace NostrEnvelopeEvent

/-- Two events with the same routing fields. -/
structure SameRouting (event event' : NostrEnvelopeEvent) : Prop where
  sessionId : event.sessionId = event'.sessionId
  sender : event.sender = event'.sender
  recipient : event.recipient = event'.recipient
  messageKind : event.messageKind = event'.messageKind

/-- The body has a custom kind under a name that is read as a built-in one. -/
def Disguised (wire : Wire) (event : NostrEnvelopeEvent) : Prop :=
  ∃ body value, wire.json.fromSlice (asBytes event.content) = .ok body ∧ body.kind = .custom value ∧
    value ∈ ProtocolMessageKind.builtinNames

theorem not_disguised_iff {wire : Wire} {event : NostrEnvelopeEvent} {message : ProtocolMessage}
    (h : event.toProtocolMessage wire = .ok message) :
    ¬event.Disguised wire ↔ ProtocolMessageKind.from event.messageKind = message.kind := by
  obtain ⟨-, hdecode, -, -, -, hkind⟩ := toProtocolMessage_eq_ok.mp h
  rw [← hkind, from_asStr_iff]
  constructor
  · intro hplain value hvalue hmem
    exact hplain ⟨message, value, hdecode, hvalue, hmem⟩
  · rintro hplain ⟨body, value, hbody, hvalue, hmem⟩
    rw [hdecode, Except.ok.injEq] at hbody
    exact hplain value (hbody ▸ hvalue) hmem

end NostrEnvelopeEvent

open NostrEnvelopeEvent

/-- Events under the same routing fields carry messages of one sender, recipient, session and
kind, the kind that the tag names, exactly if neither body has a custom kind under a
built-in name. -/
theorem routing_determines_kind_iff {wire : Wire} {event event' : NostrEnvelopeEvent}
    {message message' : ProtocolMessage} (hrouting : event.SameRouting event')
    (h : event.toProtocolMessage wire = .ok message)
    (h' : event'.toProtocolMessage wire = .ok message') :
    (message.sessionId = message'.sessionId ∧ message.sender = message'.sender ∧
      message.recipient = message'.recipient ∧ message.kind = message'.kind ∧
      message.kind = ProtocolMessageKind.from event.messageKind) ↔
    ¬event.Disguised wire ∧ ¬event'.Disguised wire := by
  obtain ⟨-, -, hsession, hsender, hrecipient, -⟩ := toProtocolMessage_eq_ok.mp h
  obtain ⟨-, -, hsession', hsender', hrecipient', -⟩ := toProtocolMessage_eq_ok.mp h'
  rw [not_disguised_iff h, not_disguised_iff h', ← hrouting.messageKind]
  constructor
  · rintro ⟨-, -, -, hsame, hkind⟩
    exact ⟨hkind.symm, (hsame.symm.trans hkind).symm⟩
  · rintro ⟨hkind, hkind'⟩
    refine ⟨?_, ?_, ?_, hkind.symm.trans hkind', hkind.symm⟩
    · rw [hsession, hsession', hrouting.sessionId]
    · rw [hsender, hsender', hrouting.sender]
    · rw [hrecipient, hrecipient', hrouting.recipient]

def helloEvent : NostrEnvelopeEvent :=
  ⟨dkgkitNostrEventKind, dkgkitNostrAppTag, "vault-1-dkg", 1, none, "frost_dkg_round1", helloText⟩

theorem helloEvent_decodes {wire : Wire} {text : String} {kind : ProtocolMessageKind}
    (hkind : kind.asStr = "frost_dkg_round1")
    (hread : wire.json.fromSlice (asBytes text) = .ok { helloMessage with kind := kind }) :
    toProtocolMessage wire { helloEvent with content := text } =
      .ok { helloMessage with kind := kind } := by
  have hvalid : helloEvent.validateMetadata = .ok () := by
    rw [validateMetadata_eq_ok]
    exact ⟨rfl, rfl, by decide, by decide, by decide, by decide⟩
  exact toProtocolMessage_eq_ok.mpr ⟨hvalid, hread, rfl, rfl, rfl, hkind⟩

theorem routing_determines_kind_iff_hello :
    helloEvent.toProtocolMessage helloWire = .ok helloMessage ∧
      ¬helloEvent.Disguised helloWire ∧ ¬helloEvent.Disguised helloWire := by
  have hdecode : helloEvent.toProtocolMessage helloWire = .ok helloMessage :=
    @helloEvent_decodes _ _ .frostDkgRound1 rfl helloWire_reads
  exact ⟨hdecode, (routing_determines_kind_iff ⟨rfl, rfl, rfl, rfl⟩ hdecode hdecode).mp
    ⟨rfl, rfl, rfl, rfl, rfl⟩⟩

/-- Under the tag `frost_dkg_round1` there is a body of the kind `FrostDkgRound1` and one of
the kind `Custom("frost_dkg_round1")`, and both are decoded. -/
theorem routing_carries_two_kinds : (∃ wire : Wire, wire.json.RoundTrips) ∧
    ∀ wire : Wire, wire.json.RoundTrips → ∃ (event event' : NostrEnvelopeEvent)
        (message message' : ProtocolMessage), event.SameRouting event' ∧
      event.messageKind = "frost_dkg_round1" ∧ event.toProtocolMessage wire = .ok message ∧
      event'.toProtocolMessage wire = .ok message' ∧ message.kind = .frostDkgRound1 ∧
      message'.kind = .custom "frost_dkg_round1" := by
  refine ⟨⟨helloWire, helloWire_roundTrips⟩, fun wire hjson => ?_⟩
  obtain ⟨text, -, hread⟩ := hjson helloMessage
  obtain ⟨text', -, hread'⟩ := hjson { helloMessage with kind := .custom "frost_dkg_round1" }
  refine ⟨{ helloEvent with content := text }, { helloEvent with content := text' },
    helloMessage, { helloMessage with kind := .custom "frost_dkg_round1" },
    ⟨rfl, rfl, rfl, rfl⟩, rfl, ?_, ?_, rfl, rfl⟩
  · exact @helloEvent_decodes _ _ .frostDkgRound1 rfl hread
  · exact helloEvent_decodes rfl hread'

end Routing

end DkgKit
