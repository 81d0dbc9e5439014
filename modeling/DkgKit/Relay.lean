import DkgKit.BigEndian
import DkgKit.Nostr

/-! Inbound events of the live relay transport. An event states its sender three times: by
the key that signed it, by a routing tag and in the body; the transport compares the last
two. Signatures are checked by the Nostr client before, decryption is a parameter. -/

open BigEndian

namespace DkgKit

section Numbers

inductive ParseIntError
  | empty
  | invalidDigit
  | posOverflow
  deriving DecidableEq

def ParseIntError.toText : ParseIntError → String
  | empty => "cannot parse integer from empty string"
  | invalidDigit => "invalid digit found in string"
  | posOverflow => "number too large to fit in target type"

def parseDigits : List Char → ℕ → Except ParseIntError ℕ
  | [], n => .ok n
  | c :: rest, n =>
    if c.isDigit = false then .error .invalidDigit
    else if 65536 ≤ n * 10 + (c.toNat - '0'.toNat) then .error .posOverflow
    else parseDigits rest (n * 10 + (c.toNat - '0'.toNat))

/-- `str::parse::<u16>`: decimal digits, with an optional plus sign. -/
def parseU16 (text : String) : Except ParseIntError UInt16 :=
  match text.toList with
  | [] => .error .empty
  | ['+'] => .error .invalidDigit
  | ['-'] => .error .invalidDigit
  | '+' :: digits => (parseDigits digits 0).map UInt16.ofNat
  | digits => (parseDigits digits 0).map UInt16.ofNat

end Numbers

section Events

abbrev EventId := Bytes 32

abbrev PublicKey := Bytes 32

/-- A Nostr event whose signature under `pubkey` has been verified. -/
structure Event where
  id : EventId
  pubkey : PublicKey
  tags : List (List String)
  content : String
  deriving DecidableEq

/-- NIP-44 decryption with the receiver's keys and the sender's public key. -/
structure Nip44 (κ : Type) where
  decrypt : κ → PublicKey → String → Except String String

def decryptFrom {κ : Type} (nip44 : Nip44 κ) (receiver : κ) (sender : PublicKey) (ciphertext : String) :
    Result String :=
  match nip44.decrypt receiver sender ciphertext with
  | .ok plaintext => .ok plaintext
  | .error err => fail (.protocol s!"nip44 decrypt failed: {err}")

def tagValue (event : Event) (key : String) : Option String :=
  event.tags.findSome? fun tag =>
    match tag with
    | name :: value :: _ => if name = key then some value else none
    | _ => none

def hasEncryptedMarker (event : Event) : Bool := tagValue event "encrypted" = some "nip44"

/-- The number in a tag; `name` is used in the error text. -/
def parseTag (name value : String) : Result UInt16 :=
  match parseU16 value with
  | .ok number => .ok number
  | .error err => fail (.protocol s!"bad {name} tag: {err.toText}")

def envelopeFromEvent (content : String) (event : Event) : Result NostrEnvelopeEvent := do
  let sessionId ← okOr (.protocol "missing session tag") (tagValue event "session")
  let senderText ← okOr (.protocol "missing sender tag") (tagValue event "sender")
  let sender ← parseTag "sender" senderText
  let recipient ← (tagValue event "recipient").mapM (parseTag "recipient")
  let messageKind ← okOr (.protocol "missing message_kind tag") (tagValue event "message_kind")
  .ok ⟨dkgkitNostrEventKind, (tagValue event "app").getD dkgkitNostrAppTag, sessionId, sender, recipient,
    messageKind, content⟩

structure ParticipantDirectory where
  byParticipant : ParticipantId → Option PublicKey

namespace ParticipantDirectory

def new : ParticipantDirectory := ⟨fun _ => none⟩

def insert (directory : ParticipantDirectory) (id : ParticipantId) (pubkey : PublicKey) :
    ParticipantDirectory :=
  ⟨Function.update directory.byParticipant id (some pubkey)⟩

def get (directory : ParticipantDirectory) (id : ParticipantId) : Option PublicKey :=
  directory.byParticipant id

theorem get_insert_self (directory : ParticipantDirectory) (id : ParticipantId) (pubkey : PublicKey) :
    (directory.insert id pubkey).get id = some pubkey := Function.update_self _ _ _

end ParticipantDirectory

/-- The part of the configuration that inbound events are handled with. -/
structure LiveNostrTransportConfig (κ : Type) where
  selfId : ParticipantId
  keys : κ
  directory : ParticipantDirectory

/-- What the relay thread keeps: the ids of the events seen and the decoded messages. -/
structure Inbox where
  seen : Finset EventId
  inbound : List ProtocolMessage

def Inbox.empty : Inbox := ⟨∅, []⟩

/-- The event's content, decrypted if it is marked as encrypted. -/
def eventContent {κ : Type} (nip44 : Nip44 κ) (keys : κ) (event : Event) : Result String :=
  if hasEncryptedMarker event then decryptFrom nip44 keys event.pubkey event.content
  else .ok event.content

def handleInboundEvent {κ : Type} (wire : Wire) (nip44 : Nip44 κ) (keys : κ) (selfId : ParticipantId)
    (inbox : Inbox) (event : Event) : Inbox :=
  if event.id ∈ inbox.seen then inbox
  else
    let inbox := { inbox with seen := insert event.id inbox.seen }
    if tagValue event "app" ≠ some dkgkitNostrAppTag then inbox
    else if (tagValue event "recipient").any fun recipient => (parseU16 recipient).toOption ≠ some selfId then
      inbox
    else
      match eventContent nip44 keys event with
      | .error _ => inbox
      | .ok content =>
        match envelopeFromEvent content event with
        | .error _ => inbox
        | .ok envelope =>
          match envelope.toProtocolMessage wire with
          | .error _ => inbox
          | .ok message => { inbox with inbound := inbox.inbound ++ [message] }

/-- The inbox after a sequence of events. -/
def handleInboundEvents {κ : Type} (wire : Wire) (nip44 : Nip44 κ) (config : LiveNostrTransportConfig κ)
    (events : List Event) : Inbox :=
  events.foldl (handleInboundEvent wire nip44 config.keys config.selfId) Inbox.empty

end Events

section Acceptance

variable {κ : Type} (wire : Wire) (nip44 : Nip44 κ) (config : LiveNostrTransportConfig κ)

/-- The event's tags and body state the message; nobody else is addressed. -/
structure Accepts (event : Event) (message : ProtocolMessage) : Prop where
  app : tagValue event "app" = some dkgkitNostrAppTag
  session : tagValue event "session" = some message.sessionId
  sender : ∃ text, tagValue event "sender" = some text ∧ parseU16 text = .ok message.sender
  recipient : (tagValue event "recipient" = none ∧ message.recipient = none) ∨
    ∃ text, tagValue event "recipient" = some text ∧ parseU16 text = .ok config.selfId ∧
      message.recipient = some config.selfId
  kind : tagValue event "message_kind" = some message.kind.asStr
  body : ∃ content, wire.json.fromSlice (asBytes content) = .ok message ∧
    if hasEncryptedMarker event then nip44.decrypt config.keys event.pubkey event.content = .ok content
    else content = event.content

/-- The key that signed the event is the one the directory lists for its sender tag. -/
def Event.SignedBySender (event : Event) (directory : ParticipantDirectory) : Prop :=
  ∃ text id, tagValue event "sender" = some text ∧ parseU16 text = .ok id ∧
    directory.get id = some event.pubkey

variable {wire nip44 config}

theorem parseTag_eq_ok {name value : String} {number : UInt16} :
    parseTag name value = .ok number ↔ parseU16 value = .ok number := by
  rw [parseTag]
  cases parseU16 value <;> simp

theorem decryptFrom_eq_ok {receiver : κ} {sender : PublicKey} {ciphertext plaintext : String} :
    decryptFrom nip44 receiver sender ciphertext = .ok plaintext ↔
      nip44.decrypt receiver sender ciphertext = .ok plaintext := by
  rw [decryptFrom]
  cases nip44.decrypt receiver sender ciphertext <;> simp

theorem eventContent_eq_ok {keys : κ} {event : Event} {content : String} :
    eventContent nip44 keys event = .ok content ↔
      if hasEncryptedMarker event then nip44.decrypt keys event.pubkey event.content = .ok content
      else content = event.content := by
  rw [eventContent]
  cases hasEncryptedMarker event <;> simp [decryptFrom_eq_ok, eq_comm]

theorem envelopeFromEvent_eq_ok {content : String} {event : Event} {envelope : NostrEnvelopeEvent}
    (h : envelopeFromEvent content event = .ok envelope) :
    tagValue event "session" = some envelope.sessionId ∧
      (∃ text, tagValue event "sender" = some text ∧ parseU16 text = .ok envelope.sender) ∧
      (tagValue event "recipient").mapM (parseTag "recipient") = .ok envelope.recipient ∧
      tagValue event "message_kind" = some envelope.messageKind ∧ envelope.content = content := by
  simp only [envelopeFromEvent, bind_eq_ok, okOr_eq_ok, parseTag_eq_ok, Except.ok.injEq] at h
  obtain ⟨session, hsession, text, htext, sender, hsender, recipient, hrecipient, kind, hkind, rfl⟩ := h
  exact ⟨hsession, ⟨text, htext, hsender⟩, hrecipient, hkind, rfl⟩

theorem recipientTag_cases {tag : Option String} {recipient : Option UInt16} {selfId : ParticipantId}
    (hskip : (tag.any fun text => (parseU16 text).toOption ≠ some selfId) = false)
    (h : tag.mapM (parseTag "recipient") = .ok recipient) : (tag = none ∧ recipient = none) ∨
      ∃ text, tag = some text ∧ parseU16 text = .ok selfId ∧ recipient = some selfId := by
  cases tag with
  | none =>
    left
    simpa [pure, Except.pure, eq_comm] using h
  | some text =>
    right
    cases hparse : parseU16 text with
    | error err => simp [hparse, Except.toOption] at hskip
    | ok id =>
      have hid : id = selfId := by simpa [hparse, Except.toOption] using hskip
      subst hid
      refine ⟨text, rfl, hparse, ?_⟩
      simpa [parseTag, hparse, Functor.map, Except.map, eq_comm] using h

variable (wire nip44 config)

/-- An event is dropped as a repetition, dropped after a check, or its message is buffered. -/
theorem handleInboundEvent_cases (inbox : Inbox) (event : Event) :
    let inbox' := handleInboundEvent wire nip44 config.keys config.selfId inbox event
    (event.id ∈ inbox.seen ∧ inbox' = inbox) ∨
      (event.id ∉ inbox.seen ∧ inbox' = ⟨insert event.id inbox.seen, inbox.inbound⟩) ∨
      (event.id ∉ inbox.seen ∧ ∃ message, Accepts wire nip44 config event message ∧
        inbox' = ⟨insert event.id inbox.seen, inbox.inbound ++ [message]⟩) := by
  intro inbox'
  by_cases hseen : event.id ∈ inbox.seen
  · exact .inl ⟨hseen, if_pos hseen⟩
  refine .inr ?_
  simp only [inbox', handleInboundEvent, hseen, not_false_eq_true, true_and, if_false]
  by_cases happ : tagValue event "app" = some dkgkitNostrAppTag
  case neg => exact .inl (if_pos happ)
  cases hskip : (tagValue event "recipient").any fun recipient =>
      (parseU16 recipient).toOption ≠ some config.selfId with
  | true => exact .inl (by simp [happ])
  | false =>
    cases hcontent : eventContent nip44 config.keys event with
    | error fault => exact .inl (by simp [happ])
    | ok content =>
      cases henvelope : envelopeFromEvent content event with
      | error fault => exact .inl (by simp [happ, henvelope])
      | ok envelope =>
        cases hmessage : envelope.toProtocolMessage wire with
        | error fault => exact .inl (by simp [happ, henvelope, hmessage])
        | ok message =>
          refine .inr ⟨message, ?_, by simp [happ, henvelope, hmessage]⟩
          obtain ⟨hsession, hsender, hrecipient, hkind, hbody⟩ := envelopeFromEvent_eq_ok henvelope
          obtain ⟨-, hdecode, hs, hid, hr, hk⟩ := NostrEnvelopeEvent.toProtocolMessage_eq_ok.mp hmessage
          rw [← hs] at hsession
          rw [← hid] at hsender
          rw [← hr] at hrecipient
          rw [← hk] at hkind
          rw [hbody] at hdecode
          exact ⟨happ, hsession, hsender, recipientTag_cases hskip hrecipient, hkind, content, hdecode,
            eventContent_eq_ok.mp hcontent⟩

/-- What has been buffered, event by event. -/
theorem foldl_handleInboundEvent (events : List Event) (inbox : Inbox) :
    ∃ accepted : List (Event × ProtocolMessage), (accepted.map Prod.fst).Sublist events ∧
      (accepted.map fun entry => entry.1.id).Nodup ∧ (∀ entry ∈ accepted, entry.1.id ∉ inbox.seen) ∧
      (events.foldl (handleInboundEvent wire nip44 config.keys config.selfId) inbox).inbound =
        inbox.inbound ++ accepted.map Prod.snd ∧
      ∀ entry ∈ accepted, Accepts wire nip44 config entry.1 entry.2 := by
  induction events generalizing inbox with
  | nil => exact ⟨[], by simp⟩
  | cons event rest ih =>
    rw [List.foldl_cons]
    rcases handleInboundEvent_cases wire nip44 config inbox event with
      ⟨hseen, hinbox⟩ | ⟨hseen, hinbox⟩ | ⟨hseen, message, haccepts, hinbox⟩
    · obtain ⟨accepted, hsub, hnodup, hfresh, hinbound, haccepted⟩ := ih inbox
      rw [hinbox]
      exact ⟨accepted, hsub.cons event, hnodup, hfresh, hinbound, haccepted⟩
    · obtain ⟨accepted, hsub, hnodup, hfresh, hinbound, haccepted⟩ :=
        ih ⟨insert event.id inbox.seen, inbox.inbound⟩
      rw [hinbox]
      refine ⟨accepted, hsub.cons event, hnodup, fun entry hentry hmem => ?_, hinbound, haccepted⟩
      exact hfresh entry hentry (Finset.mem_insert_of_mem hmem)
    · obtain ⟨accepted, hsub, hnodup, hfresh, hinbound, haccepted⟩ :=
        ih ⟨insert event.id inbox.seen, inbox.inbound ++ [message]⟩
      rw [hinbox]
      refine ⟨(event, message) :: accepted, hsub.cons_cons event, ?_, ?_, ?_, ?_⟩
      · rw [List.map_cons, List.nodup_cons, List.mem_map]
        refine ⟨?_, hnodup⟩
        rintro ⟨entry, hentry, hid⟩
        exact hfresh entry hentry (hid ▸ Finset.mem_insert_self event.id inbox.seen)
      · rw [List.forall_mem_cons]
        exact ⟨hseen, fun entry hentry hmem => hfresh entry hentry (Finset.mem_insert_of_mem hmem)⟩
      · simpa using hinbound
      · rw [List.forall_mem_cons]
        exact ⟨haccepts, haccepted⟩

end Acceptance

/-- Buffered messages say what the tags of their events say, once per event id. The key that
signed an event is not compared with the directory: a message is its sender's own exactly
when the event was signed with the key listed for the sender tag. -/
theorem relay_binds_tags {κ : Type} (wire : Wire) (nip44 : Nip44 κ) (config : LiveNostrTransportConfig κ)
    (events : List Event) : ∃ accepted : List (Event × ProtocolMessage),
      (accepted.map Prod.fst).Sublist events ∧ (accepted.map fun entry => entry.1.id).Nodup ∧
      (handleInboundEvents wire nip44 config events).inbound = accepted.map Prod.snd ∧
      ∀ entry ∈ accepted, Accepts wire nip44 config entry.1 entry.2 ∧
        (config.directory.get entry.2.sender = some entry.1.pubkey ↔
          entry.1.SignedBySender config.directory) := by
  obtain ⟨accepted, hsub, hnodup, -, hinbound, haccepted⟩ :=
    foldl_handleInboundEvent wire nip44 config events Inbox.empty
  refine ⟨accepted, hsub, hnodup, hinbound, fun entry hentry => ⟨haccepted entry hentry, ?_⟩⟩
  obtain ⟨text, htext, hparse⟩ := (haccepted entry hentry).sender
  constructor
  · intro hkey
    exact ⟨text, entry.2.sender, htext, hparse, hkey⟩
  · rintro ⟨text', id, htext', hparse', hkey⟩
    rw [htext, Option.some_inj] at htext'
    rw [← htext', hparse, Except.ok.injEq] at hparse'
    rwa [hparse']

/-- A stranger's event in the name of participant `1` reaches the buffer of participant `2`. -/
theorem relay_accepts_forged_sender :
    let alice : PublicKey := List.Vector.replicate 32 1
    let mallory : PublicKey := List.Vector.replicate 32 2
    let config : LiveNostrTransportConfig Unit :=
      ⟨2, (), ParticipantDirectory.new.insert 1 alice⟩
    let forged : Event :=
      { id := List.Vector.replicate 32 3
        pubkey := mallory
        tags := [["app", "dkgkit"], ["session", "vault-1-dkg"], ["sender", "1"],
          ["message_kind", "frost_dkg_round1"], ["t", "dkgkit:vault-1"]]
        content := helloText }
    (handleInboundEvents helloWire ⟨fun _ _ _ => .error "invalid mac"⟩ config [forged]).inbound =
        [helloMessage] ∧
      config.directory.get helloMessage.sender ≠ some forged.pubkey := by
  intro alice mallory config forged
  have hcontent : eventContent ⟨fun _ _ _ => .error "invalid mac"⟩ () forged = .ok helloText := rfl
  have henvelope : envelopeFromEvent helloText forged = .ok ⟨dkgkitNostrEventKind, dkgkitNostrAppTag,
      "vault-1-dkg", 1, none, "frost_dkg_round1", helloText⟩ := rfl
  have hmessage : NostrEnvelopeEvent.toProtocolMessage helloWire ⟨dkgkitNostrEventKind, dkgkitNostrAppTag,
      "vault-1-dkg", 1, none, "frost_dkg_round1", helloText⟩ = .ok helloMessage :=
    @helloEvent_decodes _ _ .frostDkgRound1 rfl helloWire_reads
  have happ : tagValue forged "app" = some dkgkitNostrAppTag := rfl
  have hrecipient : tagValue forged "recipient" = none := rfl
  constructor
  · simp [handleInboundEvents, handleInboundEvent, Inbox.empty, happ, hrecipient, config, hcontent,
      henvelope, hmessage]
  · decide

end DkgKit
