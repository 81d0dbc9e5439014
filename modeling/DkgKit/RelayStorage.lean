import DkgKit.LatestByKey
import DkgKit.LiveTransport

/-! What a relay still has for a participant that connects later. Events of the kinds
`30000..39999` replace each other by author, kind and `d` tag, and `30333` is one of them. -/

open BigEndian LatestByKey

namespace DkgKit

section Storage

structure RelayEvent where
  kind : UInt64
  event : Event
  deriving DecidableEq

/-- The value of the first `d` tag; a missing one counts as empty. -/
def dTag (event : Event) : String :=
  match event.tags.find? fun tag => tag.head? == some "d" with
  | some (_ :: value :: _) => value
  | _ => ""

def RelayEvent.address (event : RelayEvent) : PublicKey × UInt64 × String :=
  (event.event.pubkey, event.kind, dTag event.event)

def RelayEvent.isAddressable (event : RelayEvent) : Bool := 30000 ≤ event.kind && event.kind < 40000

/-- The storage rule of NIP-01 for addressable events and for regular ones. -/
def storeEvent (stored : List RelayEvent) (event : RelayEvent) : List RelayEvent :=
  if event.isAddressable then replace RelayEvent.address stored event else stored ++ [event]

/-- The subscription of a transport: the event kind and the topic tag of its vault. -/
def RelayEvent.matchesVault (vaultTag : String) (event : RelayEvent) : Bool :=
  event.kind == dkgkitNostrEventKind && hasHashtag (vaultHashtag vaultTag) event.event

/-- A message that a connected transport of the vault has published, with the event that its
relay thread has signed and sent. -/
structure RelayPublication {κ : Type} (wire : Wire) (nip44 : Nip44Scheme κ) (vaultTag : String) where
  transport : LiveNostrTransport κ
  message : ProtocolMessage
  nonce : Bytes 32
  eventId : EventId
  content : String
  tags : List (List String)
  vault : transport.vaultTag = vaultTag
  published : (transport.publish wire nip44 message nonce (.answered (.ok ()))).2.1 =
    some (.publish content tags)

namespace RelayPublication

variable {κ : Type} {wire : Wire} {nip44 : Nip44Scheme κ} {vaultTag : String}

def event (publication : RelayPublication wire nip44 vaultTag) : Event :=
  signedEvent nip44 publication.transport.cfg.keys publication.eventId publication.content publication.tags

def relayEvent (publication : RelayPublication wire nip44 vaultTag) : RelayEvent :=
  ⟨dkgkitNostrEventKind, publication.event⟩

def author (publication : RelayPublication wire nip44 vaultTag) : PublicKey :=
  nip44.publicKey publication.transport.cfg.keys

def stored (publications : List (RelayPublication wire nip44 vaultTag)) : List RelayEvent :=
  (publications.map relayEvent).foldl storeEvent []

end RelayPublication

end Storage

section Publications

open RelayPublication

variable {κ : Type} {wire : Wire} {nip44 : Nip44Scheme κ} {vaultTag : String}

theorem RelayPublication.command (publication : RelayPublication wire nip44 vaultTag) :
    publication.transport.publishCommand wire nip44 publication.message publication.nonce =
      .ok (.publish publication.content publication.tags) :=
  publish_enqueued publication.published

theorem RelayPublication.exists_tags (publication : RelayPublication wire nip44 vaultTag) : ∃ envelope key,
    NostrEnvelopeEvent.fromProtocolMessage wire publication.message = .ok envelope ∧
      publication.tags = buildEventTags wire envelope vaultTag key ∧
      (publication.message.recipient = none → key = none ∧ publication.content = envelope.content) := by
  obtain ⟨envelope, henvelope, hcases⟩ := publishCommand_cases publication.command
  rw [publication.vault] at hcases
  rcases hcases with ⟨recipient, key, _, -, hrecipient, -, -, heq⟩ | ⟨-, heq⟩
  · refine ⟨envelope, some key, henvelope, (Command.publish.inj heq).2, fun hnone => ?_⟩
    rw [hrecipient] at hnone
    cases hnone
  · exact ⟨envelope, none, henvelope, (Command.publish.inj heq).2, fun _ => ⟨rfl, (Command.publish.inj heq).1⟩⟩

/-- No published event has a `d` tag: all events of one key have one address. -/
theorem RelayPublication.address_eq (publication : RelayPublication wire nip44 vaultTag) :
    publication.relayEvent.address = (publication.author, dkgkitNostrEventKind, "") := by
  obtain ⟨envelope, key, -, htags, -⟩ := publication.exists_tags
  have hd : dTag publication.event = "" := by
    have htags' : publication.event.tags = buildEventTags wire envelope vaultTag key := htags
    rw [dTag, htags']
    cases hrecipient : envelope.recipient <;> cases key <;>
      simp [buildEventTags, NostrEnvelopeEvent.tags, hrecipient]
  rw [RelayEvent.address, relayEvent, hd]
  rfl

/-- The subscriptions of the vault get a published event exactly if its tag has been kept. -/
theorem RelayPublication.matchesVault_relayEvent (publication : RelayPublication wire nip44 vaultTag) :
    publication.relayEvent.matchesVault vaultTag = true ↔ wire.KeepsVaultTag vaultTag := by
  obtain ⟨envelope, key, -, htags, -⟩ := publication.exists_tags
  have htags' : publication.event.tags = buildEventTags wire envelope vaultTag key := htags
  simp only [RelayEvent.matchesVault, relayEvent, hasHashtag_build htags', BEq.rfl, Bool.true_and,
    beq_iff_eq, Wire.KeepsVaultTag]

theorem stored_eq_latest (publications : List (RelayPublication wire nip44 vaultTag)) :
    stored publications = latest RelayEvent.address (publications.map relayEvent) := by
  have hstore : ∀ (l : List RelayEvent) (publication : RelayPublication wire nip44 vaultTag),
      storeEvent l publication.relayEvent = replace RelayEvent.address l publication.relayEvent :=
    fun _ _ => if_pos rfl
  rw [stored, latest, List.foldl_map, List.foldl_map]
  simp only [hstore]

theorem RelayPublication.message_of_accepts (hjson : wire.json.RoundTrips)
    {publication : RelayPublication wire nip44 vaultTag} {receiver : LiveNostrTransportConfig κ}
    {message : ProtocolMessage} (haccepts : Accepts wire nip44.toNip44 receiver publication.event message)
    (hbroadcast : message.recipient = none) :
    publication.message = message ∧ publication.message.recipient = none := by
  obtain ⟨envelope, key, henvelope, htags, hclear⟩ := publication.exists_tags
  obtain ⟨hwrite, hfields⟩ := fromProtocolMessage_eq_ok henvelope
  have hof := @tagsOf_build wire envelope vaultTag key publication.event htags
  have hrecipient : publication.message.recipient = none := by
    have hsame : envelope.recipient = publication.message.recipient :=
      congrArg NostrEnvelopeEvent.recipient hfields
    rcases haccepts.recipient with ⟨htag, -⟩ | ⟨_, -, -, hself⟩
    · rw [hof.recipient, Option.map_eq_none_iff] at htag
      exact hsame.symm.trans htag
    · exact absurd (hbroadcast.symm.trans hself) (by simp)
  obtain ⟨rfl, hcontent⟩ := hclear hrecipient
  obtain ⟨content, hread, hbody⟩ := haccepts.body
  rw [hof.marker] at hbody
  obtain ⟨text, hwrite', hread'⟩ := hjson publication.message
  have hcontent' : content = envelope.content := hbody.trans hcontent
  rw [hwrite, Except.ok.injEq] at hwrite'
  rw [← hwrite', ← hcontent', hread, Except.ok.injEq] at hread'
  exact ⟨hread'.symm, hrecipient⟩

theorem RelayPublication.handle_broadcast (hjson : wire.json.RoundTrips)
    {publication : RelayPublication wire nip44 vaultTag} (hbroadcast : publication.message.recipient = none)
    (hwf : publication.message.WellFormed) (receiver : LiveNostrTransportConfig κ) {inbox : Inbox}
    (hnew : publication.eventId ∉ inbox.seen) :
    publication.message ∈ (handleInboundEvent wire nip44.toNip44 receiver.keys receiver.selfId inbox
      publication.event).inbound := by
  obtain ⟨envelope, key, henvelope, htags, hclear⟩ := publication.exists_tags
  obtain ⟨rfl, hcontent⟩ := hclear hbroadcast
  have hof := @tagsOf_build wire envelope vaultTag none publication.event htags
  have hread : eventContent nip44.toNip44 receiver.keys publication.event = .ok envelope.content := by
    rw [eventContent_eq_ok, hof.marker]
    exact hcontent.symm
  have hfor : publication.message.isFor receiver.selfId = true := by simp [ProtocolMessage.isFor, hbroadcast]
  rw [handleInboundEvent_of_tags hjson hwf henvelope hof hnew fun _ => hread, hfor]
  simp

end Publications

section Handling

variable {κ : Type} {wire : Wire} {nip44 : Nip44 κ} {config : LiveNostrTransportConfig κ}

theorem mem_seen_foldl {events : List Event} {inbox : Inbox} {id : EventId}
    (h : id ∈ (events.foldl (handleInboundEvent wire nip44 config.keys config.selfId) inbox).seen) :
    id ∈ inbox.seen ∨ ∃ event ∈ events, event.id = id := by
  induction events generalizing inbox with
  | nil => exact .inl h
  | cons event rest ih =>
    rcases ih h with hseen | ⟨other, hother, hid⟩
    · rcases handleInboundEvent_cases wire nip44 config inbox event with
        ⟨-, hinbox⟩ | ⟨-, hinbox⟩ | ⟨-, _, -, hinbox⟩
      · exact .inl (hinbox ▸ hseen)
      · rw [hinbox, Finset.mem_insert] at hseen
        exact hseen.symm.imp_right fun hid => ⟨event, List.mem_cons_self, hid.symm⟩
      · rw [hinbox, Finset.mem_insert] at hseen
        exact hseen.symm.imp_right fun hid => ⟨event, List.mem_cons_self, hid.symm⟩
    · exact .inr ⟨other, List.mem_cons_of_mem _ hother, hid⟩

theorem mem_inbound_of_accepts {events : List Event} {message : ProtocolMessage}
    (h : message ∈ (handleInboundEvents wire nip44 config events).inbound) :
    ∃ event ∈ events, Accepts wire nip44 config event message := by
  obtain ⟨accepted, hsub, -, -, hinbound, haccepts⟩ :=
    foldl_handleInboundEvent wire nip44 config events Inbox.empty
  rw [handleInboundEvents, hinbound] at h
  obtain ⟨entry, hentry, rfl⟩ := List.mem_map.mp h
  exact ⟨entry.1, hsub.subset (List.mem_map_of_mem hentry), haccepts entry hentry⟩

/-- Of events with distinct ids, none is dropped as a repetition. -/
theorem mem_inbound_of_mem {events : List Event} (hids : (events.map Event.id).Nodup) {event : Event}
    (hmem : event ∈ events) {message : ProtocolMessage}
    (hhandle : ∀ inbox : Inbox, event.id ∉ inbox.seen →
      message ∈ (handleInboundEvent wire nip44 config.keys config.selfId inbox event).inbound) :
    message ∈ (handleInboundEvents wire nip44 config events).inbound := by
  obtain ⟨before, after, rfl⟩ := List.append_of_mem hmem
  rw [handleInboundEvents, List.foldl_append, List.foldl_cons]
  have hnew : event.id ∉ (before.foldl (handleInboundEvent wire nip44 config.keys config.selfId)
      Inbox.empty).seen := by
    intro hseen
    rcases mem_seen_foldl hseen with hempty | ⟨other, hother, hid⟩
    · exact absurd hempty (Finset.notMem_empty _)
    · rw [List.map_append] at hids
      exact List.disjoint_of_nodup_append hids (List.mem_map_of_mem hother)
        (List.mem_map.mpr ⟨event, List.mem_cons_self, hid.symm⟩)
  obtain ⟨accepted, -, -, -, hinbound, -⟩ := foldl_handleInboundEvent wire nip44 config after
    (handleInboundEvent wire nip44 config.keys config.selfId (before.foldl
      (handleInboundEvent wire nip44 config.keys config.selfId) Inbox.empty) event)
  rw [hinbound]
  exact List.mem_append_left _ (hhandle _ hnew)

end Handling

section Recovery

open RelayPublication

variable {κ : Type} {wire : Wire} {nip44 : Nip44Scheme κ} {vaultTag : String}

def broadcasts (publications : List (RelayPublication wire nip44 vaultTag)) : List ProtocolMessage :=
  (publications.filter fun publication => publication.message.recipient.isNone).map RelayPublication.message

theorem nodup_relayEvents {publications : List (RelayPublication wire nip44 vaultTag)}
    (hids : (publications.map RelayPublication.eventId).Nodup) :
    ((publications.map relayEvent).map fun event => event.event.id).Nodup := by
  rwa [List.map_map]

theorem relayEvent_mem_stored_iff {publications before after : List (RelayPublication wire nip44 vaultTag)}
    {publication : RelayPublication wire nip44 vaultTag}
    (hids : (publications.map RelayPublication.eventId).Nodup)
    (hsplit : publications = before ++ publication :: after) :
    publication.relayEvent ∈ stored publications ↔ ∀ later ∈ after, later.author ≠ publication.author := by
  have hnd : (publications.map relayEvent).Nodup := (nodup_relayEvents hids).of_map _
  rw [hsplit, List.map_append, List.map_cons] at hnd
  rw [stored_eq_latest, hsplit, List.map_append, List.map_cons, mem_latest_iff RelayEvent.address hnd,
    List.forall_mem_map]
  simp [RelayPublication.address_eq]

/-- A broadcast is in the buffer exactly if the relay still has its event and hands it on. -/
theorem broadcast_recovered_iff (hjson : wire.json.RoundTrips)
    {publications : List (RelayPublication wire nip44 vaultTag)}
    (hids : (publications.map RelayPublication.eventId).Nodup) (hdistinct : (broadcasts publications).Nodup)
    {publication : RelayPublication wire nip44 vaultTag} (hmem : publication ∈ publications)
    (hbroadcast : publication.message.recipient = none) (hwf : publication.message.WellFormed)
    (receiver : LiveNostrTransportConfig κ) {answer : List RelayEvent}
    (hanswer : answer.Perm ((stored publications).filter (RelayEvent.matchesVault vaultTag))) :
    publication.message ∈
        (handleInboundEvents wire nip44.toNip44 receiver (answer.map RelayEvent.event)).inbound ↔
      wire.KeepsVaultTag vaultTag ∧ publication.relayEvent ∈ stored publications := by
  have hstored : (stored publications).Sublist (publications.map relayEvent) := by
    rw [stored_eq_latest]
    exact latest_sublist _ _
  constructor
  · intro h
    obtain ⟨event, hevent, haccepts⟩ := mem_inbound_of_accepts h
    obtain ⟨sent, hsent, rfl⟩ := List.mem_map.mp hevent
    obtain ⟨hsent', hmatch⟩ := List.mem_filter.mp (hanswer.mem_iff.mp hsent)
    obtain ⟨other, hother, rfl⟩ := List.mem_map.mp (hstored.subset hsent')
    obtain ⟨hmessage, hrecipient⟩ := message_of_accepts hjson haccepts hbroadcast
    have hsame : other = publication := List.inj_on_of_nodup_map hdistinct
      (List.mem_filter.mpr ⟨hother, by simp [hrecipient]⟩)
      (List.mem_filter.mpr ⟨hmem, by simp [hbroadcast]⟩) hmessage
    rw [← hsame]
    exact ⟨other.matchesVault_relayEvent.mp hmatch, hsent'⟩
  · rintro ⟨hkeeps, h⟩
    have hmatch := hanswer.mem_iff.mpr
      (List.mem_filter.mpr ⟨h, publication.matchesVault_relayEvent.mpr hkeeps⟩)
    have hnd : ((answer.map RelayEvent.event).map Event.id).Nodup := by
      rw [List.map_map, (hanswer.map _).nodup_iff]
      exact ((List.filter_sublist.trans hstored).map _).nodup (nodup_relayEvents hids)
    exact mem_inbound_of_mem hnd (List.mem_map_of_mem hmatch)
      fun inbox hnew => publication.handle_broadcast hjson hbroadcast hwf receiver hnew

end Recovery

section Instances

open RelayPublication

/-- Broadcasts of participant `1` in a vault, with event ids of their own. -/
theorem exists_plainPublication (vaultTag : String) (payload : List UInt8) (eventId : EventId) :
    ∃ publication : RelayPublication helloWire plainNip44 vaultTag,
      publication.transport = { plainTransport with vaultTag := vaultTag } ∧
      publication.message = .broadcast "vault-1-dkg" 1 .frostDkgRound1 payload ∧
      publication.eventId = eventId := by
  obtain ⟨text, hwrite, -⟩ :=
    helloWire_roundTrips (ProtocolMessage.broadcast "vault-1-dkg" 1 .frostDkgRound1 payload)
  have hcommand : { plainTransport with vaultTag := vaultTag }.publishCommand helloWire plainNip44
      (.broadcast "vault-1-dkg" 1 .frostDkgRound1 payload) (List.Vector.replicate 32 0) =
        .ok (.publish text
          (buildEventTags helloWire { helloEvent with content := text } vaultTag none)) := by
    rw [LiveNostrTransport.publishCommand, NostrEnvelopeEvent.fromProtocolMessage_eq hwrite]
    rfl
  exact ⟨⟨{ plainTransport with vaultTag := vaultTag }, _, _, eventId, _, _, rfl,
    publish_answered plainTransport_cmdTx hcommand⟩, rfl, rfl, rfl⟩

end Instances

/-- A participant that connects later recovers all broadcasts of the others exactly if the tag of
the vault is kept and each of them is the last event that its key has published. -/
theorem offline_broadcasts_recovered_iff {κ : Type} (wire : Wire) (hjson : wire.json.RoundTrips)
    (hlowers : wire.LowersHashtags) (nip44 : Nip44Scheme κ) (vaultTag : String)
    (publications : List (RelayPublication wire nip44 vaultTag))
    (hids : (publications.map RelayPublication.eventId).Nodup) (hdistinct : (broadcasts publications).Nodup)
    (receiver : LiveNostrTransportConfig κ) (answer : List RelayEvent)
    (hanswer : answer.Perm
      ((RelayPublication.stored publications).filter (RelayEvent.matchesVault vaultTag))) :
    ((∀ publication ∈ publications, publication.message.recipient = none →
      publication.message.WellFormed → publication.transport.cfg.selfId ≠ receiver.selfId →
      publication.message ∈
        (handleInboundEvents wire nip44.toNip44 receiver (answer.map RelayEvent.event)).inbound) ↔
    ∀ before publication after, publications = before ++ publication :: after →
      publication.message.recipient = none → publication.message.WellFormed →
      publication.transport.cfg.selfId ≠ receiver.selfId →
      wire.KeepsVaultTag vaultTag ∧ ∀ later ∈ after, later.author ≠ publication.author) ∧
    ((∀ c ∈ vaultTag.toList, c.toNat < 128) →
      (wire.KeepsVaultTag vaultTag ↔ ∀ c ∈ vaultTag.toList, c.isUpper = false)) := by
  refine ⟨⟨fun h before publication after hsplit hbroadcast hwf hother => ?_,
    fun h publication hmem hbroadcast hwf hother => ?_⟩, keepsVaultTag_iff hlowers⟩
  · have hmem : publication ∈ publications := by simp [hsplit]
    rw [← relayEvent_mem_stored_iff hids hsplit,
      ← broadcast_recovered_iff hjson hids hdistinct hmem hbroadcast hwf receiver hanswer]
    exact h publication hmem hbroadcast hwf hother
  · obtain ⟨before, after, hsplit⟩ := List.append_of_mem hmem
    rw [broadcast_recovered_iff hjson hids hdistinct hmem hbroadcast hwf receiver hanswer,
      relayEvent_mem_stored_iff hids hsplit]
    exact h before publication after hsplit hbroadcast hwf hother

theorem offline_broadcasts_recovered_iff_single :
    ∃ publication : RelayPublication helloWire plainNip44 "vault-1", publication.message = helloMessage ∧
      publication.message ∈ (handleInboundEvents helloWire plainNip44.toNip44
        ⟨2, plainKey 2, ParticipantDirectory.new⟩ (((RelayPublication.stored [publication]).filter
          (RelayEvent.matchesVault "vault-1")).map RelayEvent.event)).inbound := by
  obtain ⟨publication, htransport, hmessage, -⟩ :=
    exists_plainPublication "vault-1" [1] (List.Vector.replicate 32 1)
  obtain ⟨hrecovered, hkeeps⟩ := offline_broadcasts_recovered_iff helloWire helloWire_roundTrips
    helloWire_lowersHashtags plainNip44 "vault-1" [publication] (List.nodup_singleton _)
    (by simp [broadcasts, hmessage, ProtocolMessage.broadcast]) ⟨2, plainKey 2, ParticipantDirectory.new⟩
    _ (List.Perm.refl _)
  have hlast : ∀ before last after, [publication] = before ++ last :: after → last.message.recipient = none →
      last.message.WellFormed → last.transport.cfg.selfId ≠ 2 →
      helloWire.KeepsVaultTag "vault-1" ∧ ∀ later ∈ after, later.author ≠ last.author := by
    intro before last after hsplit _ _ _
    refine ⟨(hkeeps (by simp)).mpr (by simp), fun later hlater => ?_⟩
    have hlen := congrArg List.length hsplit
    simp only [List.length_append, List.length_cons, List.length_nil] at hlen
    rw [List.eq_nil_of_length_eq_zero (by omega : after.length = 0)] at hlater
    cases hlater
  refine ⟨publication, hmessage, hrecovered.mpr hlast publication List.mem_cons_self ?_ ?_ ?_⟩
  · rw [hmessage]
    rfl
  · rw [hmessage]
    exact helloBroadcast_wellFormed [1]
  · rw [htransport]
    decide

/-- Participant `1` publishes two broadcasts, and the first is gone when participant `2` connects;
in a vault with an upper-case letter in its tag, already a single broadcast does not arrive. -/
theorem offline_broadcasts_lost :
    (∃ first second : RelayPublication helloWire plainNip44 "vault-1",
      first.transport = plainTransport ∧ second.transport = plainTransport ∧
      first.message = helloMessage ∧
      second.message = .broadcast "vault-1-dkg" 1 .frostDkgRound1 [2] ∧
      first.message.WellFormed ∧ first.eventId ≠ second.eventId ∧
      first.message ∉ (handleInboundEvents helloWire plainNip44.toNip44
        ⟨2, plainKey 2, ParticipantDirectory.new⟩ (((RelayPublication.stored [first, second]).filter
          (RelayEvent.matchesVault "vault-1")).map RelayEvent.event)).inbound) ∧
    ∃ publication : RelayPublication helloWire plainNip44 "Vault-U",
      publication.message = helloMessage ∧ publication.message.WellFormed ∧
      publication.transport.cfg.selfId = 1 ∧
      publication.message ∉ (handleInboundEvents helloWire plainNip44.toNip44
        ⟨2, plainKey 2, ParticipantDirectory.new⟩ (((RelayPublication.stored [publication]).filter
          (RelayEvent.matchesVault "Vault-U")).map RelayEvent.event)).inbound := by
  constructor
  · obtain ⟨first, htransport, hmessage, hid⟩ :=
      exists_plainPublication "vault-1" [1] (List.Vector.replicate 32 1)
    obtain ⟨second, htransport', hmessage', hid'⟩ :=
      exists_plainPublication "vault-1" [2] (List.Vector.replicate 32 2)
    have hne : first.eventId ≠ second.eventId := by
      rw [hid, hid']
      decide
    have hwf : first.message.WellFormed := hmessage ▸ helloBroadcast_wellFormed [1]
    have hids : ([first, second].map RelayPublication.eventId).Nodup := by simpa using hne
    refine ⟨first, second, htransport, htransport', hmessage, hmessage', hwf, hne, ?_⟩
    rw [broadcast_recovered_iff helloWire_roundTrips hids ?_ List.mem_cons_self ?_ hwf _ (List.Perm.refl _),
      @relayEvent_mem_stored_iff _ _ _ _ _ [] [second] first hids rfl]
    · simp [RelayPublication.author, htransport, htransport']
    · simp [broadcasts, hmessage, hmessage', ProtocolMessage.broadcast]
    · rw [hmessage]
      rfl
  · obtain ⟨publication, htransport, hmessage, -⟩ :=
      exists_plainPublication "Vault-U" [1] (List.Vector.replicate 32 1)
    have hwf : publication.message.WellFormed := hmessage ▸ helloBroadcast_wellFormed [1]
    have hchanged : ¬helloWire.KeepsVaultTag "Vault-U" := by
      rw [keepsVaultTag_iff helloWire_lowersHashtags (by simp)]
      simp
    have hids : ([publication].map RelayPublication.eventId).Nodup := List.nodup_singleton _
    refine ⟨publication, hmessage, hwf, by rw [htransport]; rfl, ?_⟩
    rw [broadcast_recovered_iff helloWire_roundTrips hids ?_ List.mem_cons_self ?_ hwf _ (List.Perm.refl _)]
    · exact fun h => hchanged h.1
    · simp [broadcasts, hmessage, ProtocolMessage.broadcast]
    · rw [hmessage]
      rfl

end DkgKit
