import Mathlib.Logic.Relation
import DkgKit.LiveCeremony

/-! Devices at a relay that loses nothing: what one of them publishes, all of them receive. -/

open BigEndian

namespace DkgKit

section Reachability

variable {κ : Type} {setting : LiveSetting κ} {pedPop : SimplePedPop} {receiver : ShareReceiver pedPop}

namespace LiveNetwork

def Moves (setting : LiveSetting κ) (receiver : ShareReceiver pedPop)
    (network network' : LiveNetwork κ) : Prop :=
  ∃ step : NetworkStep pedPop, network' = network.step setting receiver step

abbrev Reaches (setting : LiveSetting κ) (receiver : ShareReceiver pedPop) :=
  Relation.ReflTransGen (Moves setting receiver)

theorem Reaches.exists_run {network : LiveNetwork κ}
    (h : Reaches setting receiver ⟨setting.device, []⟩ network) :
    ∃ steps : List (NetworkStep pedPop), run setting receiver steps = network := by
  induction h with
  | refl => exact ⟨[], rfl⟩
  | tail _ hmove ih =>
    obtain ⟨steps, hsteps⟩ := ih
    obtain ⟨step, hstep⟩ := hmove
    refine ⟨steps ++ [step], ?_⟩
    rw [run, List.foldl_append, hstep, ← hsteps]
    rfl

theorem devices_update_self (network : LiveNetwork κ) (id : ParticipantId) (device : Device κ) :
    (network.update id device).devices id = device := Function.update_self _ _ _

theorem devices_update_of_ne (network : LiveNetwork κ) {id other : ParticipantId} (h : other ≠ id)
    (device : Device κ) : (network.update id device).devices other = network.devices other :=
  Function.update_of_ne h _ _

theorem reaches_advance (setting : LiveSetting κ) (receiver : ShareReceiver pedPop)
    (network : LiveNetwork κ) (id : ParticipantId) (rng : pedPop.Rng) (nonce : Bytes 32) (ack : Ack) :
    Reaches setting receiver network (network.update id
      ((network.devices id).advance (setting.impl nonce ack) setting.json pedPop receiver rng)) :=
  .single ⟨.advance id rng nonce ack, rfl⟩

theorem reaches_iterate (network : LiveNetwork κ) (id : ParticipantId) (rng : pedPop.Rng)
    (nonce : Bytes 32) (ack : Ack) (k : ℕ) : Reaches setting receiver network (network.update id
      ((Device.advance (setting.impl nonce ack) setting.json pedPop receiver rng)^[k]
        (network.devices id))) := by
  induction k with
  | zero =>
    have hsame : network.update id (network.devices id) = network := by
      rw [LiveNetwork.update, Function.update_eq_self]
    rw [Function.iterate_zero_apply, hsame]
  | succ k ih =>
    have hstep := reaches_advance setting receiver (network.update id
      ((Device.advance (setting.impl nonce ack) setting.json pedPop receiver rng)^[k]
        (network.devices id))) id rng nonce ack
    rw [devices_update_self] at hstep
    simp only [LiveNetwork.update, Function.update_idem] at hstep
    rw [Function.iterate_succ_apply']
    exact ih.trans hstep

/-- Several devices change one after the other, each by itself. -/
theorem reaches_each (change : ParticipantId → Device κ → Device κ) {ids : List ParticipantId}
    (hnd : ids.Nodup) (network : LiveNetwork κ)
    (hchange : ∀ network' : LiveNetwork κ, network'.events = network.events → ∀ id ∈ ids,
      network'.devices id = network.devices id →
        Reaches setting receiver network' (network'.update id (change id (network'.devices id)))) :
    ∃ network', Reaches setting receiver network network' ∧ network'.events = network.events ∧
      ∀ id, network'.devices id =
        if id ∈ ids then change id (network.devices id) else network.devices id := by
  induction ids generalizing network with
  | nil => exact ⟨network, .refl, rfl, fun id => rfl⟩
  | cons id rest ih =>
    rw [List.nodup_cons] at hnd
    have hfirst := hchange network rfl id List.mem_cons_self rfl
    have hother : ∀ other ∈ rest, other ≠ id := fun other hmem heq => hnd.1 (heq ▸ hmem)
    obtain ⟨network', hreaches, hevents, hdevices⟩ := ih hnd.2
      (network.update id (change id (network.devices id))) fun network' hevents' other hmem hsame =>
        hchange network' hevents' other (List.mem_cons_of_mem id hmem)
          (hsame.trans (devices_update_of_ne network (hother other hmem) _))
    refine ⟨network', hfirst.trans hreaches, hevents, fun other => ?_⟩
    rw [hdevices other]
    by_cases hself : other = id
    · subst hself
      rw [if_neg hnd.1, if_pos List.mem_cons_self, devices_update_self]
    · rw [devices_update_of_ne network hself]
      simp only [List.mem_cons, hself, false_or]

end LiveNetwork

end Reachability

section Links

/-- The id of the event that is published as number `k`. -/
def eventIdOf (k : ℕ) : EventId := encode 32 k

theorem eventIdOf_ne {j k : ℕ} (hj : j < 256 ^ 32) (hk : k < 256 ^ 32) (hne : j ≠ k) :
    eventIdOf j ≠ eventIdOf k := by
  intro heq
  have hdecode := congrArg decode heq
  rw [eventIdOf, eventIdOf, decode_encode hj, decode_encode hk] at hdecode
  exact hne hdecode

/-- NIP-44 takes the text of the message between any two devices. -/
def LiveSetting.Encrypts {κ : Type} (setting : LiveSetting κ) (message : ProtocolMessage) : Prop :=
  ∀ envelope, NostrEnvelopeEvent.fromProtocolMessage setting.wire message = .ok envelope →
    ∀ sender recipient nonce, ∃ ciphertext, setting.nip44.encrypt (setting.keys sender)
      (setting.nip44.publicKey (setting.keys recipient)) nonce envelope.content = .ok ciphertext

/-- What a ceremony needs to complete: the messages of shares are not too long for NIP-44, and the
directory lists the keys of all parties. -/
structure LiveSetting.Complete {κ : Type} (setting : LiveSetting κ) (pedPop : SimplePedPop) : Prop where
  wire : setting.wire.json.RoundTrips
  round1 : (setting.json .round1).RoundTrips
  round2 : (setting.json .round2).RoundTrips
  nip44 : setting.nip44.Inverts
  encrypts : ∀ (package : Round2Package) share message,
    pedPop.secretShares.serialize share = .ok package.bytes →
    package.toProtocolMessage (setting.json .round2) setting.sessionId = .ok message →
      setting.Encrypts message
  directory : ∀ id ∈ partyIds setting.threshold.participants,
    setting.directory.get id = some (setting.nip44.publicKey (setting.keys id))
  vaultTag : setting.wire.KeepsVaultTag setting.vaultTag
  sessionId : isBlank setting.sessionId = false

variable {κ : Type} {setting : LiveSetting κ} {pedPop : SimplePedPop} {used : ℕ} {id : ParticipantId}
  {inbound : List ProtocolMessage} {link : LiveLink κ} {message : ProtocolMessage} {event : Event}

namespace LiveSetting

/-- A connected link with nothing to send. Its thread has seen none of the event ids from `used`
on. -/
structure LinkAt (setting : LiveSetting κ) (used : ℕ) (id : ParticipantId)
    (inbound : List ProtocolMessage) (link : LiveLink κ) : Prop where
  cfg : link.connections.transport.cfg = setting.transportConfig id
  vaultTag : link.connections.transport.vaultTag = setting.vaultTag
  cmdTx : link.connections.transport.cmdTx = some 0
  inbound : link.connections.transport.inbound = inbound
  outbox : link.outbox = []
  seen : ∃ seen, link.connections.threads 0 = some seen ∧
    ∀ k, used ≤ k → k < 256 ^ 32 → eventIdOf k ∉ seen

/-- The event is for the vault, and the addressees of the message can read it there. -/
def Carries (setting : LiveSetting κ) (event : Event) (message : ProtocolMessage) : Prop :=
  hasHashtag (vaultHashtag setting.vaultTag) event = true ∧
  ∃ envelope encrypted, NostrEnvelopeEvent.fromProtocolMessage setting.wire message = .ok envelope ∧
    TagsOf envelope encrypted event ∧
    ∀ selfId, message.isFor selfId = true →
      eventContent setting.nip44.toNip44 (setting.keys selfId) event = .ok envelope.content

theorem linkAt_connect (setting : LiveSetting κ) (id : ParticipantId) :
    setting.LinkAt 0 id [] { (setting.device id).coordinator.transport with
      connections := (setting.device id).coordinator.transport.connections.connect .ready } where
  cfg := rfl
  vaultTag := rfl
  cmdTx := rfl
  inbound := rfl
  outbox := rfl
  seen := ⟨∅, rfl, fun _ _ _ => Finset.notMem_empty _⟩

/-- A link whose buffer has been read up to some messages. -/
theorem LinkAt.withInbound (h : setting.LinkAt used id inbound link) (inbound' : List ProtocolMessage) :
    setting.LinkAt used id inbound' (link.withTransport
      { link.connections.transport with inbound := inbound' }) where
  cfg := h.cfg
  vaultTag := h.vaultTag
  cmdTx := h.cmdTx
  inbound := rfl
  outbox := h.outbox
  seen := h.seen

theorem LinkAt.mono (h : setting.LinkAt used id inbound link) {used' : ℕ} (hle : used ≤ used') :
    setting.LinkAt used' id inbound link where
  cfg := h.cfg
  vaultTag := h.vaultTag
  cmdTx := h.cmdTx
  inbound := h.inbound
  outbox := h.outbox
  seen := by
    obtain ⟨seen, hthread, hseen⟩ := h.seen
    exact ⟨seen, hthread, fun k hk => hseen k (hle.trans hk)⟩

theorem LinkAt.deliver (h : setting.LinkAt used id inbound link) (hcomplete : setting.Complete pedPop)
    (hused : used < 256 ^ 32) (hcarries : setting.Carries event message)
    (hid : event.id = eventIdOf used) (hwf : message.WellFormed) :
    setting.LinkAt (used + 1) id (inbound ++ if message.isFor id then [message] else [])
      { link with connections :=
        link.connections.deliver setting.wire setting.nip44.toNip44 0 event } := by
  obtain ⟨-, envelope, encrypted, henvelope, htags, hcontent⟩ := hcarries
  obtain ⟨seen, hthread, hseen⟩ := h.seen
  have hnew : event.id ∉ seen := by
    rw [hid]
    exact hseen used le_rfl hused
  have hinbox : handleInboundEvent setting.wire setting.nip44.toNip44 link.connections.transport.cfg.keys
      link.connections.transport.cfg.selfId ⟨seen, link.connections.transport.inbound⟩ event =
        ⟨insert event.id seen, inbound ++ if message.isFor id then [message] else []⟩ := by
    rw [h.cfg, h.inbound]
    exact handleInboundEvent_of_tags hcomplete.wire hwf henvelope htags hnew (hcontent id)
  rw [Connections.deliver, hthread]
  simp only [hinbox]
  have hthreads : Function.update link.connections.threads 0 (some (insert event.id seen)) 0 =
      some (insert event.id seen) := by
    rw [Function.update_self]
  refine ⟨h.cfg, h.vaultTag, h.cmdTx, rfl, h.outbox, insert event.id seen, hthreads, fun k hk hlt hmem => ?_⟩
  rcases Finset.mem_insert.mp hmem with heq | hold
  · rw [hid] at heq
    exact eventIdOf_ne hlt hused (by omega) heq
  · exact hseen k (by omega) hlt hold

theorem impl_publish (nonce : Bytes 32) (ack : Ack) (message : ProtocolMessage) (link : LiveLink κ) :
    (setting.impl nonce ack).publish message link =
      let published := link.connections.transport.publish setting.wire setting.nip44 message nonce ack
      (published.1, { link.withTransport published.2.2 with
        outbox := link.outbox ++ published.2.1.toList }) := rfl

theorem publish_accepted {wire : Wire} {nip44 : Nip44Scheme κ} {transport : LiveNostrTransport κ}
    {thread : ℕ} {nonce : Bytes 32} {command : Command} (hcmdTx : transport.cmdTx = some thread)
    (hcommand : transport.publishCommand wire nip44 message nonce = .ok command) :
    transport.publish wire nip44 message nonce (.answered (.ok ())) = (.ok (), some command,
      { transport with inbound := transport.inbound ++
        if message.isFor transport.cfg.selfId then [message] else [] }) := by
  cases transport with
  | mk cfg vaultTag cmdTx inbound handle connected =>
    obtain rfl : cmdTx = some thread := hcmdTx
    simp only [LiveNostrTransport.publish, hcommand]
    cases message.isFor cfg.selfId <;> simp

theorem LinkAt.publish (h : setting.LinkAt used id inbound link) {nonce : Bytes 32} {command : Command}
    (hcommand : link.connections.transport.publishCommand setting.wire setting.nip44 message nonce =
      .ok command) :
    let published := (setting.impl nonce (.answered (.ok ()))).publish message link
    published.1 = .ok () ∧ published.2.outbox = [command] ∧
      setting.LinkAt used id (inbound ++ if message.isFor id then [message] else [])
        { published.2 with outbox := [] } := by
  have hself : link.connections.transport.cfg.selfId = id := by
    rw [h.cfg]
    rfl
  have hpublish := publish_accepted h.cmdTx hcommand
  rw [hself, h.inbound] at hpublish
  intro published
  have hpublished : published = (.ok (), { link.withTransport { link.connections.transport with
      inbound := inbound ++ if message.isFor id then [message] else [] } with
        outbox := link.outbox ++ [command] }) := by
    have hlink : published = _ := impl_publish nonce (.answered (.ok ())) message link
    rw [hlink, hpublish]
    rfl
  rw [hpublished, h.outbox]
  exact ⟨rfl, rfl, (h.withInbound _).cfg, h.vaultTag, h.cmdTx, rfl, rfl, h.seen⟩

/-- The command of a message to parties or to everyone, and the event that it becomes. -/
theorem exists_command (hcomplete : setting.Complete pedPop)
    (hencrypts : isSecretKind message.kind = true → setting.Encrypts message)
    (hlink : setting.LinkAt used id inbound link) (hrecipient : ∀ recipient,
      message.recipient = some recipient → recipient ∈ partyIds setting.threshold.participants)
    (nonce : Bytes 32) : ∃ content tags,
      link.connections.transport.publishCommand setting.wire setting.nip44 message nonce =
        .ok (.publish content tags) ∧ ∀ eventId, setting.Carries
          (signedEvent setting.nip44 (setting.keys id) eventId content tags) message := by
  have hcfg := hlink.cfg
  have hkeeps : setting.wire.KeepsVaultTag link.connections.transport.vaultTag := by
    rw [hlink.vaultTag]
    exact hcomplete.vaultTag
  obtain ⟨envelope, henvelope, -⟩ := NostrEnvelopeEvent.fromProtocolMessage_spec hcomplete.wire message
  have hdirectory : ∀ recipient, message.recipient = some recipient →
      link.connections.transport.cfg.directory.get recipient =
        some (setting.nip44.publicKey (setting.keys recipient)) := by
    intro recipient hsome
    rw [hcfg]
    exact hcomplete.directory recipient (hrecipient recipient hsome)
  have hkeys : link.connections.transport.cfg.keys = setting.keys id := by
    rw [hcfg]
    rfl
  have hex : ∃ content tags, link.connections.transport.publishCommand setting.wire setting.nip44 message nonce =
      .ok (.publish content tags) := by
    rw [LiveNostrTransport.publishCommand, henvelope, ok_bind]
    cases hsecret : isSecretKind message.kind with
    | false => exact ⟨_, _, rfl⟩
    | true =>
      cases hsome : message.recipient with
      | none => exact ⟨_, _, rfl⟩
      | some recipient =>
        obtain ⟨ciphertext, hciphertext⟩ := hencrypts hsecret envelope henvelope id recipient nonce
        rw [← hkeys] at hciphertext
        simp only [hdirectory recipient hsome, okOr, ok_bind, encryptFor, hciphertext]
        exact ⟨_, _, rfl⟩
  obtain ⟨content, tags, hcommand⟩ := hex
  refine ⟨content, tags, hcommand, fun eventId => ?_⟩
  obtain ⟨envelope', encrypted, henvelope', htags, hcontent⟩ :=
    publishCommand_event hcomplete.nip44 hdirectory hcommand eventId
  have hhashtag := publishCommand_hashtag hcommand hkeeps (setting.keys id) eventId
  rw [hlink.vaultTag] at hhashtag
  rw [hkeys] at htags hcontent
  exact ⟨hhashtag, envelope', encrypted, henvelope', htags, hcontent⟩

end LiveSetting

end Links

section Relaying

variable {κ : Type} {setting : LiveSetting κ} {pedPop : SimplePedPop} {receiver : ShareReceiver pedPop}
  {used : ℕ} {inbox : ParticipantId → List ProtocolMessage} {network : LiveNetwork κ}
  {message : ProtocolMessage} {event : Event}

/-- The device but for its link and its own package. -/
def Device.program (device : Device κ) :
    FrostDkgSession × DevicePhase × List Round1Package × List Round2Package :=
  (device.session, device.phase, device.round1, device.round2)

theorem Device.eq_of_program {device : Device κ} {session : FrostDkgSession} {phase : DevicePhase}
    {round1 : List Round1Package} {round2 : List Round2Package}
    (h : device.program = (session, phase, round1, round2)) :
    ∃ coordinator own, device = ⟨coordinator, session, phase, own, round1, round2⟩ := by
  simp only [Device.program, Prod.mk.injEq] at h
  obtain ⟨rfl, rfl, rfl, rfl⟩ := h
  exact ⟨device.coordinator, device.own, rfl⟩

namespace LiveNetwork

def LinksAt (setting : LiveSetting κ) (used : ℕ) (inbox : ParticipantId → List ProtocolMessage)
    (network : LiveNetwork κ) : Prop :=
  ∀ id ∈ partyIds setting.threshold.participants,
    setting.LinkAt used id (inbox id) (network.devices id).coordinator.transport

/-- The relay hands one event to several devices. -/
theorem reaches_delivered (hcomplete : setting.Complete pedPop) (hused : used < 256 ^ 32)
    (hevent : event ∈ network.events) (hcarries : setting.Carries event message)
    (hid : event.id = eventIdOf used) (hwf : message.WellFormed) {ids : List ParticipantId}
    (hnd : ids.Nodup) (hlinks : ∀ id ∈ ids,
      setting.LinkAt used id (inbox id) (network.devices id).coordinator.transport) :
    ∃ network', Reaches setting receiver network network' ∧
      ∀ id, (network'.devices id).program = (network.devices id).program ∧
        (id ∈ ids → setting.LinkAt (used + 1) id (inbox id ++ if message.isFor id then [message] else [])
          (network'.devices id).coordinator.transport) ∧
        (id ∉ ids → network'.devices id = network.devices id) := by
  let received (_ : ParticipantId) (device : Device κ) : Device κ := { device with
    coordinator := ⟨{ device.coordinator.transport with
      connections := device.coordinator.transport.connections.deliver setting.wire setting.nip44.toNip44
        0 event }⟩ }
  have hchange : ∀ network' : LiveNetwork κ, network'.events = network.events → ∀ id ∈ ids,
      network'.devices id = network.devices id →
        Reaches setting receiver network' (network'.update id (received id (network'.devices id))) := by
    intro network' hevents id hmem hsame
    refine .single ⟨.deliver id 0 event, ?_⟩
    have hlink := hlinks id hmem
    rw [← hsame] at hlink
    dsimp only [LiveNetwork.step]
    rw [hlink.vaultTag, if_pos ⟨hevents ▸ hevent, hcarries.1⟩]
    rfl
  obtain ⟨network', hreaches, -, hdevices⟩ := reaches_each received hnd network hchange
  refine ⟨network', hreaches, fun id => ⟨?_, fun hmem => ?_, fun hmem => ?_⟩⟩
  · rw [hdevices id]
    split_ifs <;> rfl
  · rw [hdevices id, if_pos hmem]
    exact (hlinks id hmem).deliver hcomplete hused hcarries hid hwf
  · rw [hdevices id, if_neg hmem]

/-- What one device publishes, the relay hands to all of them. -/
theorem reaches_published (receiver : ShareReceiver pedPop) (hcomplete : setting.Complete pedPop)
    (hused : used < 256 ^ 32) {sender : ParticipantId}
    (hsender : sender ∈ partyIds setting.threshold.participants)
    (hlinks : LinksAt setting used inbox network) (hwf : message.WellFormed)
    (hencrypts : isSecretKind message.kind = true → setting.Encrypts message)
    (hrecipient : ∀ recipient, message.recipient = some recipient →
      recipient ∈ partyIds setting.threshold.participants) {nonce : Bytes 32} {device : Device κ}
    (hdevice : device.coordinator.transport = ((setting.impl nonce (.answered (.ok ()))).publish message
      (network.devices sender).coordinator.transport).2) :
    ∃ network', Reaches setting receiver (network.update sender device) network' ∧
      LinksAt setting (used + 1) (fun id => inbox id ++ if message.isFor id then [message] else [])
        network' ∧
      ∀ id, (network'.devices id).program = ((network.update sender device).devices id).program := by
  obtain ⟨content, tags, hcommand, hcarries⟩ :=
    LiveSetting.exists_command hcomplete hencrypts (hlinks sender hsender) hrecipient nonce
  obtain ⟨-, houtbox, hlink⟩ := (hlinks sender hsender).publish hcommand
  rw [← hdevice] at houtbox hlink
  let sent : Device κ :=
    { device with coordinator := ⟨{ device.coordinator.transport with outbox := [] }⟩ }
  let event := signedEvent setting.nip44 (setting.keys sender) (eventIdOf used) content tags
  let relayed : LiveNetwork κ := { network.update sender sent with events := network.events ++ [event] }
  have hsend : Reaches setting receiver (network.update sender device) relayed := by
    refine .single ⟨.sendCommand sender (eventIdOf used), ?_⟩
    rw [LiveNetwork.step, LiveNetwork.sendCommand]
    simp only [devices_update_self, houtbox]
    simp only [relayed, LiveNetwork.update, Function.update_idem]
    rfl
  have hsent : relayed.devices sender = sent := devices_update_self network sender sent
  have hother : ∀ id, id ≠ sender → relayed.devices id = network.devices id :=
    fun id hne => devices_update_of_ne network hne sent
  -- publishing has put the sender's own copy into its buffer, so the relay serves the others only
  have hrelayed : ∀ id ∈ (partyIds setting.threshold.participants).filter (· ≠ sender),
      setting.LinkAt used id (inbox id) (relayed.devices id).coordinator.transport := by
    intro id hid
    obtain ⟨hmem, hne⟩ := List.mem_filter.mp hid
    rw [hother id (by simpa using hne)]
    exact hlinks id hmem
  obtain ⟨network', hreaches, hdevices⟩ := reaches_delivered hcomplete hused
    (List.mem_append_right network.events (List.mem_singleton_self event)) (hcarries (eventIdOf used)) rfl
    hwf ((nodup_partyIds _).filter _) hrelayed
  refine ⟨network', hsend.trans hreaches, fun id hmem => ?_, fun id => ?_⟩
  · by_cases hself : id = sender
    · subst hself
      rw [(hdevices id).2.2 (by simp), hsent]
      exact hlink.mono (Nat.le_succ used)
    · exact (hdevices id).2.1 (List.mem_filter.mpr ⟨hmem, by simpa using hself⟩)
  · have hsame := (hdevices id).1
    by_cases hself : id = sender
    · subst hself
      rw [hsent] at hsame
      rw [devices_update_self]
      exact hsame
    · rw [hother id hself] at hsame
      rwa [devices_update_of_ne network hself]

end LiveNetwork

end Relaying

end DkgKit
