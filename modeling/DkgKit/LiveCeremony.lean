import DkgKit.Coordinator
import DkgKit.LiveConnections
import DkgKit.LocalCeremony

/-! The FROST key generation of devices that share nothing but a relay. Every device runs its own
session over its own live transport; the relay delivers what the devices have published, in any
order, any number of times or never. -/

open BigEndian LoopRules SelectiveQueue

namespace DkgKit

open FrostCoordinator

section Devices

/-- A device's transport with its relay threads, and the commands on their way to them. -/
structure LiveLink (κ : Type) where
  connections : Connections κ
  outbox : List Command

namespace LiveLink

variable {κ : Type}

def withTransport (link : LiveLink κ) (transport : LiveNostrTransport κ) : LiveLink κ :=
  { link with connections := { link.connections with transport := transport } }

/-- The live transport. From outside come the report of a new relay thread, the nonce of an
encryption and what becomes of a command. -/
def transport (wire : Wire) (nip44 : Nip44Scheme κ) (report : Ready) (nonce : Bytes 32) (ack : Ack) :
    Transport (LiveLink κ) where
  connect := fun link => ((link.connections.transport.connect link.connections.spawned report).1,
    { link with connections := link.connections.connect report })
  disconnect := fun link => (link.connections.transport.disconnect.1,
    { link with connections := link.connections.disconnect })
  publish := fun message link =>
    let (result, command, transport) := link.connections.transport.publish wire nip44 message nonce ack
    (result, { link.withTransport transport with outbox := link.outbox ++ command.toList })
  drainMatching := fun sessionId predicate link s =>
    let (result, transport, s) := link.connections.transport.drainMatching sessionId predicate s
    (result, link.withTransport transport, s)

end LiveLink

inductive DevicePhase
  | ready
  | collecting
  | sending (packages : List Round2Package)
  | receiving
  | finished (share : LocalKeyShare)
  | stopped

/-- A device: its own package once it has drawn it, and what it has collected of the others. -/
structure Device (κ : Type) where
  coordinator : FrostCoordinator (LiveLink κ)
  session : FrostDkgSession
  phase : DevicePhase
  own : Option Round1Package
  round1 : List Round1Package
  round2 : List Round2Package

namespace Device

variable {κ : Type} (impl : Transport (LiveLink κ)) (json : PackageCodecs) (pedPop : SimplePedPop)
  (receiver : ShareReceiver pedPop)

def start (rng : pedPop.Rng) (device : Device κ) : Device κ :=
  match device.session.round1 pedPop rng with
  | (.error _, session) => { device with session := session, phase := .stopped }
  | (.ok package, session) =>
    let (result, coordinator) := publishRound1 impl json device.session.config.sessionId package
      device.coordinator
    { device with
      coordinator := coordinator
      session := session
      own := some package
      phase := match result with
        | .ok () => .collecting
        | .error _ => .stopped }

/-- `collect` while packages are missing, then the second round with what has been collected. -/
def collect (device : Device κ) : Device κ :=
  let want := device.session.config.threshold.participants.toNat
  if device.round1.length < want then
    match drainRound1 impl json device.session.config.sessionId device.coordinator with
    | (.error _, coordinator) => { device with coordinator := coordinator, phase := .stopped }
    | (.ok packages, coordinator) =>
      { device with coordinator := coordinator, round1 := device.round1 ++ packages }
  else if device.round1.length = want then
    match device.session.round2 pedPop device.round1 with
    | (.error _, session) => { device with session := session, phase := .stopped }
    | (.ok packages, session) => { device with session := session, phase := .sending packages }
  else { device with phase := .stopped }

def send (package : Round2Package) (rest : List Round2Package) (device : Device κ) : Device κ :=
  let (result, coordinator) := publishRound2 impl json device.session.config.sessionId package
    device.coordinator
  { device with
    coordinator := coordinator
    phase := match result with
      | .ok () => .sending rest
      | .error _ => .stopped }

def receive (device : Device κ) : Device κ :=
  let want := device.session.config.threshold.participants.toNat
  if device.round2.length < want then
    match drainRound2For impl json device.session.config.sessionId device.session.config.participantId
      device.coordinator with
    | (.error _, coordinator) => { device with coordinator := coordinator, phase := .stopped }
    | (.ok packages, coordinator) =>
      { device with coordinator := coordinator, round2 := device.round2 ++ packages }
  else if device.round2.length = want then
    match device.session.finalize pedPop receiver device.round2 with
    | .error _ => { device with phase := .stopped }
    | .ok share => { device with phase := .finished share }
  else { device with phase := .stopped }

/-- The next action of a device's program. -/
def advance (rng : pedPop.Rng) (device : Device κ) : Device κ :=
  match device.phase with
  | .ready => device.start impl json pedPop rng
  | .collecting => device.collect impl json pedPop
  | .sending (package :: rest) => device.send impl json package rest
  | .sending [] => { device with phase := .receiving }
  | .receiving => device.receive impl json pedPop receiver
  | .finished _ => device
  | .stopped => device

end Device

end Devices

section Networks

/-- What all devices have agreed on, and their Nostr identities. -/
structure LiveSetting (κ : Type) where
  wire : Wire
  nip44 : Nip44Scheme κ
  json : PackageCodecs
  sessionId : SessionId
  threshold : ThresholdConfig
  keys : ParticipantId → κ
  directory : ParticipantDirectory
  vaultTag : String

/-- The devices and the events that have reached the relay. -/
structure LiveNetwork (κ : Type) where
  devices : ParticipantId → Device κ
  events : List Event

/-- One step of one device, of one of its relay threads, or of the relay. -/
inductive NetworkStep (pedPop : SimplePedPop)
  | advance (id : ParticipantId) (rng : pedPop.Rng) (nonce : Bytes 32) (ack : Ack)
  | giveUp (id : ParticipantId)
  | connect (id : ParticipantId) (report : Ready)
  | disconnect (id : ParticipantId)
  | stop (id : ParticipantId) (thread : ℕ)
  | sendCommand (id : ParticipantId) (eventId : EventId)
  | deliver (id : ParticipantId) (thread : ℕ) (event : Event)

namespace LiveSetting

variable {κ : Type} (setting : LiveSetting κ) (pedPop : SimplePedPop) (receiver : ShareReceiver pedPop)

def transportConfig (id : ParticipantId) : LiveNostrTransportConfig κ :=
  ⟨id, setting.keys id, setting.directory⟩

def dkgConfig (id : ParticipantId) : DkgSessionConfig := ⟨setting.sessionId, setting.threshold, id⟩

def device (id : ParticipantId) : Device κ :=
  ⟨⟨⟨Connections.new (setting.transportConfig id) setting.vaultTag, []⟩⟩,
    FrostDkgSession.new (setting.dkgConfig id), .ready, none, [], []⟩

def impl (nonce : Bytes 32) (ack : Ack) : Transport (LiveLink κ) :=
  LiveLink.transport setting.wire setting.nip44 .ready nonce ack

end LiveSetting

namespace LiveNetwork

variable {κ : Type} (setting : LiveSetting κ) {pedPop : SimplePedPop} (receiver : ShareReceiver pedPop)

def update (network : LiveNetwork κ) (id : ParticipantId) (device : Device κ) : LiveNetwork κ :=
  { network with devices := Function.update network.devices id device }

/-- A change of a device's connections. -/
def reconnect (network : LiveNetwork κ) (id : ParticipantId)
    (change : Connections κ → Connections κ) : LiveNetwork κ :=
  let device := network.devices id
  let link := device.coordinator.transport
  network.update id { device with coordinator := ⟨{ link with connections := change link.connections }⟩ }

/-- A relay thread signs the next command of its device and hands the event to the relay. -/
def sendCommand (network : LiveNetwork κ) (id : ParticipantId) (eventId : EventId) : LiveNetwork κ :=
  let device := network.devices id
  match device.coordinator.transport.outbox with
  | .publish content tags :: rest =>
    { network.update id { device with
        coordinator := ⟨{ device.coordinator.transport with outbox := rest }⟩ } with
      events := network.events ++ [signedEvent setting.nip44 (setting.keys id) eventId content tags] }
  | _ => network

def step (network : LiveNetwork κ) : NetworkStep pedPop → LiveNetwork κ
  | .advance id rng nonce ack => network.update id
      ((network.devices id).advance (setting.impl nonce ack) setting.json pedPop receiver rng)
  | .giveUp id => network.update id { network.devices id with phase := .stopped }
  | .connect id report => network.reconnect id fun connections => connections.connect report
  | .disconnect id => network.reconnect id Connections.disconnect
  | .stop id thread => network.reconnect id fun connections =>
      { connections with threads := Function.update connections.threads thread none }
  | .sendCommand id eventId => network.sendCommand setting id eventId
  | .deliver id thread event =>
    -- the thread has subscribed to the hashtag of its vault
    let vaultTag := (network.devices id).coordinator.transport.connections.transport.vaultTag
    if event ∈ network.events ∧ hasHashtag (vaultHashtag vaultTag) event then
      network.reconnect id fun connections =>
        connections.deliver setting.wire setting.nip44.toNip44 thread event
    else network

def run (steps : List (NetworkStep pedPop)) : LiveNetwork κ :=
  steps.foldl (step setting receiver) ⟨setting.device, []⟩

end LiveNetwork

end Networks

section Messages

variable {κ : Type}

/-- What the parties assume of the codecs, of NIP-44 and of the directory. -/
structure LiveSetting.Sound (setting : LiveSetting κ) : Prop where
  wire : setting.wire.json.RoundTrips
  round1 : (setting.json .round1).RoundTrips
  nip44 : setting.nip44.Inverts
  directory : ∀ id key, setting.directory.get id = some key →
    key = setting.nip44.publicKey (setting.keys id)

/-- Whoever accepts the event of a published message accepts that message and no other. -/
theorem accepts_published {wire : Wire} {nip44 : Nip44Scheme κ} {keysOf : ParticipantId → κ}
    {transport : LiveNostrTransport κ} {config : LiveNostrTransportConfig κ}
    {message received : ProtocolMessage} {nonce : Bytes 32} {id : EventId} {content : String}
    {tags : List (List String)} (hjson : wire.json.RoundTrips) (hinverts : nip44.Inverts)
    (hdirectory : ∀ recipient key, transport.cfg.directory.get recipient = some key →
      key = nip44.publicKey (keysOf recipient))
    (hkeys : config.keys = keysOf config.selfId)
    (hcommand : transport.publishCommand wire nip44 message nonce = .ok (.publish content tags))
    (haccepts : Accepts wire nip44.toNip44 config
      (signedEvent nip44 transport.cfg.keys id content tags) received) : received = message := by
  obtain ⟨envelope, henvelope, hcases⟩ := publishCommand_cases hcommand
  obtain ⟨hwrite, hfields⟩ := fromProtocolMessage_eq_ok henvelope
  have hread : wire.json.fromSlice (asBytes envelope.content) = .ok message := by
    obtain ⟨text, hwrite', hread⟩ := hjson message
    rw [hwrite, Except.ok.injEq] at hwrite'
    rwa [hwrite']
  have hrecipient : envelope.recipient = message.recipient :=
    congrArg NostrEnvelopeEvent.recipient hfields
  obtain ⟨text, hbody, htext⟩ := haccepts.body
  have hsame : text = envelope.content → received = message := by
    intro heq
    rw [heq, hread] at hbody
    exact (Except.ok.inj hbody).symm
  rcases hcases with ⟨recipient, key, ciphertext, -, haddressed, hkey, hencrypt, heq⟩ | ⟨-, heq⟩
  · obtain ⟨rfl, htags⟩ := Command.publish.inj heq
    have hof := @tagsOf_build wire envelope transport.vaultTag (some key)
      (signedEvent nip44 transport.cfg.keys id content tags) htags
    -- the recipient tag names the device that accepts the event
    have hself : recipient = config.selfId := by
      have htag := hof.recipient
      rw [hrecipient, haddressed, Option.map_some] at htag
      rcases haccepts.recipient with ⟨hnone, -⟩ | ⟨number, hnumber, hparse, -⟩
      · rw [htag] at hnone
        cases hnone
      · rw [htag, Option.some_inj] at hnumber
        rw [← hnumber, parseU16_toString] at hparse
        exact Except.ok.inj hparse
    rw [hof.marker, Option.isSome_some, if_pos rfl] at htext
    have hdecrypt : nip44.decrypt (keysOf recipient) (nip44.publicKey transport.cfg.keys) content =
        .ok envelope.content := by
      rw [hdirectory recipient key hkey] at hencrypt
      exact hinverts _ _ _ _ _ hencrypt
    rw [hself, ← hkeys] at hdecrypt
    exact hsame (Except.ok.inj (htext.symm.trans hdecrypt))
  · obtain ⟨rfl, htags⟩ := Command.publish.inj heq
    have hof := @tagsOf_build wire envelope transport.vaultTag none
      (signedEvent nip44 transport.cfg.keys id envelope.content tags) htags
    rw [hof.marker] at htext
    exact hsame htext

/-- Every package that one assignment names is named by the other as well. -/
def Extends (drawn drawn' : ParticipantId → Option Round1Package) : Prop :=
  ∀ id package, drawn id = some package → drawn' id = some package

namespace LiveSetting

variable (setting : LiveSetting κ)

/-- A message of the ceremony: a package of round one that its sender has drawn itself, or any
package of round two. -/
def Sent (drawn : ParticipantId → Option Round1Package) (message : ProtocolMessage) : Prop :=
  (∃ package, drawn package.participantId = some package ∧
    package.toProtocolMessage (setting.json .round1) setting.sessionId = .ok message) ∨
  ∃ package : Round2Package,
    package.toProtocolMessage (setting.json .round2) setting.sessionId = .ok message

/-- A command that the transport of a device enqueues for a message of the ceremony. -/
def Enqueues (drawn : ParticipantId → Option Round1Package) (id : ParticipantId) (command : Command) :
    Prop :=
  ∃ (transport : LiveNostrTransport κ) (nonce : Bytes 32) (message : ProtocolMessage),
    transport.cfg = setting.transportConfig id ∧ setting.Sent drawn message ∧
      transport.publishCommand setting.wire setting.nip44 message nonce = .ok command

/-- An event that a relay thread has signed for its device. -/
def Relays (drawn : ParticipantId → Option Round1Package) (event : Event) : Prop :=
  ∃ sender id content tags, setting.Enqueues drawn sender (.publish content tags) ∧
    event = signedEvent setting.nip44 (setting.keys sender) id content tags

variable {setting} {drawn drawn' : ParticipantId → Option Round1Package}

theorem Sent.mono {message : ProtocolMessage} (h : setting.Sent drawn message)
    (hext : Extends drawn drawn') : setting.Sent drawn' message := by
  rcases h with ⟨package, hdrawn, hto⟩ | hround2
  · exact .inl ⟨package, hext _ _ hdrawn, hto⟩
  · exact .inr hround2

theorem Enqueues.mono {id : ParticipantId} {command : Command} (h : setting.Enqueues drawn id command)
    (hext : Extends drawn drawn') : setting.Enqueues drawn' id command := by
  obtain ⟨transport, nonce, message, hcfg, hsent, hcommand⟩ := h
  exact ⟨transport, nonce, message, hcfg, hsent.mono hext, hcommand⟩

theorem Relays.mono {event : Event} (h : setting.Relays drawn event) (hext : Extends drawn drawn') :
    setting.Relays drawn' event := by
  obtain ⟨sender, id, content, tags, henqueues, hevent⟩ := h
  exact ⟨sender, id, content, tags, henqueues.mono hext, hevent⟩

theorem Relays.accepted {event : Event} {id : ParticipantId} {message : ProtocolMessage}
    (h : setting.Relays drawn event) (hsound : setting.Sound)
    (haccepts : Accepts setting.wire setting.nip44.toNip44 (setting.transportConfig id) event message) :
    setting.Sent drawn message := by
  obtain ⟨sender, eventId, content, tags, ⟨transport, nonce, sent, hcfg, hsent, hcommand⟩, rfl⟩ := h
  have hkeys : setting.keys sender = transport.cfg.keys := by rw [hcfg]; rfl
  rw [hkeys] at haccepts
  have hdirectory : ∀ recipient key, transport.cfg.directory.get recipient = some key →
      key = setting.nip44.publicKey (setting.keys recipient) := by
    rw [hcfg]
    exact hsound.directory
  rw [accepts_published hsound.wire hsound.nip44 hdirectory rfl hcommand haccepts]
  exact hsent

/-- A message of round one is decoded to the package that its sender has drawn. -/
theorem Sent.round1 {message : ProtocolMessage} {package : Round1Package}
    (h : setting.Sent drawn message) (hsound : setting.Sound)
    (hfrom : Round1Package.fromProtocolMessage (setting.json .round1) message = .ok package) :
    drawn package.participantId = some package := by
  have hgenuine := (@Channel.fromProtocolMessage_eq_ok .round1 _ _ _).mp hfrom
  rcases h with ⟨package', hdrawn, hto⟩ | ⟨package', hto⟩
  · obtain ⟨message', hmessage', hencoded⟩ :=
      Channel.toProtocolMessage_spec .round1 hsound.round1 package' setting.sessionId
    obtain rfl : message = message' := Except.ok.inj (hto.symm.trans hmessage')
    have hpayload := hgenuine.payload.symm.trans hencoded.payload
    obtain rfl : package = package' := Except.ok.inj hpayload
    exact hdrawn
  · -- a message of round two has another kind
    obtain ⟨payload, -, hmessage⟩ := bind_eq_ok.mp hto
    have hkind := hgenuine.kind
    rw [← Except.ok.inj hmessage] at hkind
    cases hkind

end LiveSetting

end Messages

section Links

variable {κ : Type} {setting : LiveSetting κ} {drawn drawn' : ParticipantId → Option Round1Package}
  {id : ParticipantId} {link : LiveLink κ}

/-- What waits in a device's link, to be drained or to be signed, belongs to the ceremony. -/
structure LiveSetting.LinkSound (setting : LiveSetting κ)
    (drawn : ParticipantId → Option Round1Package) (id : ParticipantId) (link : LiveLink κ) : Prop where
  cfg : link.connections.transport.cfg = setting.transportConfig id
  inbound : ∀ message ∈ link.connections.transport.inbound, setting.Sent drawn message
  outbox : ∀ command ∈ link.outbox, setting.Enqueues drawn id command

open LiveSetting

theorem LiveSetting.LinkSound.mono (h : setting.LinkSound drawn id link) (hext : Extends drawn drawn') :
    setting.LinkSound drawn' id link where
  cfg := h.cfg
  inbound := fun message hmessage => (h.inbound message hmessage).mono hext
  outbox := fun command hcommand => (h.outbox command hcommand).mono hext

theorem LiveSetting.LinkSound.withConnections (h : setting.LinkSound drawn id link)
    {connections : Connections κ}
    (hcfg : connections.transport.cfg = link.connections.transport.cfg)
    (hinbound : ∀ message ∈ connections.transport.inbound,
      message ∈ link.connections.transport.inbound ∨ setting.Sent drawn message) :
    setting.LinkSound drawn id { link with connections := connections } where
  cfg := hcfg.trans h.cfg
  inbound := by
    intro message hmessage
    rcases hinbound message hmessage with hold | hnew
    · exact h.inbound message hold
    · exact hnew
  outbox := h.outbox

theorem publish_keeps (wire : Wire) (nip44 : Nip44Scheme κ) (transport : LiveNostrTransport κ)
    (message : ProtocolMessage) (nonce : Bytes 32) (ack : Ack) :
    (transport.publish wire nip44 message nonce ack).2.2.cfg = transport.cfg ∧
      ∀ received ∈ (transport.publish wire nip44 message nonce ack).2.2.inbound,
        received ∈ transport.inbound ∨ received = message := by
  have hself : ∀ received ∈ transport.inbound, received ∈ transport.inbound ∨ received = message :=
    fun received hreceived => .inl hreceived
  rw [LiveNostrTransport.publish]
  cases transport.cmdTx with
  | none => exact ⟨rfl, hself⟩
  | some thread =>
    cases transport.publishCommand wire nip44 message nonce with
    | error fault => exact ⟨rfl, hself⟩
    | ok command =>
      cases ack with
      | gone => exact ⟨rfl, hself⟩
      | timedOut => exact ⟨rfl, hself⟩
      | answered result =>
        cases result with
        | error fault => exact ⟨rfl, hself⟩
        | ok u =>
          by_cases hfor : message.isFor transport.cfg.selfId
          · simp [hfor]
          · simp only [hfor]
            exact ⟨rfl, hself⟩

theorem LiveSetting.LinkSound.publish (h : setting.LinkSound drawn id link) {message : ProtocolMessage}
    (hsent : setting.Sent drawn message) (nonce : Bytes 32) (ack : Ack) :
    setting.LinkSound drawn id ((setting.impl nonce ack).publish message link).2 := by
  obtain ⟨hcfg, hinbound⟩ := publish_keeps setting.wire setting.nip44 link.connections.transport message
    nonce ack
  refine ⟨hcfg.trans h.cfg, fun received hreceived => ?_, fun command hcommand => ?_⟩
  · rcases hinbound received hreceived with hold | rfl
    · exact h.inbound received hold
    · exact hsent
  · rcases List.mem_append.mp hcommand with hold | hnew
    · exact h.outbox command hold
    · have henqueued := publish_enqueued (Option.mem_toList.mp hnew)
      exact ⟨link.connections.transport, nonce, message, h.cfg, hsent, henqueued⟩

/-- A drain over the live transport decodes what it takes out of the buffer. -/
theorem drainPackages_live {α : Type} (setting : LiveSetting κ) (nonce : Bytes 32) (ack : Ack)
    (sessionId : SessionId) (only : ProtocolMessage → Bool) (fromProtocolMessage : ProtocolMessage → Result α)
    (link : LiveLink κ) :
    let buffered := link.connections.transport.inbound
    let taken (message : ProtocolMessage) := message.sessionId = sessionId && only message
    drainPackages (setting.impl nonce ack) sessionId only fromProtocolMessage ⟨link⟩ =
      (collectResults fromProtocolMessage (buffered.filter taken), ⟨link.withTransport
        { link.connections.transport with inbound := buffered.filter fun message => !taken message }⟩) := by
  intro buffered taken
  have hwithin : Predicate.within (fun (s : Unit) message => (only message, s)) sessionId =
      fun s message => (taken message, s) := by
    funext s message
    by_cases h : message.sessionId = sessionId <;> simp [Predicate.within, taken, h]
  have hdrain : (setting.impl nonce ack).drainMatching sessionId
      (fun (s : Unit) message => (only message, s)) link () = (.ok (buffered.filter taken),
        link.withTransport { link.connections.transport with
          inbound := buffered.filter fun message => !taken message }, ()) := by
    have hsift := sift_pure taken buffered ()
    rw [← hwithin] at hsift
    change (_, link.withTransport _, _) = _
    rw [hsift]
  rw [drainPackages, hdrain]
  rfl

theorem LiveSetting.LinkSound.drain {α : Type} (h : setting.LinkSound drawn id link) (nonce : Bytes 32)
    (ack : Ack) (sessionId : SessionId) (only : ProtocolMessage → Bool)
    (fromProtocolMessage : ProtocolMessage → Result α) :
    let drained := drainPackages (setting.impl nonce ack) sessionId only fromProtocolMessage ⟨link⟩
    setting.LinkSound drawn id drained.2.transport ∧ ∀ packages, drained.1 = .ok packages →
      ∀ package ∈ packages, ∃ message, setting.Sent drawn message ∧
        fromProtocolMessage message = .ok package := by
  intro drained
  have hdrained : drained = _ := drainPackages_live setting nonce ack sessionId only fromProtocolMessage link
  rw [hdrained]
  constructor
  · refine h.withConnections rfl fun message hmessage => .inl ?_
    exact (List.mem_filter.mp hmessage).1
  · intro packages hpackages package hpackage
    obtain ⟨message, hmessage, hfrom⟩ := exists_of_mem_collectResults hpackages hpackage
    exact ⟨message, h.inbound message (List.mem_filter.mp hmessage).1, hfrom⟩

theorem connect_keeps (connections : Connections κ) (report : Ready) :
    (connections.connect report).transport.cfg = connections.transport.cfg ∧
      (connections.connect report).transport.inbound = connections.transport.inbound := by
  rw [Connections.connect]
  by_cases hconnected : connections.transport.connected
  · rw [if_pos hconnected]
    exact ⟨rfl, rfl⟩
  · simp only [hconnected, LiveNostrTransport.connect]
    cases report <;> exact ⟨rfl, rfl⟩

theorem LiveSetting.LinkSound.connect (h : setting.LinkSound drawn id link) (report : Ready) :
    setting.LinkSound drawn id { link with connections := link.connections.connect report } := by
  obtain ⟨hcfg, hinbound⟩ := connect_keeps link.connections report
  refine h.withConnections hcfg fun message hmessage => .inl ?_
  rwa [hinbound] at hmessage

theorem LiveSetting.LinkSound.deliver (h : setting.LinkSound drawn id link) (hsound : setting.Sound)
    {event : Event} (hevent : setting.Relays drawn event) (thread : ℕ) :
    setting.LinkSound drawn id { link with
      connections := link.connections.deliver setting.wire setting.nip44.toNip44 thread event } := by
  have hcfg : (link.connections.deliver setting.wire setting.nip44.toNip44 thread event).transport.cfg =
      link.connections.transport.cfg := by
    rw [Connections.deliver]
    cases link.connections.threads thread <;> rfl
  refine h.withConnections hcfg fun message hmessage => ?_
  rw [Connections.deliver] at hmessage
  cases hthread : link.connections.threads thread with
  | none =>
    rw [hthread] at hmessage
    exact .inl hmessage
  | some seen =>
    simp only [hthread] at hmessage
    rcases handleInboundEvent_cases setting.wire setting.nip44.toNip44 link.connections.transport.cfg
      ⟨seen, link.connections.transport.inbound⟩ event with ⟨-, hinbox⟩ | ⟨-, hinbox⟩ |
        ⟨-, accepted, haccepts, hinbox⟩
    · rw [hinbox] at hmessage
      exact .inl hmessage
    · rw [hinbox] at hmessage
      exact .inl hmessage
    · rw [hinbox] at hmessage
      rcases List.mem_append.mp hmessage with hold | hnew
      · exact .inl hold
      · rw [h.cfg] at haccepts
        rw [List.mem_singleton.mp hnew]
        exact .inr (hevent.accepted hsound haccepts)

end Links

section Invariant

variable {κ : Type} (setting : LiveSetting κ) {pedPop : SimplePedPop} (receiver : ShareReceiver pedPop)
  (drawn : ParticipantId → Option Round1Package) (id : ParticipantId)

namespace LiveSetting

/-- The session finalizes with one package of each party, drawn by that party. -/
def StoresDrawn (session : FrostDkgSession) : Prop :=
  ∃ packages, (setting.dkgConfig id).validateRound1Set packages = .ok () ∧
    (∀ package ∈ packages, drawn package.participantId = some package) ∧
    session.runtime.map DkgRuntime.round1Packages = some (lastWith Round1Package.participantId packages)

/-- The key that the packages drawn by all parties have in common. -/
def IsDrawnKey (key : GroupKey) : Prop :=
  ∃ packages : List Round1Package,
    (partyIds setting.threshold.participants).map drawn = packages.map some ∧
    ((setting.dkgConfig id).aggregateKeygenInputs pedPop packages >>= receiver.groupKey) = .ok key

def PhaseSound (device : Device κ) : DevicePhase → Prop
  | .ready => device.own = none
  | .collecting => True
  | .sending _ => setting.StoresDrawn drawn id device.session
  | .receiving => setting.StoresDrawn drawn id device.session
  | .finished share => share.participantId = id ∧ setting.IsDrawnKey receiver drawn id share.groupKey
  | .stopped => True

structure DeviceSound (device : Device κ) : Prop where
  link : setting.LinkSound drawn id device.coordinator.transport
  config : device.session.config = setting.dkgConfig id
  round1 : ∀ package ∈ device.round1, drawn package.participantId = some package
  phase : setting.PhaseSound receiver drawn id device device.phase

variable {setting receiver drawn id} {drawn' : ParticipantId → Option Round1Package} {device : Device κ}

theorem StoresDrawn.mono {session : FrostDkgSession} (h : setting.StoresDrawn drawn id session)
    (hext : Extends drawn drawn') : setting.StoresDrawn drawn' id session := by
  obtain ⟨packages, hvalid, hdrawn, hstored⟩ := h
  exact ⟨packages, hvalid, fun package hpackage => hext _ _ (hdrawn package hpackage), hstored⟩

theorem IsDrawnKey.mono {key : GroupKey} (h : setting.IsDrawnKey receiver drawn id key)
    (hext : Extends drawn drawn') : setting.IsDrawnKey receiver drawn' id key := by
  obtain ⟨packages, hdrawn, hkey⟩ := h
  refine ⟨packages, ?_, hkey⟩
  rw [← hdrawn, List.map_inj_left]
  intro party hparty
  have hsome : drawn party ∈ packages.map some := hdrawn ▸ List.mem_map_of_mem hparty
  obtain ⟨package, -, hpackage⟩ := List.mem_map.mp hsome
  rw [← hpackage]
  exact hext party package hpackage.symm

theorem DeviceSound.mono (h : setting.DeviceSound receiver drawn id device)
    (hext : Extends drawn drawn') : setting.DeviceSound receiver drawn' id device where
  link := h.link.mono hext
  config := h.config
  round1 := fun package hpackage => hext _ _ (h.round1 package hpackage)
  phase := by
    have hphase := h.phase
    cases hdevice : device.phase with
    | ready => rwa [hdevice] at hphase
    | collecting => trivial
    | sending packages =>
      rw [hdevice] at hphase
      exact StoresDrawn.mono hphase hext
    | receiving =>
      rw [hdevice] at hphase
      exact StoresDrawn.mono hphase hext
    | finished share =>
      rw [hdevice] at hphase
      exact ⟨hphase.1, hphase.2.mono hext⟩
    | stopped => trivial

theorem LinkSound.publishMessage {link : LiveLink κ} (h : setting.LinkSound drawn id link)
    {message : Result ProtocolMessage} (hsent : ∀ sent, message = .ok sent → setting.Sent drawn sent)
    (nonce : Bytes 32) (ack : Ack) :
    setting.LinkSound drawn id
      (FrostCoordinator.publishMessage (setting.impl nonce ack) message ⟨link⟩).2.transport := by
  cases message with
  | error fault => exact h
  | ok sent => exact h.publish (hsent sent rfl) nonce ack

/-- What a session finalizes to comes from the packages it has stored. -/
theorem StoresDrawn.key {session : FrostDkgSession} (h : setting.StoresDrawn drawn id session)
    (hconfig : session.config = setting.dkgConfig id) {round2Packages : List Round2Package}
    {share : LocalKeyShare} (hshare : session.finalize pedPop receiver round2Packages = .ok share) :
    share.participantId = id ∧ setting.IsDrawnKey receiver drawn id share.groupKey := by
  obtain ⟨hid, runtime, hruntime, hkey⟩ := finalize_key hshare
  obtain ⟨packages, hvalid, hdrawn, hstored⟩ := h
  rw [hconfig] at hid hkey
  rw [hruntime, Option.map_some, Option.some_inj] at hstored
  rw [hstored] at hkey
  refine ⟨hid, mapValues (lastWith Round1Package.participantId packages), ?_, hkey⟩
  have hnd := (validateRound1Set_eq_ok.mp hvalid).2.2
  have hperm := mapValues_lastWith_perm hnd
  obtain ⟨aggInput, haggregate, -⟩ := bind_eq_ok.mp hkey
  have hne := ne_zero_of_aggregate haggregate
  have hids := ids_perm_of_validated hvalid fun package hpackage =>
    hne package (hperm.mem_iff.mpr hpackage)
  -- the values of the map are in the order of the ids
  have hvalues : (mapValues (lastWith Round1Package.participantId packages)).map
      Round1Package.participantId = partyIds setting.threshold.participants := by
    have hsorted := mapValues_lastWith_pairwise hnd
    rw [← List.pairwise_map (R := fun i j : ParticipantId => i.toNat < j.toNat)] at hsorted
    refine List.Perm.eq_of_pairwise (fun i j _ _ hij hji => ?_) hsorted (partyIds_sorted _)
      ((hperm.map _).trans hids)
    omega
  rw [← hvalues, List.map_map, List.map_inj_left]
  intro package hpackage
  exact hdrawn package (hperm.mem_iff.mp hpackage)

end LiveSetting

theorem round1_keeps (pedPop : SimplePedPop) (session : FrostDkgSession) (rng : pedPop.Rng) :
    (session.round1 pedPop rng).2.config = session.config ∧
      ∀ package, (session.round1 pedPop rng).1 = .ok package →
        package.participantId = session.config.participantId := by
  rw [FrostDkgSession.round1]
  cases hcontribute : session.config.contribute pedPop rng with
  | error fault => exact ⟨rfl, fun package hpackage => by cases hpackage⟩
  | ok result =>
    obtain ⟨package, runtime⟩ := result
    refine ⟨rfl, fun package' hpackage => ?_⟩
    rw [← Except.ok.inj hpackage]
    exact (contribute_eq_ok hcontribute).1.1

theorem round2_stores {pedPop : SimplePedPop} {session : FrostDkgSession}
    {round1Packages : List Round1Package} {shares : List Round2Package}
    (h : (session.round2 pedPop round1Packages).1 = .ok shares) :
    session.config.validateRound1Set round1Packages = .ok () ∧
      (session.round2 pedPop round1Packages).2.runtime.map DkgRuntime.round1Packages =
        some (lastWith Round1Package.participantId round1Packages) := by
  obtain ⟨hsome, hvalid, input, haggregate⟩ := (round2_isOk_iff pedPop session round1Packages).mp ⟨shares, h⟩
  obtain ⟨runtime, hruntime⟩ := Option.isSome_iff_exists.mp hsome
  refine ⟨hvalid, ?_⟩
  rw [FrostDkgSession.round2]
  simp [hvalid, hruntime, haggregate]

variable {setting receiver drawn id} {device : Device κ} {nonce : Bytes 32} {ack : Ack}

namespace LiveSetting

theorem DeviceSound.start (h : setting.DeviceSound receiver drawn id device)
    (hready : device.phase = .ready) (hown : drawn id = device.own) (rng : pedPop.Rng) :
    let device' := device.start (setting.impl nonce ack) setting.json pedPop rng
    Extends drawn (Function.update drawn id device'.own) ∧
      setting.DeviceSound receiver (Function.update drawn id device'.own) id device' := by
  have hphase := h.phase
  rw [hready] at hphase
  have hnone : drawn id = none := hown.trans hphase
  obtain ⟨hconfig, hpackage⟩ := round1_keeps pedPop device.session rng
  intro device'
  have hdevice : device' = device.start (setting.impl nonce ack) setting.json pedPop rng := rfl
  rw [Device.start, h.config] at hdevice
  cases hround : device.session.round1 pedPop rng with
  | mk result session =>
    rw [hround] at hconfig hpackage
    cases result with
    | error fault =>
      simp only [hround] at hdevice
      have hsame : Function.update drawn id device'.own = drawn := by
        rw [hdevice, ← hown, Function.update_eq_self]
      rw [hsame, hdevice]
      exact ⟨fun _ _ hdrawn => hdrawn, h.link, hconfig.trans h.config, h.round1, trivial⟩
    | ok package =>
      simp only [hround] at hdevice
      have hid : package.participantId = id := by
        rw [hpackage package rfl, h.config]
        rfl
      have hself : Function.update drawn id (some package) package.participantId = some package := by
        rw [hid, Function.update_self]
      have hext : Extends drawn (Function.update drawn id (some package)) := by
        intro party other hdrawn
        by_cases hparty : party = id
        · rw [hparty, hnone] at hdrawn
          cases hdrawn
        · rwa [Function.update_of_ne hparty]
      have hlink : setting.LinkSound (Function.update drawn id (some package)) id
          (publishRound1 (setting.impl nonce ack) setting.json setting.sessionId package
            device.coordinator).2.transport :=
        (h.link.mono hext).publishMessage (fun sent hsent => .inl ⟨package, hself, hsent⟩) nonce ack
      have hphase' : ∀ result : Result Unit, setting.PhaseSound receiver
          (Function.update drawn id (some package)) id device' (match result with
            | .ok () => .collecting
            | .error _ => .stopped) := by
        intro result
        cases result <;> trivial
      rw [hdevice] at hphase' ⊢
      exact ⟨hext, hlink, hconfig.trans h.config, fun other hother => hext _ _ (h.round1 other hother),
        hphase' _⟩

/-- The actions after the first one draw no package. -/
theorem DeviceSound.collect (h : setting.DeviceSound receiver drawn id device) (hsound : setting.Sound) :
    let device' := device.collect (setting.impl nonce ack) setting.json pedPop
    device'.own = device.own ∧ setting.DeviceSound receiver drawn id device' := by
  intro device'
  have hdevice : device' = device.collect (setting.impl nonce ack) setting.json pedPop := rfl
  rw [Device.collect] at hdevice
  by_cases hless : device.round1.length < device.session.config.threshold.participants.toNat
  · simp only [hless, if_true] at hdevice
    obtain ⟨hlink, hpackages⟩ := h.link.drain nonce ack device.session.config.sessionId
      (fun message => message.kind = .frostDkgRound1) (Round1Package.fromProtocolMessage (setting.json .round1))
    cases hdrain : drainRound1 (setting.impl nonce ack) setting.json device.session.config.sessionId
        device.coordinator with
    | mk result coordinator =>
      have hdrained : drainPackages (setting.impl nonce ack) device.session.config.sessionId
          (fun message => message.kind = .frostDkgRound1)
          (Round1Package.fromProtocolMessage (setting.json .round1)) ⟨device.coordinator.transport⟩ =
            (result, coordinator) := hdrain
      rw [hdrained] at hlink hpackages
      cases result with
      | error fault =>
        simp only [hdrain] at hdevice
        rw [hdevice]
        exact ⟨rfl, hlink, h.config, h.round1, trivial⟩
      | ok packages =>
        simp only [hdrain] at hdevice
        rw [hdevice]
        refine ⟨rfl, hlink, h.config, fun package hpackage => ?_, ?_⟩
        · rcases List.mem_append.mp hpackage with hold | hnew
          · exact h.round1 package hold
          · obtain ⟨message, hsent, hfrom⟩ := hpackages packages rfl package hnew
            exact hsent.round1 hsound hfrom
        · exact h.phase
  · simp only [hless, if_false] at hdevice
    by_cases hlength : device.round1.length = device.session.config.threshold.participants.toNat
    · simp only [hlength, if_true] at hdevice
      have hkeeps := (round2_keeps pedPop device.session device.round1).1
      cases hround : device.session.round2 pedPop device.round1 with
      | mk result session =>
        rw [hround] at hkeeps
        cases result with
        | error fault =>
          simp only [hround] at hdevice
          rw [hdevice]
          exact ⟨rfl, h.link, hkeeps.trans h.config, h.round1, trivial⟩
        | ok packages =>
          simp only [hround] at hdevice
          obtain ⟨hvalid, hstored⟩ := round2_stores (congrArg Prod.fst hround)
          rw [h.config] at hvalid
          rw [hround] at hstored
          rw [hdevice]
          exact ⟨rfl, h.link, hkeeps.trans h.config, h.round1, device.round1, hvalid, h.round1, hstored⟩
    · simp only [hlength, if_false] at hdevice
      rw [hdevice]
      exact ⟨rfl, h.link, h.config, h.round1, trivial⟩

theorem DeviceSound.send (h : setting.DeviceSound receiver drawn id device) {package : Round2Package}
    {rest : List Round2Package} (hstored : setting.StoresDrawn drawn id device.session) :
    let device' := device.send (setting.impl nonce ack) setting.json package rest
    device'.own = device.own ∧ setting.DeviceSound receiver drawn id device' := by
  intro device'
  have hdevice : device' = device.send (setting.impl nonce ack) setting.json package rest := rfl
  rw [Device.send, h.config] at hdevice
  have hlink : setting.LinkSound drawn id (publishRound2 (setting.impl nonce ack) setting.json
      setting.sessionId package device.coordinator).2.transport :=
    h.link.publishMessage (fun sent hsent => .inr ⟨package, hsent⟩) nonce ack
  have hphase : ∀ result : Result Unit, setting.PhaseSound receiver drawn id device' (match result with
      | .ok () => .sending rest
      | .error _ => .stopped) := by
    intro result
    rw [hdevice]
    cases result
    · trivial
    · exact hstored
  rw [hdevice] at hphase ⊢
  exact ⟨rfl, hlink, h.config, h.round1, hphase _⟩

theorem DeviceSound.receive (h : setting.DeviceSound receiver drawn id device)
    (hstored : setting.StoresDrawn drawn id device.session) :
    let device' := device.receive (setting.impl nonce ack) setting.json pedPop receiver
    device'.own = device.own ∧ setting.DeviceSound receiver drawn id device' := by
  intro device'
  have hdevice : device' = device.receive (setting.impl nonce ack) setting.json pedPop receiver := rfl
  rw [Device.receive] at hdevice
  by_cases hless : device.round2.length < device.session.config.threshold.participants.toNat
  · simp only [hless, if_true] at hdevice
    have hlink := (h.link.drain nonce ack device.session.config.sessionId
      (fun message => message.kind = .frostDkgRound2 &&
        message.isFor device.session.config.participantId)
      (Round2Package.fromProtocolMessage (setting.json .round2))).1
    cases hdrain : drainRound2For (setting.impl nonce ack) setting.json device.session.config.sessionId
        device.session.config.participantId device.coordinator with
    | mk result coordinator =>
      have hdrained : drainPackages (setting.impl nonce ack) device.session.config.sessionId
          (fun message => message.kind = .frostDkgRound2 &&
            message.isFor device.session.config.participantId)
          (Round2Package.fromProtocolMessage (setting.json .round2)) ⟨device.coordinator.transport⟩ =
            (result, coordinator) := hdrain
      rw [hdrained] at hlink
      cases result with
      | error fault =>
        simp only [hdrain] at hdevice
        rw [hdevice]
        exact ⟨rfl, hlink, h.config, h.round1, trivial⟩
      | ok packages =>
        simp only [hdrain] at hdevice
        rw [hdevice]
        exact ⟨rfl, hlink, h.config, h.round1, h.phase⟩
  · simp only [hless, if_false] at hdevice
    by_cases hlength : device.round2.length = device.session.config.threshold.participants.toNat
    · simp only [hlength, if_true] at hdevice
      cases hshare : device.session.finalize pedPop receiver device.round2 with
      | error fault =>
        simp only [hshare] at hdevice
        rw [hdevice]
        exact ⟨rfl, h.link, h.config, h.round1, trivial⟩
      | ok share =>
        simp only [hshare] at hdevice
        rw [hdevice]
        exact ⟨rfl, h.link, h.config, h.round1, hstored.key h.config hshare⟩
    · simp only [hlength, if_false] at hdevice
      rw [hdevice]
      exact ⟨rfl, h.link, h.config, h.round1, trivial⟩

end LiveSetting

end Invariant

section Runs

variable {κ : Type} {setting : LiveSetting κ} {pedPop : SimplePedPop} {receiver : ShareReceiver pedPop}
  {network : LiveNetwork κ} {id : ParticipantId} {device : Device κ}

def LiveNetwork.drawn (network : LiveNetwork κ) (id : ParticipantId) : Option Round1Package :=
  (network.devices id).own

theorem drawn_update (network : LiveNetwork κ) (id : ParticipantId) (device : Device κ) :
    (network.update id device).drawn = Function.update network.drawn id device.own := by
  funext party
  by_cases hparty : party = id
  · subst hparty
    rw [Function.update_self]
    exact congrArg Device.own (Function.update_self _ _ _)
  · rw [Function.update_of_ne hparty]
    exact congrArg Device.own (Function.update_of_ne hparty _ _)

theorem drawn_update_same (hown : device.own = (network.devices id).own) :
    (network.update id device).drawn = network.drawn := by
  rw [drawn_update, hown]
  exact Function.update_eq_self id network.drawn

structure LiveSetting.NetworkSound (setting : LiveSetting κ) (receiver : ShareReceiver pedPop)
    (network : LiveNetwork κ) : Prop where
  devices : ∀ id, setting.DeviceSound receiver network.drawn id (network.devices id)
  events : ∀ event ∈ network.events, setting.Relays network.drawn event

namespace LiveSetting

theorem NetworkSound.update (h : setting.NetworkSound receiver network)
    (hext : Extends network.drawn (Function.update network.drawn id device.own))
    (hdevice : setting.DeviceSound receiver (Function.update network.drawn id device.own) id device) :
    setting.NetworkSound receiver (network.update id device) := by
  have hdrawn := drawn_update network id device
  constructor
  · intro party
    rw [hdrawn]
    by_cases hparty : party = id
    · subst hparty
      have hself : (network.update party device).devices party = device := Function.update_self _ _ _
      rwa [hself]
    · have hother : (network.update id device).devices party = network.devices party :=
        Function.update_of_ne hparty _ _
      rw [hother]
      exact (h.devices party).mono hext
  · intro event hevent
    rw [hdrawn]
    exact (h.events event hevent).mono hext

/-- A change of one device that draws no package. -/
theorem NetworkSound.update_same (h : setting.NetworkSound receiver network)
    (hown : device.own = (network.devices id).own)
    (hdevice : setting.DeviceSound receiver network.drawn id device) :
    setting.NetworkSound receiver (network.update id device) := by
  have hsame : Function.update network.drawn id device.own = network.drawn := by
    rw [← drawn_update, drawn_update_same hown]
  refine h.update ?_ ?_
  · rw [hsame]
    exact fun party package hdrawn => hdrawn
  · rwa [hsame]

theorem NetworkSound.advance (h : setting.NetworkSound receiver network) (hsound : setting.Sound)
    (rng : pedPop.Rng) (nonce : Bytes 32) (ack : Ack) :
    setting.NetworkSound receiver (network.update id
      ((network.devices id).advance (setting.impl nonce ack) setting.json pedPop receiver rng)) := by
  have hdevice := h.devices id
  have hphase := hdevice.phase
  rw [Device.advance]
  cases hcase : (network.devices id).phase with
  | ready =>
    obtain ⟨hext, hstart⟩ := hdevice.start hcase rfl rng
    exact h.update hext hstart
  | collecting =>
    obtain ⟨hown, hcollect⟩ := hdevice.collect hsound
    exact h.update_same hown hcollect
  | sending packages =>
    rw [hcase] at hphase
    cases packages with
    | nil => exact h.update_same rfl ⟨hdevice.link, hdevice.config, hdevice.round1, hphase⟩
    | cons package rest =>
      obtain ⟨hown, hsend⟩ := hdevice.send hphase
      exact h.update_same hown hsend
  | receiving =>
    rw [hcase] at hphase
    obtain ⟨hown, hreceive⟩ := hdevice.receive hphase
    exact h.update_same hown hreceive
  | finished share => exact h.update_same rfl hdevice
  | stopped => exact h.update_same rfl hdevice

theorem NetworkSound.reconnect (h : setting.NetworkSound receiver network)
    (change : Connections κ → Connections κ)
    (hlink : setting.LinkSound network.drawn id { (network.devices id).coordinator.transport with
      connections := change (network.devices id).coordinator.transport.connections }) :
    setting.NetworkSound receiver (network.reconnect id change) := by
  have hdevice := h.devices id
  exact h.update_same rfl ⟨hlink, hdevice.config, hdevice.round1, hdevice.phase⟩

theorem NetworkSound.sendCommand (h : setting.NetworkSound receiver network) (eventId : EventId) :
    setting.NetworkSound receiver (network.sendCommand setting id eventId) := by
  have hdevice := h.devices id
  have hlink := hdevice.link
  rw [LiveNetwork.sendCommand]
  cases houtbox : (network.devices id).coordinator.transport.outbox with
  | nil => simpa [houtbox] using h
  | cons command rest =>
    cases command with
    | shutdown => simpa [houtbox] using h
    | publish content tags =>
      have houtboxSound := hlink.outbox
      rw [houtbox, List.forall_mem_cons] at houtboxSound
      obtain ⟨hcommand, hrest⟩ := houtboxSound
      let sent : Device κ := { network.devices id with
        coordinator := ⟨{ (network.devices id).coordinator.transport with outbox := rest }⟩ }
      have hsent : setting.DeviceSound receiver network.drawn id sent :=
        ⟨⟨hlink.cfg, hlink.inbound, hrest⟩, hdevice.config, hdevice.round1, hdevice.phase⟩
      have hown : sent.own = (network.devices id).own := rfl
      have hupdate := h.update_same hown hsent
      have hrelays := hupdate.events
      rw [drawn_update_same hown] at hrelays
      have hdevices := hupdate.devices
      rw [drawn_update_same hown] at hdevices
      have hdrawn : LiveNetwork.drawn { network.update id sent with events := network.events ++
          [signedEvent setting.nip44 (setting.keys id) eventId content tags] } = network.drawn :=
        drawn_update_same hown
      simp only
      constructor
      · rw [hdrawn]
        exact hdevices
      · rw [hdrawn]
        intro event hevent
        rcases List.mem_append.mp hevent with hold | hnew
        · exact h.events event hold
        · exact ⟨id, eventId, content, tags, hcommand, List.mem_singleton.mp hnew⟩

theorem NetworkSound.step (h : setting.NetworkSound receiver network) (hsound : setting.Sound)
    (step : NetworkStep pedPop) : setting.NetworkSound receiver (network.step setting receiver step) := by
  cases step with
  | advance id rng nonce ack => exact h.advance hsound rng nonce ack
  | giveUp id =>
    have hdevice := h.devices id
    exact h.update_same rfl ⟨hdevice.link, hdevice.config, hdevice.round1, trivial⟩
  | connect id report =>
    exact h.reconnect (fun connections => connections.connect report)
      ((h.devices id).link.connect report)
  | disconnect id =>
    exact h.reconnect Connections.disconnect
      ((h.devices id).link.withConnections rfl fun message hmessage => .inl hmessage)
  | stop id thread =>
    exact h.reconnect (fun connections =>
      { connections with threads := Function.update connections.threads thread none })
      ((h.devices id).link.withConnections rfl fun message hmessage => .inl hmessage)
  | sendCommand id eventId => exact h.sendCommand eventId
  | deliver id thread event =>
    rw [LiveNetwork.step]
    split_ifs with hevent
    · exact h.reconnect _ ((h.devices id).link.deliver hsound (h.events event hevent.1) thread)
    · exact h

theorem networkSound_run (hsound : setting.Sound) (steps : List (NetworkStep pedPop)) :
    setting.NetworkSound receiver (LiveNetwork.run setting receiver steps) := by
  have hstart : setting.NetworkSound receiver (⟨setting.device, []⟩ : LiveNetwork κ) := by
    refine ⟨fun id => ⟨⟨rfl, ?_, ?_⟩, rfl, ?_, rfl⟩, ?_⟩
    · exact fun message hmessage => absurd hmessage List.not_mem_nil
    · exact fun command hcommand => absurd hcommand List.not_mem_nil
    · exact fun package hpackage => absurd hpackage List.not_mem_nil
    · exact fun event hevent => absurd hevent List.not_mem_nil
  rw [LiveNetwork.run]
  generalize (⟨setting.device, []⟩ : LiveNetwork κ) = network at hstart ⊢
  induction steps generalizing network with
  | nil => exact hstart
  | cons step rest ih => exact ih _ (hstart.step hsound step)

end LiveSetting

end Runs

end DkgKit
