import DkgKit.LiveLinks

/-! A run of the ceremony over a relay that loses nothing. Every device finishes in it, with the
share that the same ceremony in one process gives its party. -/

open BigEndian LoopRules

namespace DkgKit

open DkgSessionConfig FrostDkgSession FrostCoordinator

section Phases

variable {κ : Type} {setting : LiveSetting κ} {pedPop : SimplePedPop} {receiver : ShareReceiver pedPop}
  (encoding : pedPop.Encoding) (rng : ParticipantId → pedPop.Rng)

theorem Channel.Encoded.wellFormed {channel : Channel} {json : Json channel.Package}
    {package : channel.Package} {sessionId : SessionId} {message : ProtocolMessage}
    (h : channel.Encoded json package sessionId message)
    (hsession : isBlank ((channel.session package).getD sessionId) = false)
    (hsender : channel.sender package ≠ 0) (hrecipient : channel.recipient package ≠ some 0) :
    message.WellFormed where
  sender := h.sender ▸ hsender
  recipient := h.recipient ▸ hrecipient
  sessionId := h.session ▸ hsession
  kind := fun value hkind => absurd (h.kind.symm.trans hkind) (channel.kind_ne_custom value)

namespace LiveSetting

variable (setting)

/-- The session of a party that has drawn its package. -/
def drawnSession (id : ParticipantId) : FrostDkgSession :=
  ⟨setting.dkgConfig id, some ⟨pendingShares encoding setting.threshold rng id,
    lastWith Round1Package.participantId [publishedInput encoding setting.threshold rng id]⟩⟩

/-- The session of a party that has seen the packages of all parties. -/
def storedSession (id : ParticipantId) : FrostDkgSession :=
  ⟨setting.dkgConfig id, some ⟨pendingShares encoding setting.threshold rng id,
    lastWith Round1Package.participantId (publishedInputs encoding setting.threshold rng)⟩⟩

/-- The messages under which the packages of both rounds are published. -/
structure Texts where
  first : ParticipantId → ProtocolMessage
  second : Round2Package → ProtocolMessage
  first_eq : ∀ id, (publishedInput encoding setting.threshold rng id).toProtocolMessage
    (setting.json .round1) setting.sessionId = .ok (first id)
  second_eq : ∀ package, Round2Package.toProtocolMessage (setting.json .round2) package
    setting.sessionId = .ok (second package)
  first_encoded : ∀ id, Channel.Encoded .round1 (setting.json .round1)
    (publishedInput encoding setting.threshold rng id) setting.sessionId (first id)
  second_encoded : ∀ package, Channel.Encoded .round2 (setting.json .round2) package
    setting.sessionId (second package)

variable {setting}

theorem Complete.exists_texts (h : setting.Complete pedPop) : Nonempty (setting.Texts encoding rng) := by
  choose first hfirst using fun id => Channel.toProtocolMessage_spec .round1 h.round1
    (publishedInput encoding setting.threshold rng id) setting.sessionId
  choose second hsecond using fun package => Channel.toProtocolMessage_spec .round2 h.round2
    package setting.sessionId
  exact ⟨⟨first, second, fun id => (hfirst id).1, fun package => (hsecond package).1,
    fun id => (hfirst id).2, fun package => (hsecond package).2⟩⟩

end LiveSetting

namespace LiveNetwork

variable {encoding rng} {network : LiveNetwork κ} (texts : setting.Texts encoding rng)

/-- The parties of `done` have published their packages, and every party has received them. -/
structure AtRound1 (done : List ParticipantId) (network : LiveNetwork κ) : Prop where
  links : LinksAt setting done.length (fun _ => done.map texts.first) network
  programs : ∀ id ∈ partyIds setting.threshold.participants, (network.devices id).program =
    if id ∈ done then (setting.drawnSession encoding rng id, .collecting, [], [])
    else (FrostDkgSession.new (setting.dkgConfig id), .ready, [], [])

variable {texts} {id sender : ParticipantId} {device : Device κ}

theorem start_publishes (receiver : ShareReceiver pedPop) (h : pedPop.Transmits) (hne : id ≠ 0)
    (nonce : Bytes 32)
    (hprogram : device.program = (FrostDkgSession.new (setting.dkgConfig id), .ready, [], []))
    (hpublish : ((setting.impl nonce (.answered (.ok ()))).publish (texts.first id)
      device.coordinator.transport).1 = .ok ()) :
    let device' := device.advance (setting.impl nonce (.answered (.ok ()))) setting.json pedPop receiver
      (rng id)
    device'.coordinator.transport = ((setting.impl nonce (.answered (.ok ()))).publish (texts.first id)
      device.coordinator.transport).2 ∧
      device'.program = (setting.drawnSession encoding rng id, .collecting, [], []) := by
  obtain ⟨coordinator, own, rfl⟩ := Device.eq_of_program hprogram
  have hround : (FrostDkgSession.new (setting.dkgConfig id)).round1 pedPop (rng id) =
      (.ok (publishedInput encoding setting.threshold rng id), setting.drawnSession encoding rng id) :=
    advance_eq_ok.mp (advance_round1 encoding setting.threshold rng setting.sessionId h hne)
  have hpublished : publishRound1 (setting.impl nonce (.answered (.ok ()))) setting.json
      (FrostDkgSession.new (setting.dkgConfig id)).config.sessionId
      (publishedInput encoding setting.threshold rng id) coordinator =
        (.ok (), ⟨((setting.impl nonce (.answered (.ok ()))).publish (texts.first id)
          coordinator.transport).2⟩) := by
    have hmessage : (publishedInput encoding setting.threshold rng id).toProtocolMessage
        (setting.json .round1) (FrostDkgSession.new (setting.dkgConfig id)).config.sessionId =
          .ok (texts.first id) := texts.first_eq id
    rw [publishRound1, hmessage, publishMessage]
    exact Prod.ext hpublish rfl
  intro device'
  have hdevice : device' = Device.start (setting.impl nonce (.answered (.ok ()))) setting.json pedPop
    (rng id) ⟨coordinator, FrostDkgSession.new (setting.dkgConfig id), .ready, own, [], []⟩ := rfl
  rw [Device.start] at hdevice
  simp only [hround, hpublished] at hdevice
  rw [hdevice]
  exact ⟨rfl, rfl⟩

theorem first_isFor (texts : setting.Texts encoding rng) (sender id : ParticipantId) :
    (texts.first sender).isFor id = true := by
  have hrecipient : (texts.first sender).recipient = none := (texts.first_encoded sender).recipient
  rw [ProtocolMessage.isFor, hrecipient]
  rfl

theorem AtRound1.step (hcomplete : setting.Complete pedPop) (h : pedPop.Transmits)
    {done : List ParticipantId} (hround : AtRound1 texts done network)
    (hsender : sender ∈ partyIds setting.threshold.participants) (hnew : sender ∉ done)
    (hlen : done.length < 256 ^ 32) : ∃ network', Reaches setting receiver network network' ∧
      AtRound1 texts (done ++ [sender]) network' := by
  have hne := (mem_partyIds.mp hsender).1
  have hprogram := hround.programs sender hsender
  rw [if_neg hnew] at hprogram
  have hrecipient : (texts.first sender).recipient = none := (texts.first_encoded sender).recipient
  have hparties : ∀ recipient, (texts.first sender).recipient = some recipient →
      recipient ∈ partyIds setting.threshold.participants := by
    intro recipient hsome
    rw [hrecipient] at hsome
    cases hsome
  have hencrypts : isSecretKind (texts.first sender).kind = true →
      setting.Encrypts (texts.first sender) := by
    intro hsecret
    rw [(texts.first_encoded sender).kind] at hsecret
    cases hsecret
  have hlink := hround.links sender hsender
  obtain ⟨content, tags, hcommand, -⟩ :=
    LiveSetting.exists_command hcomplete hencrypts hlink hparties (encode 32 0)
  obtain ⟨htransport, hstarted⟩ := start_publishes receiver h hne (encode 32 0) hprogram
    (hlink.publish hcommand).1
  obtain ⟨network', hreaches, hlinks, hsame⟩ := reaches_published receiver hcomplete hlen
    hsender hround.links ((texts.first_encoded sender).wellFormed hcomplete.sessionId hne nofun) hencrypts
    hparties htransport
  refine ⟨network', (reaches_advance setting receiver network sender (rng sender) (encode 32 0) _).trans
    hreaches, ?_, ?_⟩
  · intro id hid
    have hlink' := hlinks id hid
    simp only [first_isFor, if_true] at hlink'
    rw [List.length_append, List.length_singleton, List.map_append]
    exact hlink'
  · intro id hid
    rw [hsame id]
    by_cases hself : id = sender
    · subst hself
      rw [devices_update_self, if_pos (List.mem_append_right done (List.mem_singleton_self id))]
      exact hstarted
    · rw [devices_update_of_ne network hself, hround.programs id hid]
      simp only [List.mem_append, List.mem_singleton, hself, or_false]

theorem reaches_round1 (hcomplete : setting.Complete pedPop) (h : pedPop.Transmits)
    (texts : setting.Texts encoding rng) {done todo : List ParticipantId}
    (hids : done ++ todo = partyIds setting.threshold.participants)
    (hround : AtRound1 texts done network) :
    ∃ network', Reaches setting receiver network network' ∧
      AtRound1 texts (partyIds setting.threshold.participants) network' := by
  induction todo generalizing done network with
  | nil =>
    rw [List.append_nil] at hids
    exact ⟨network, .refl, hids ▸ hround⟩
  | cons sender rest ih =>
    have hnd := nodup_partyIds setting.threshold.participants
    have hlength := length_partyIds setting.threshold.participants
    have hlt := setting.threshold.participants.toNat_lt
    rw [← hids] at hnd hlength
    rw [List.length_append] at hlength
    have hnew : sender ∉ done := fun hmem =>
      List.disjoint_of_nodup_append hnd hmem List.mem_cons_self
    have hmem : sender ∈ partyIds setting.threshold.participants := by
      rw [← hids]
      exact List.mem_append_right done List.mem_cons_self
    obtain ⟨network', hreaches, hnext⟩ := hround.step hcomplete h hmem hnew (by omega)
    rw [List.append_cons] at hids
    obtain ⟨network'', hreaches', hfinal⟩ := ih hids hnext
    exact ⟨network'', hreaches.trans hreaches', hfinal⟩

/-- A drain that takes everything out of a device's buffer. -/
theorem drainPackages_all {α : Type} {used : ℕ} {messages : List ProtocolMessage} {link : LiveLink κ}
    (hlink : setting.LinkAt used id messages link) (nonce : Bytes 32) (ack : Ack)
    (only : ProtocolMessage → Bool) (fromProtocolMessage : ProtocolMessage → Result α)
    {encode : α → ProtocolMessage} {packages : List α} (hmessages : messages = packages.map encode)
    (htaken : ∀ package ∈ packages, (encode package).sessionId = setting.sessionId ∧
      only (encode package) = true ∧ fromProtocolMessage (encode package) = .ok package) :
    ∃ link', drainPackages (setting.impl nonce ack) setting.sessionId only fromProtocolMessage ⟨link⟩ =
      (.ok packages, ⟨link'⟩) ∧ setting.LinkAt used id [] link' := by
  have hall : ∀ message ∈ messages,
      (decide (message.sessionId = setting.sessionId) && only message) = true := by
    intro message hmessage
    rw [hmessages] at hmessage
    obtain ⟨package, hpackage, rfl⟩ := List.mem_map.mp hmessage
    obtain ⟨hsession, honly, -⟩ := htaken package hpackage
    simp [hsession, honly]
  have hnone : (messages.filter fun message =>
      !(decide (message.sessionId = setting.sessionId) && only message)) = [] := by
    rw [List.filter_eq_nil_iff]
    intro message hmessage
    rw [hall message hmessage]
    decide
  have hencode : collectResults fromProtocolMessage messages = .ok packages := by
    rw [hmessages, collectResults_map, collectResults_eq_map fun package hpackage =>
      (htaken package hpackage).2.2, List.map_id']
  have hdrain := drainPackages_live setting nonce ack setting.sessionId only fromProtocolMessage link
  simp only [hlink.inbound, List.filter_eq_self.mpr hall, hnone, hencode] at hdrain
  exact ⟨_, hdrain, hlink.withInbound []⟩

theorem collect_drains (receiver : ShareReceiver pedPop) (texts : setting.Texts encoding rng)
    (hid : id ∈ partyIds setting.threshold.participants) {used : ℕ} (draws : pedPop.Rng)
    (nonce : Bytes 32) (ack : Ack)
    (hprogram : device.program = (setting.drawnSession encoding rng id, .collecting, [], []))
    (hlink : setting.LinkAt used id ((partyIds setting.threshold.participants).map texts.first)
      device.coordinator.transport) :
    let device' := device.advance (setting.impl nonce ack) setting.json pedPop receiver draws
    setting.LinkAt used id [] device'.coordinator.transport ∧ device'.program =
      (setting.drawnSession encoding rng id, .collecting,
        publishedInputs encoding setting.threshold rng, []) := by
  obtain ⟨coordinator, own, rfl⟩ := Device.eq_of_program hprogram
  have hpositive : 0 < setting.threshold.participants.toNat := by
    rw [← length_partyIds]
    exact List.length_pos_of_mem hid
  have hmessages : (partyIds setting.threshold.participants).map texts.first =
      (publishedInputs encoding setting.threshold rng).map fun package =>
        texts.first package.participantId := by
    rw [publishedInputs, List.map_map]
    rfl
  have hall : ∀ package ∈ publishedInputs encoding setting.threshold rng,
      (texts.first package.participantId).sessionId = setting.sessionId ∧
        decide ((texts.first package.participantId).kind = .frostDkgRound1) = true ∧
        Round1Package.fromProtocolMessage (setting.json .round1) (texts.first package.participantId) =
          .ok package := by
    intro package hpackage
    obtain ⟨sender, -, rfl⟩ := List.mem_map.mp hpackage
    have hencoded := texts.first_encoded sender
    exact ⟨hencoded.session, decide_eq_true hencoded.kind,
      (@Channel.fromProtocolMessage_eq_ok .round1 _ _ _).mpr (hencoded.genuine trivial)⟩
  obtain ⟨link', hdrain, hlink'⟩ := drainPackages_all hlink nonce ack
    (fun message => message.kind = .frostDkgRound1)
    (Round1Package.fromProtocolMessage (setting.json .round1)) hmessages hall
  intro device'
  have hdevice : device' = Device.collect (setting.impl nonce ack) setting.json pedPop
    ⟨coordinator, setting.drawnSession encoding rng id, .collecting, own, [], []⟩ := rfl
  have hdrained : drainRound1 (setting.impl nonce ack) setting.json
      (setting.drawnSession encoding rng id).config.sessionId coordinator =
        (.ok (publishedInputs encoding setting.threshold rng), ⟨link'⟩) := hdrain
  have hless : List.length ([] : List Round1Package) <
      (setting.drawnSession encoding rng id).config.threshold.participants.toNat := hpositive
  rw [Device.collect] at hdevice
  simp only [hless, if_true, hdrained] at hdevice
  rw [hdevice]
  exact ⟨hlink', rfl⟩

theorem collect_stores (receiver : ShareReceiver pedPop) {aggInput : pedPop.AggKeygenInput}
    (haggregate : drawnAggInput pedPop setting.threshold rng = .ok aggInput) (draws : pedPop.Rng)
    (nonce : Bytes 32) (ack : Ack) (hprogram : device.program =
      (setting.drawnSession encoding rng id, .collecting,
        publishedInputs encoding setting.threshold rng, [])) :
    let device' := device.advance (setting.impl nonce ack) setting.json pedPop receiver draws
    device'.coordinator = device.coordinator ∧ device'.program =
      (setting.storedSession encoding rng id, .sending (publishedShares encoding setting.threshold rng id),
        publishedInputs encoding setting.threshold rng, []) := by
  obtain ⟨coordinator, own, rfl⟩ := Device.eq_of_program hprogram
  have hround : (setting.drawnSession encoding rng id).round2 pedPop
      (publishedInputs encoding setting.threshold rng) =
        (.ok (publishedShares encoding setting.threshold rng id),
          setting.storedSession encoding rng id) := by
    have hadvance := advance_round2 encoding setting.threshold rng setting.sessionId id
      (lastWith Round1Package.participantId [publishedInput encoding setting.threshold rng id])
    rw [haggregate, ok_bind] at hadvance
    exact advance_eq_ok.mp hadvance
  have hlength : (publishedInputs encoding setting.threshold rng).length =
      (setting.drawnSession encoding rng id).config.threshold.participants.toNat := by
    rw [publishedInputs, List.length_map, length_partyIds]
    rfl
  intro device'
  have hdevice : device' = Device.collect (setting.impl nonce ack) setting.json pedPop
    ⟨coordinator, setting.drawnSession encoding rng id, .collecting, own,
      publishedInputs encoding setting.threshold rng, []⟩ := rfl
  rw [Device.collect] at hdevice
  simp only [hlength, lt_irrefl, if_false, if_true, hround] at hdevice
  rw [hdevice]
  exact ⟨rfl, rfl⟩

/-- All shares that the parties publish, in the order of their senders. -/
def letters (setting : LiveSetting κ) (encoding : pedPop.Encoding) (rng : ParticipantId → pedPop.Rng) :
    List Round2Package :=
  ((partyIds setting.threshold.participants).map
    (publishedShares encoding setting.threshold rng)).flatten

/-- Every party has the packages of round one; of the shares it has received those in `sent`, and
it has yet to publish its own in `rest`. -/
structure AtRound2 (texts : setting.Texts encoding rng) (sent rest : List Round2Package)
    (network : LiveNetwork κ) : Prop where
  links : LinksAt setting (setting.threshold.participants.toNat + sent.length)
    (fun id => (sent.filter fun package => package.recipient == id).map texts.second) network
  programs : ∀ id ∈ partyIds setting.threshold.participants, (network.devices id).program =
    (setting.storedSession encoding rng id,
      .sending (rest.filter fun package => package.sender == id),
      publishedInputs encoding setting.threshold rng, [])

theorem filter_sender {f : ParticipantId → List Round2Package}
    (hf : ∀ sender, ∀ package ∈ f sender, package.sender = sender) {ids : List ParticipantId}
    (hnd : ids.Nodup) (hid : id ∈ ids) :
    ((ids.map f).flatten.filter fun package => package.sender == id) = f id := by
  induction ids with
  | nil => cases hid
  | cons first rest ih =>
    rw [List.nodup_cons] at hnd
    rw [List.map_cons, List.flatten_cons, List.filter_append]
    by_cases hfirst : first = id
    · subst hfirst
      have hself : ((f first).filter fun package => package.sender == first) = f first :=
        List.filter_eq_self.mpr fun package hpackage => by simp [hf first package hpackage]
      have hrest : ((rest.map f).flatten.filter fun package => package.sender == first) = [] := by
        rw [List.filter_eq_nil_iff]
        intro package hpackage heq
        obtain ⟨packages, hpackages, hmem⟩ := List.mem_flatten.mp hpackage
        obtain ⟨sender, hsender, rfl⟩ := List.mem_map.mp hpackages
        rw [hf sender package hmem, beq_iff_eq] at heq
        exact hnd.1 (heq ▸ hsender)
      rw [hself, hrest, List.append_nil]
    · have hnone : ((f first).filter fun package => package.sender == id) = [] := by
        rw [List.filter_eq_nil_iff]
        intro package hpackage
        rw [hf first package hpackage, beq_iff_eq]
        exact hfirst
      rw [hnone, List.nil_append]
      exact ih hnd.2 ((List.mem_cons.mp hid).resolve_left (Ne.symm hfirst))

theorem sender_of_publishedShares {sender : ParticipantId} {package : Round2Package}
    (hpackage : package ∈ publishedShares encoding setting.threshold rng sender) :
    package.sender = sender := by
  obtain ⟨share, -, rfl⟩ := List.mem_map.mp hpackage
  rfl

/-- Once all packages are there, every device drains them and starts on its shares. -/
theorem reaches_round2 (hround : AtRound1 texts (partyIds setting.threshold.participants) network)
    {aggInput : pedPop.AggKeygenInput}
    (haggregate : drawnAggInput pedPop setting.threshold rng = .ok aggInput) :
    ∃ network', Reaches setting receiver network network' ∧
      AtRound2 texts [] (letters setting encoding rng) network' := by
  let act (id : ParticipantId) : Device κ → Device κ :=
    Device.advance (setting.impl (encode 32 0) .gone) setting.json pedPop receiver (rng id)
  obtain ⟨network', hreaches, -, hdevices⟩ := reaches_each (fun id => (act id)^[2])
    (nodup_partyIds setting.threshold.participants) network
    fun network' _ id _ _ => reaches_iterate network' id (rng id) (encode 32 0) .gone 2
  have hdevice : ∀ id ∈ partyIds setting.threshold.participants,
      setting.LinkAt setting.threshold.participants.toNat id []
        (network'.devices id).coordinator.transport ∧ (network'.devices id).program =
          (setting.storedSession encoding rng id,
            .sending (publishedShares encoding setting.threshold rng id),
            publishedInputs encoding setting.threshold rng, []) := by
    intro id hid
    have hprogram := hround.programs id hid
    rw [if_pos hid] at hprogram
    have hlink := hround.links id hid
    rw [length_partyIds] at hlink
    obtain ⟨hlink', hdrained⟩ := collect_drains receiver texts hid (rng id) (encode 32 0) .gone
      hprogram hlink
    obtain ⟨hcoordinator, hstored⟩ := collect_stores receiver haggregate (rng id) (encode 32 0) .gone
      hdrained
    rw [hdevices id, if_pos hid]
    refine ⟨?_, hstored⟩
    rw [← hcoordinator] at hlink'
    exact hlink'
  refine ⟨network', hreaches, fun id hid => (hdevice id hid).1, fun id hid => ?_⟩
  rw [(hdevice id hid).2, letters, filter_sender (fun sender package => sender_of_publishedShares)
    (nodup_partyIds _) hid]

theorem second_isFor (texts : setting.Texts encoding rng) (package : Round2Package) (id : ParticipantId) :
    (texts.second package).isFor id = (package.recipient == id) := by
  have hrecipient : (texts.second package).recipient = some package.recipient :=
    (texts.second_encoded package).recipient
  rw [ProtocolMessage.isFor, hrecipient]
  rfl

theorem send_publishes (receiver : ShareReceiver pedPop) (texts : setting.Texts encoding rng)
    {package : Round2Package} {rest : List Round2Package} (draws : pedPop.Rng) (nonce : Bytes 32)
    (hprogram : device.program = (setting.storedSession encoding rng id, .sending (package :: rest),
      publishedInputs encoding setting.threshold rng, []))
    (hpublish : ((setting.impl nonce (.answered (.ok ()))).publish (texts.second package)
      device.coordinator.transport).1 = .ok ()) :
    let device' := device.advance (setting.impl nonce (.answered (.ok ()))) setting.json pedPop receiver
      draws
    device'.coordinator.transport = ((setting.impl nonce (.answered (.ok ()))).publish
      (texts.second package) device.coordinator.transport).2 ∧
      device'.program = (setting.storedSession encoding rng id, .sending rest,
        publishedInputs encoding setting.threshold rng, []) := by
  obtain ⟨coordinator, own, rfl⟩ := Device.eq_of_program hprogram
  have hpublished : publishRound2 (setting.impl nonce (.answered (.ok ()))) setting.json
      (setting.storedSession encoding rng id).config.sessionId package coordinator =
        (.ok (), ⟨((setting.impl nonce (.answered (.ok ()))).publish (texts.second package)
          coordinator.transport).2⟩) := by
    have hmessage : Round2Package.toProtocolMessage (setting.json .round2) package
        (setting.storedSession encoding rng id).config.sessionId = .ok (texts.second package) :=
      texts.second_eq package
    rw [publishRound2, hmessage, publishMessage]
    exact Prod.ext hpublish rfl
  intro device'
  have hdevice : device' = Device.send (setting.impl nonce (.answered (.ok ()))) setting.json package rest
    ⟨coordinator, setting.storedSession encoding rng id, .sending (package :: rest), own,
      publishedInputs encoding setting.threshold rng, []⟩ := rfl
  rw [Device.send] at hdevice
  simp only [hpublished] at hdevice
  rw [hdevice]
  exact ⟨rfl, rfl⟩

theorem AtRound2.step (receiver : ShareReceiver pedPop) (hcomplete : setting.Complete pedPop)
    {package : Round2Package} {sent rest : List Round2Package}
    (hround : AtRound2 texts sent (package :: rest) network)
    (hsender : package.sender ∈ partyIds setting.threshold.participants)
    (hrecipient : package.recipient ∈ partyIds setting.threshold.participants)
    (hencrypts : setting.Encrypts (texts.second package))
    (hlen : setting.threshold.participants.toNat + sent.length < 256 ^ 32) :
    ∃ network', Reaches setting receiver network network' ∧
      AtRound2 texts (sent ++ [package]) rest network' := by
  have hprogram := hround.programs package.sender hsender
  rw [List.filter_cons_of_pos (by simp)] at hprogram
  have hparties : ∀ recipient, (texts.second package).recipient = some recipient →
      recipient ∈ partyIds setting.threshold.participants := by
    intro recipient hsome
    have hto : (texts.second package).recipient = some package.recipient :=
      (texts.second_encoded package).recipient
    rw [hto, Option.some_inj] at hsome
    exact hsome ▸ hrecipient
  have hwf := (texts.second_encoded package).wellFormed hcomplete.sessionId (mem_partyIds.mp hsender).1
    fun heq => (mem_partyIds.mp hrecipient).1 (Option.some.inj heq)
  have hlink := hround.links package.sender hsender
  obtain ⟨content, tags, hcommand, -⟩ :=
    LiveSetting.exists_command hcomplete (fun _ => hencrypts) hlink hparties (encode 32 0)
  obtain ⟨htransport, hsent⟩ := send_publishes receiver texts (rng package.sender) (encode 32 0) hprogram
    (hlink.publish hcommand).1
  obtain ⟨network', hreaches, hlinks, hsame⟩ := reaches_published receiver hcomplete hlen hsender
    hround.links hwf (fun _ => hencrypts) hparties htransport
  refine ⟨network', (reaches_advance setting receiver network package.sender (rng package.sender)
    (encode 32 0) _).trans hreaches, ?_, ?_⟩
  · intro id hid
    have hlink' := hlinks id hid
    have hinbox : ((sent ++ [package]).filter fun package => package.recipient == id).map texts.second =
        (sent.filter fun package => package.recipient == id).map texts.second ++
          if (texts.second package).isFor id then [texts.second package] else [] := by
      rw [List.filter_append, List.map_append, second_isFor]
      by_cases hself : package.recipient = id
      · simp [hself]
      · simp [hself]
    change setting.LinkAt _ id
      (((sent ++ [package]).filter fun package => package.recipient == id).map texts.second) _
    rw [List.length_append, List.length_singleton, ← Nat.add_assoc, hinbox]
    exact hlink'
  · intro id hid
    rw [hsame id]
    by_cases hself : id = package.sender
    · subst hself
      rw [devices_update_self]
      exact hsent
    · rw [devices_update_of_ne network hself, hround.programs id hid,
        List.filter_cons_of_neg (by simpa using Ne.symm hself)]

theorem reaches_sent (hcomplete : setting.Complete pedPop) {sent rest : List Round2Package}
    (hround : AtRound2 texts sent rest network)
    (hparties : ∀ package ∈ rest, package.sender ∈ partyIds setting.threshold.participants ∧
      package.recipient ∈ partyIds setting.threshold.participants ∧
      setting.Encrypts (texts.second package))
    (hlen : setting.threshold.participants.toNat + sent.length + rest.length < 256 ^ 32) :
    ∃ network', Reaches setting receiver network network' ∧
      AtRound2 texts (sent ++ rest) [] network' := by
  induction rest generalizing sent network with
  | nil =>
    rw [List.append_nil]
    exact ⟨network, .refl, hround⟩
  | cons package rest ih =>
    rw [List.forall_mem_cons] at hparties
    rw [List.length_cons] at hlen
    obtain ⟨network', hreaches, hnext⟩ := hround.step receiver hcomplete hparties.1.1
      hparties.1.2.1 hparties.1.2.2 (by omega)
    obtain ⟨network'', hreaches', hfinal⟩ := ih hnext hparties.2
      (by rw [List.length_append, List.length_singleton]; omega)
    rw [List.append_cons]
    exact ⟨network'', hreaches.trans hreaches', hfinal⟩

theorem length_receiveLoop {packages : List Round2Package} {seen : Finset ParticipantId}
    {shares : List Scalar} (h : receiveLoop pedPop packages seen = .ok shares) :
    shares.length = packages.length := by
  induction packages generalizing seen shares with
  | nil =>
    rw [receiveLoop, Except.ok.injEq] at h
    rw [← h]
    rfl
  | cons package rest ih =>
    rw [receiveLoop] at h
    by_cases hseen : package.sender ∈ seen
    · rw [if_pos hseen] at h
      cases h
    · rw [if_neg hseen] at h
      obtain ⟨share, -, h⟩ := bind_eq_ok.mp h
      obtain ⟨others, hrest, h⟩ := bind_eq_ok.mp h
      rw [Except.ok.injEq] at h
      rw [← h, List.length_cons, List.length_cons, ih hrest]

/-- A session looks at the shares for itself only. -/
theorem finalize_filter (session : FrostDkgSession) (packages : List Round2Package) :
    session.finalize pedPop receiver
      (packages.filter fun package => package.recipient == session.config.participantId) =
        session.finalize pedPop receiver packages := by
  rw [finalize, finalize, List.filter_filter]
  simp only [Bool.and_self]

/-- The shares that the parties send to one of them. -/
def lettersTo (setting : LiveSetting κ) (encoding : pedPop.Encoding) (rng : ParticipantId → pedPop.Rng)
    (id : ParticipantId) : List Round2Package :=
  (letters setting encoding rng).filter fun package => package.recipient == id

theorem length_lettersTo (h : pedPop.Transmits) (hid : id ∈ partyIds setting.threshold.participants) :
    (lettersTo setting encoding rng id).length = setting.threshold.participants.toNat := by
  obtain ⟨hreceive, hcount⟩ := receive_publishedShares encoding setting.threshold rng h hid
  rw [← hcount, length_receiveLoop hreceive]
  rfl

theorem length_letters (h : pedPop.Transmits) : (letters setting encoding rng).length =
    setting.threshold.participants.toNat * setting.threshold.participants.toNat := by
  have hlength : ∀ sender : ParticipantId,
      (publishedShares encoding setting.threshold rng sender).length =
        setting.threshold.participants.toNat := by
    intro sender
    have hperm := h.indices setting.threshold.threshold.toUInt32 _ (sender.toUInt32 - 1) (rng sender)
      (nodup_indices setting.threshold.participants)
    have hdrawn := hperm.length_eq
    rw [List.length_map, List.length_map, length_partyIds] at hdrawn
    rw [publishedShares, pendingShares, List.length_map, List.length_map]
    exact hdrawn
  rw [letters, List.length_flatten, List.map_map]
  simp only [Function.comp_def, hlength, List.map_const', List.sum_replicate, smul_eq_mul,
    length_partyIds]

/-- Shares go from parties to parties, and NIP-44 takes their messages. -/
theorem exists_letter (hcomplete : setting.Complete pedPop) (h : pedPop.Transmits)
    (texts : setting.Texts encoding rng) {package : Round2Package}
    (hpackage : package ∈ letters setting encoding rng) :
    package.sender ∈ partyIds setting.threshold.participants ∧
      package.recipient ∈ partyIds setting.threshold.participants ∧
      setting.Encrypts (texts.second package) := by
  obtain ⟨packages, hpackages, hmem⟩ := List.mem_flatten.mp hpackage
  obtain ⟨sender, hsender, rfl⟩ := List.mem_map.mp hpackages
  obtain ⟨share, hshare, rfl⟩ := List.mem_map.mp hmem
  obtain ⟨entry, hentry, rfl⟩ := List.mem_map.mp hshare
  obtain ⟨recipient, hrecipient, heq⟩ := exists_recipient setting.threshold rng h hentry
  refine ⟨hsender, ?_, ?_⟩
  · change UInt16.ofNat entry.1.val ∈ _
    rw [heq, val_index, UInt16.ofNat_toNat]
    exact hrecipient
  · exact hcomplete.encrypts _ entry.2 _ (encoding.serialize_share entry.2) (texts.second_eq _)

theorem sent_turns (receiver : ShareReceiver pedPop) (draws : pedPop.Rng) (nonce : Bytes 32) (ack : Ack)
    (hprogram : device.program = (setting.storedSession encoding rng id, .sending [],
      publishedInputs encoding setting.threshold rng, [])) :
    let device' := device.advance (setting.impl nonce ack) setting.json pedPop receiver draws
    device'.coordinator = device.coordinator ∧ device'.program =
      (setting.storedSession encoding rng id, .receiving,
        publishedInputs encoding setting.threshold rng, []) := by
  obtain ⟨coordinator, own, rfl⟩ := Device.eq_of_program hprogram
  exact ⟨rfl, rfl⟩

theorem receive_eq (receiver : ShareReceiver pedPop) {impl : Transport (LiveLink κ)}
    {json : PackageCodecs} {coordinator : FrostCoordinator (LiveLink κ)} {packages : List Round2Package}
    (hless : device.round2.length < device.session.config.threshold.participants.toNat)
    (hdrain : drainRound2For impl json device.session.config.sessionId
      device.session.config.participantId device.coordinator = (.ok packages, coordinator)) :
    device.receive impl json pedPop receiver =
      { device with coordinator := coordinator, round2 := device.round2 ++ packages } := by
  rw [Device.receive]
  simp only [hless, if_true, hdrain]

theorem receive_drains (receiver : ShareReceiver pedPop) (texts : setting.Texts encoding rng)
    (hid : id ∈ partyIds setting.threshold.participants) {used : ℕ} (draws : pedPop.Rng)
    (nonce : Bytes 32) (ack : Ack)
    (hprogram : device.program = (setting.storedSession encoding rng id, .receiving,
      publishedInputs encoding setting.threshold rng, []))
    (hlink : setting.LinkAt used id ((lettersTo setting encoding rng id).map texts.second)
      device.coordinator.transport) :
    (device.advance (setting.impl nonce ack) setting.json pedPop receiver draws).program =
      (setting.storedSession encoding rng id, .receiving,
        publishedInputs encoding setting.threshold rng, lettersTo setting encoding rng id) := by
  obtain ⟨coordinator, own, rfl⟩ := Device.eq_of_program hprogram
  have hpositive : 0 < setting.threshold.participants.toNat := by
    rw [← length_partyIds]
    exact List.length_pos_of_mem hid
  have hall : ∀ package ∈ lettersTo setting encoding rng id,
      (texts.second package).sessionId = setting.sessionId ∧
        (decide ((texts.second package).kind = .frostDkgRound2) &&
          (texts.second package).isFor id) = true ∧
        Round2Package.fromProtocolMessage (setting.json .round2) (texts.second package) = .ok package := by
    intro package hpackage
    have hencoded := texts.second_encoded package
    have hmine : (texts.second package).isFor id = true := by
      rw [second_isFor]
      exact (List.mem_filter.mp hpackage).2
    rw [hmine, Bool.and_true]
    exact ⟨hencoded.session, decide_eq_true hencoded.kind,
      (@Channel.fromProtocolMessage_eq_ok .round2 _ _ _).mpr (hencoded.genuine trivial)⟩
  obtain ⟨link', hdrain, -⟩ := drainPackages_all hlink nonce ack
    (fun message => message.kind = .frostDkgRound2 && message.isFor id)
    (Round2Package.fromProtocolMessage (setting.json .round2)) rfl hall
  have hdrained : drainRound2For (setting.impl nonce ack) setting.json
      (setting.storedSession encoding rng id).config.sessionId
      (setting.storedSession encoding rng id).config.participantId coordinator =
        (.ok (lettersTo setting encoding rng id), ⟨link'⟩) := hdrain
  have hless : List.length ([] : List Round2Package) <
      (setting.storedSession encoding rng id).config.threshold.participants.toNat := hpositive
  exact congrArg Device.program (receive_eq receiver hless hdrained)

theorem receive_finishes (h : pedPop.Transmits) (hid : id ∈ partyIds setting.threshold.participants)
    {aggInput : pedPop.AggKeygenInput}
    (haggregate : drawnAggInput pedPop setting.threshold rng = .ok aggInput) {share : LocalKeyShare}
    (hshare : receiver.localShare aggInput id (drawnShares pedPop setting.threshold rng id) = .ok share)
    (draws : pedPop.Rng) (nonce : Bytes 32) (ack : Ack)
    (hprogram : device.program = (setting.storedSession encoding rng id, .receiving,
      publishedInputs encoding setting.threshold rng, lettersTo setting encoding rng id)) :
    (device.advance (setting.impl nonce ack) setting.json pedPop receiver draws).phase =
      .finished share := by
  obtain ⟨coordinator, own, rfl⟩ := Device.eq_of_program hprogram
  have hlength : (lettersTo setting encoding rng id).length =
      (setting.storedSession encoding rng id).config.threshold.participants.toNat :=
    length_lettersTo h hid
  have hfinal : (setting.storedSession encoding rng id).finalize pedPop receiver
      (lettersTo setting encoding rng id) = .ok share := by
    have hdirect := @finalize_published pedPop receiver encoding setting.threshold rng
      setting.sessionId h id hid
    rw [haggregate, ok_bind, hshare] at hdirect
    exact (finalize_filter (setting.storedSession encoding rng id)
      (letters setting encoding rng)).trans hdirect
  change (Device.receive (setting.impl nonce ack) setting.json pedPop receiver
    ⟨coordinator, setting.storedSession encoding rng id, .receiving, own,
      publishedInputs encoding setting.threshold rng, lettersTo setting encoding rng id⟩).phase = _
  rw [Device.receive]
  simp only [hlength, lt_irrefl, if_false, if_true, hfinal]

/-- Once all shares are there, every device drains its own and finishes. -/
theorem reaches_finished (h : pedPop.Transmits)
    (hround : AtRound2 texts (letters setting encoding rng) [] network) {aggInput : pedPop.AggKeygenInput}
    (haggregate : drawnAggInput pedPop setting.threshold rng = .ok aggInput) :
    ∃ network', Reaches setting receiver network network' ∧
      ∀ id ∈ partyIds setting.threshold.participants, ∀ share,
        receiver.localShare aggInput id (drawnShares pedPop setting.threshold rng id) = .ok share →
          (network'.devices id).phase = .finished share := by
  let act (id : ParticipantId) : Device κ → Device κ :=
    Device.advance (setting.impl (encode 32 0) .gone) setting.json pedPop receiver (rng id)
  obtain ⟨network', hreaches, -, hdevices⟩ := reaches_each (fun id => (act id)^[3])
    (nodup_partyIds setting.threshold.participants) network
    fun network' _ id _ _ => reaches_iterate network' id (rng id) (encode 32 0) .gone 3
  refine ⟨network', hreaches, fun id hid share hshare => ?_⟩
  obtain ⟨hcoordinator, hturned⟩ := sent_turns receiver (rng id) (encode 32 0) .gone
    (hround.programs id hid)
  have hlink := hround.links id hid
  rw [← hcoordinator] at hlink
  have hdrained := receive_drains receiver texts hid (rng id) (encode 32 0) .gone hturned hlink
  rw [hdevices id, if_pos hid]
  exact receive_finishes h hid haggregate hshare (rng id) (encode 32 0) .gone hdrained

theorem reaches_connected (receiver : ShareReceiver pedPop) (texts : setting.Texts encoding rng) :
    ∃ network, Reaches setting receiver ⟨setting.device, []⟩ network ∧ AtRound1 texts [] network := by
  let connected (_ : ParticipantId) (device : Device κ) : Device κ := { device with
    coordinator := ⟨{ device.coordinator.transport with
      connections := device.coordinator.transport.connections.connect .ready }⟩ }
  obtain ⟨network, hreaches, -, hdevices⟩ := reaches_each connected
    (nodup_partyIds setting.threshold.participants) ⟨setting.device, []⟩
    fun network' _ id _ _ => .single ⟨(.connect id .ready : NetworkStep pedPop), rfl⟩
  refine ⟨network, hreaches, fun id hid => ?_, fun id hid => ?_⟩
  · rw [hdevices id, if_pos hid]
    exact setting.linkAt_connect id
  · rw [hdevices id, if_pos hid, if_neg List.not_mem_nil]
    rfl

end LiveNetwork

end Phases

section Completion

variable {κ : Type} {setting : LiveSetting κ} {pedPop : SimplePedPop} {receiver : ShareReceiver pedPop}
  {rng : ParticipantId → pedPop.Rng} {shares : List LocalKeyShare}

open LiveNetwork

theorem exists_finished (hcomplete : setting.Complete pedPop) (h : pedPop.Transmits)
    (hdirect : directFrostDkg pedPop receiver setting.threshold rng = .ok shares) :
    ∃ network, Reaches setting receiver ⟨setting.device, []⟩ network ∧
      List.Forall₂ (fun id share => (network.devices id).phase = .finished share)
        (partyIds setting.threshold.participants) shares := by
  obtain ⟨aggInput, haggregate, hshares⟩ := bind_eq_ok.mp hdirect
  obtain ⟨encoding⟩ := h.exists_encoding
  obtain ⟨texts⟩ := hcomplete.exists_texts encoding rng
  obtain ⟨connected, hconnects, hconnected⟩ := reaches_connected receiver texts
  obtain ⟨drawn, hdraws, hdrawn⟩ :=
    reaches_round1 hcomplete h texts (List.nil_append _) hconnected
  obtain ⟨stored, hstores, hstored⟩ := reaches_round2 hdrawn haggregate
  obtain ⟨sent, hsends, hsent⟩ := reaches_sent hcomplete hstored
    (fun package => exists_letter hcomplete h texts) (by
      have hlt := setting.threshold.participants.toNat_lt
      rw [length_letters h, List.length_nil]
      nlinarith)
  rw [List.nil_append] at hsent
  obtain ⟨network, hfinishes, hfinished⟩ := reaches_finished h hsent haggregate
  refine ⟨network, hconnects.trans (hdraws.trans (hstores.trans (hsends.trans hfinishes))), ?_⟩
  have hparties := (List.forall₂_and_left _ _).mpr
    ⟨fun id (hid : id ∈ partyIds setting.threshold.participants) => hid,
      collectResults_eq_ok.mp hshares⟩
  exact hparties.imp fun id share hparty => hfinished id hparty.1 share hparty.2

/-- What the ceremony in one process returns, apart from its sessions. -/
theorem direct_of_local (h : pedPop.Transmits) {threshold : ThresholdConfig}
    (hpositive : partyIds threshold.participants ≠ []) {sessionId : String}
    (hlocal : runLocalFrostDkg pedPop receiver sessionId threshold.threshold threshold.participants rng =
      .ok shares) : directFrostDkg pedPop receiver threshold rng = .ok shares := by
  rw [runLocalFrostDkg_positive h sessionId threshold.threshold hpositive] at hlocal
  obtain ⟨name, -, hrest⟩ := bind_eq_ok.mp hlocal
  obtain ⟨config, hconfig, hdirect⟩ := bind_eq_ok.mp hrest
  obtain ⟨-, -, rfl⟩ := ThresholdConfig.new_eq_ok.mp hconfig
  exact hdirect

end Completion

section Witness

/-- Two devices that know each other's keys. -/
noncomputable def pairSetting : LiveSetting PublicKey where
  wire := helloWire
  nip44 := plainNip44
  json := helloCodecs
  sessionId := "dkg-demo"
  threshold := ⟨2, 2⟩
  keys := plainKey
  directory := (ParticipantDirectory.new.insert 1 (plainKey 1)).insert 2 (plainKey 2)
  vaultTag := "vault-1"

theorem pairSetting_directory {id : ParticipantId} (hid : id = 1 ∨ id = 2) :
    pairSetting.directory.get id = some (plainKey id) := by
  rcases hid with rfl | rfl
  · rfl
  · rfl

theorem partyIds_pair : partyIds pairSetting.threshold.participants = [1, 2] := by
  change partyIds 2 = [1, 2]
  decide

theorem pairSetting_complete : pairSetting.Complete shamirPedPop where
  wire := helloWire_roundTrips
  round1 := helloCodecs_roundTrips .round1
  round2 := helloCodecs_roundTrips .round2
  nip44 := plainNip44_inverts
  encrypts := fun _ _ _ _ _ _ _ _ _ _ => ⟨_, rfl⟩
  directory := by
    intro id hid
    rw [partyIds_pair] at hid
    exact pairSetting_directory (by simpa using hid)
  vaultTag := by
    change helloWire.KeepsVaultTag "vault-1"
    rw [keepsVaultTag_iff helloWire_lowersHashtags (by simp)]
    simp
  sessionId := by decide

theorem pairSetting_sound : pairSetting.Sound where
  wire := helloWire_roundTrips
  round1 := helloCodecs_roundTrips .round1
  nip44 := plainNip44_inverts
  directory := by
    intro id key hkey
    by_cases hid : id = 1 ∨ id = 2
    · rw [pairSetting_directory hid, Option.some_inj] at hkey
      exact hkey.symm
    · rw [not_or] at hid
      have hnone : pairSetting.directory.get id = none :=
        (Function.update_of_ne hid.2 _ _).trans (Function.update_of_ne hid.1 _ _)
      rw [hnone] at hkey
      cases hkey

end Witness

/-- In every run, a device that finishes holds the group key of the packages that the parties
have drawn, so no two devices finish with different group keys. -/
theorem liveCeremony_agrees {κ : Type} (setting : LiveSetting κ) (hsound : setting.Sound)
    {pedPop : SimplePedPop} (receiver : ShareReceiver pedPop) (steps : List (NetworkStep pedPop)) :
    let devices := (LiveNetwork.run setting receiver steps).devices
    (∀ id share, (devices id).phase = .finished share → share.participantId = id ∧
      ∃ packages : List Round1Package,
        ((partyIds setting.threshold.participants).map fun party => (devices party).own) =
          packages.map some ∧
        ((setting.dkgConfig id).aggregateKeygenInputs pedPop packages >>= receiver.groupKey) =
          .ok share.groupKey) ∧
    ∀ id id' share share', (devices id).phase = .finished share →
      (devices id').phase = .finished share' → share.groupKey = share'.groupKey := by
  intro devices
  have hrun : setting.NetworkSound receiver (LiveNetwork.run setting receiver steps) :=
    LiveSetting.networkSound_run hsound steps
  have hfinished : ∀ id share, (devices id).phase = .finished share → share.participantId = id ∧
      setting.IsDrawnKey receiver (LiveNetwork.run setting receiver steps).drawn id share.groupKey := by
    intro id share hshare
    have hphase := (hrun.devices id).phase
    rw [hshare] at hphase
    exact hphase
  refine ⟨hfinished, fun id id' share share' hshare hshare' => ?_⟩
  obtain ⟨-, packages, hpackages, hkey⟩ := hfinished id share hshare
  obtain ⟨-, packages', hpackages', hkey'⟩ := hfinished id' share' hshare'
  have hsame : packages = packages' :=
    List.map_injective_iff.mpr (Option.some_injective _) (hpackages.symm.trans hpackages')
  have hinputs : (setting.dkgConfig id').aggregateKeygenInputs pedPop packages =
      (setting.dkgConfig id).aggregateKeygenInputs pedPop packages :=
    aggregateKeygenInputs_congr rfl packages
  rw [← hsame, hinputs, hkey] at hkey'
  exact Except.ok.inj hkey'

/-- Both devices finish, with one group key. -/
theorem liveCeremony_agrees_pair : ∃ (steps : List (NetworkStep shamirPedPop))
    (first second : LocalKeyShare),
    ((LiveNetwork.run pairSetting shamirReceiver steps).devices 1).phase = .finished first ∧
      ((LiveNetwork.run pairSetting shamirReceiver steps).devices 2).phase = .finished second ∧
      first.groupKey = second.groupKey := by
  obtain ⟨shares, hdirect, -⟩ := directFrostDkg_pair
  obtain ⟨network, hreaches, hfinished⟩ :=
    exists_finished pairSetting_complete shamirPedPop_transmits hdirect
  obtain ⟨steps, rfl⟩ := hreaches.exists_run
  rw [partyIds_pair] at hfinished
  obtain ⟨first, rest, hfirst, hrest, -⟩ := List.forall₂_cons_left_iff.mp hfinished
  obtain ⟨second, -, hsecond, -⟩ := List.forall₂_cons_left_iff.mp hrest
  exact ⟨steps, first, second, hfirst, hsecond,
    (liveCeremony_agrees pairSetting pairSetting_sound shamirReceiver steps).2 1 2 first second hfirst
      hsecond⟩

/-- Over a relay that loses nothing there is a run in which every party finishes, with the share
that `run_local_frost_dkg` returns for it. -/
theorem liveCeremony_completes {κ : Type} (setting : LiveSetting κ) {pedPop : SimplePedPop}
    (hcomplete : setting.Complete pedPop) (h : pedPop.Transmits) (receiver : ShareReceiver pedPop)
    (rng : ParticipantId → pedPop.Rng) {shares : List LocalKeyShare}
    (hlocal : runLocalFrostDkg pedPop receiver setting.sessionId setting.threshold.threshold
      setting.threshold.participants rng = .ok shares) :
    ∃ steps : List (NetworkStep pedPop), List.Forall₂ (fun id share =>
      ((LiveNetwork.run setting receiver steps).devices id).phase = .finished share)
        (partyIds setting.threshold.participants) shares := by
  by_cases hzero : setting.threshold.participants = 0
  · -- without parties `run_local_frost_dkg` succeeds with no shares
    rw [hzero] at hlocal ⊢
    obtain rfl : [] = shares := Except.ok.inj hlocal
    exact ⟨[], .nil⟩
  · have hdirect := direct_of_local h (partyIds_ne_nil hzero) hlocal
    obtain ⟨network, hreaches, hfinished⟩ := exists_finished hcomplete h hdirect
    obtain ⟨steps, rfl⟩ := hreaches.exists_run
    exact ⟨steps, hfinished⟩

theorem liveCeremony_completes_pair : ∃ (steps : List (NetworkStep shamirPedPop))
    (shares : List LocalKeyShare), shares.map LocalKeyShare.participantId = [1, 2] ∧
      List.Forall₂ (fun id share =>
        ((LiveNetwork.run pairSetting shamirReceiver steps).devices id).phase = .finished share)
          [1, 2] shares := by
  obtain ⟨shares, hdirect, hids⟩ := directFrostDkg_pair
  have hname : SessionId.new "dkg-demo" = .ok "dkg-demo" := by decide
  have hconfig : ThresholdConfig.new 2 2 = .ok ⟨2, 2⟩ := by decide
  have hlocal : runLocalFrostDkg shamirPedPop shamirReceiver "dkg-demo" 2 2 (fun _ _ => 1) =
      .ok shares := by
    rw [runLocalFrostDkg_positive shamirPedPop_transmits "dkg-demo" 2 (by decide), hname, ok_bind,
      hconfig, ok_bind, hdirect]
  obtain ⟨steps, hfinished⟩ := liveCeremony_completes pairSetting pairSetting_complete
    shamirPedPop_transmits shamirReceiver (fun _ _ => 1) hlocal
  rw [partyIds_pair] at hfinished
  exact ⟨steps, shares, hids, hfinished⟩

end DkgKit
