import DkgKit.Relay

/-! The live relay transport: what it publishes, and what its receivers make of it. The
relay thread and the Nostr client answer from outside; NIP-44 is a parameter. -/

open BigEndian SelectiveQueue

namespace DkgKit

section Tags

namespace NostrEnvelopeEvent

def tags (event : NostrEnvelopeEvent) : List (List String) :=
  [["app", event.app], ["session", event.sessionId], ["sender", toString event.sender],
    ["message_kind", event.messageKind]] ++
    match event.recipient with
    | some recipient => [["recipient", toString recipient]]
    | none => []

end NostrEnvelopeEvent

def vaultHashtag (vaultTag : String) : String := s!"dkgkit:{vaultTag}"

def buildEventTags (wire : Wire) (envelope : NostrEnvelopeEvent) (vaultTag : String)
    (encryptedRecipient : Option PublicKey) : List (List String) :=
  envelope.tags ++ [["t", wire.hashtag (vaultHashtag vaultTag)]] ++
    match encryptedRecipient with
    | some recipient => [["p", hexText recipient.toList], ["encrypted", "nip44"]]
    | none => []

/-- What `Filter::hashtag` asks for: a `t` tag with this very value. -/
def hasHashtag (hashtag : String) (event : Event) : Bool :=
  event.tags.any fun tag => tag.head? == some "t" && tag.tail.head? == some hashtag

/-- The tag of the vault's events is the one that its subscriptions ask for. -/
def Wire.KeepsVaultTag (wire : Wire) (vaultTag : String) : Prop :=
  wire.hashtag (vaultHashtag vaultTag) = vaultHashtag vaultTag

end Tags

section Transport

/-- The Nostr identities and both directions of NIP-44. Encryption draws a nonce. -/
structure Nip44Scheme (κ : Type) extends Nip44 κ where
  publicKey : κ → PublicKey
  encrypt : κ → PublicKey → Bytes 32 → String → Except String String

/-- The key pair that a text was encrypted for decrypts it. -/
def Nip44Scheme.Inverts {κ : Type} (nip44 : Nip44Scheme κ) : Prop :=
  ∀ sender receiver nonce text ciphertext,
    nip44.encrypt sender (nip44.publicKey receiver) nonce text = .ok ciphertext →
      nip44.decrypt receiver (nip44.publicKey sender) ciphertext = .ok text

def encryptFor {κ : Type} (nip44 : Nip44Scheme κ) (sender : κ) (recipient : PublicKey) (nonce : Bytes 32)
    (plaintext : String) : Result String :=
  match nip44.encrypt sender recipient nonce plaintext with
  | .ok ciphertext => .ok ciphertext
  | .error err => fail (.protocol s!"nip44 encrypt failed: {err}")

def isSecretKind : ProtocolMessageKind → Bool
  | .frostDkgRound2 => true
  | .htssDkgRound2 => true
  | _ => false

inductive Command
  | publish (content : String) (tags : List (List String))
  | shutdown
  deriving DecidableEq

/-- `cmdTx` and `handle` name the relay thread at the other end. -/
structure LiveNostrTransport (κ : Type) where
  cfg : LiveNostrTransportConfig κ
  vaultTag : String
  cmdTx : Option ℕ
  inbound : List ProtocolMessage
  handle : Option ℕ
  connected : Bool

/-- How a new relay thread reports: ready, with an error, or not in time. -/
inductive Ready
  | ready
  | failed (error : DkgKitError)
  | timedOut

/-- What becomes of a command: the thread is gone, does not answer in time, or answers. -/
inductive Ack
  | gone
  | timedOut
  | answered (result : Result Unit)

namespace LiveNostrTransport

variable {κ : Type}

def new (cfg : LiveNostrTransportConfig κ) (vaultTag : String) : LiveNostrTransport κ :=
  ⟨cfg, vaultTag, none, [], none, false⟩

def pendingLen (transport : LiveNostrTransport κ) : ℕ := transport.inbound.length

def connect (transport : LiveNostrTransport κ) (thread : ℕ) (report : Ready) :
    Result Unit × LiveNostrTransport κ :=
  if transport.connected then (.ok (), transport)
  else
    match report with
    | .ready => (.ok (), { transport with cmdTx := some thread, handle := some thread, connected := true })
    | .failed error => (fail error, transport)
    | .timedOut => (fail (.transport "relay connect timed out"), transport)

def disconnect (transport : LiveNostrTransport κ) : Result Unit × LiveNostrTransport κ :=
  (.ok (), { transport with cmdTx := none, handle := none, connected := false })

def publishCommand (wire : Wire) (nip44 : Nip44Scheme κ) (transport : LiveNostrTransport κ)
    (message : ProtocolMessage) (nonce : Bytes 32) : Result Command := do
  let envelope ← NostrEnvelopeEvent.fromProtocolMessage wire message
  match isSecretKind message.kind, message.recipient with
  | true, some recipientId =>
    let recipientPk ← okOr (.transport s!"no directory pubkey for participant {recipientId}")
      (transport.cfg.directory.get recipientId)
    let ciphertext ← encryptFor nip44 transport.cfg.keys recipientPk nonce envelope.content
    .ok (.publish ciphertext (buildEventTags wire envelope transport.vaultTag (some recipientPk)))
  | _, _ => .ok (.publish envelope.content (buildEventTags wire envelope transport.vaultTag none))

/-- `publish`, together with the command that it has enqueued. -/
def publish (wire : Wire) (nip44 : Nip44Scheme κ) (transport : LiveNostrTransport κ)
    (message : ProtocolMessage) (nonce : Bytes 32) (ack : Ack) :
    Result Unit × Option Command × LiveNostrTransport κ :=
  match transport.cmdTx with
  | none => (fail (.transport "transport not connected"), none, transport)
  | some _ =>
    match transport.publishCommand wire nip44 message nonce with
    | .error fault => (.error fault, none, transport)
    | .ok command =>
      match ack with
      | .gone => (fail (.transport "relay thread is gone"), none, transport)
      | .timedOut => (fail (.transport "relay publish timed out"), some command, transport)
      | .answered (.error fault) => (.error fault, some command, transport)
      | .answered (.ok ()) => (.ok (), some command,
          -- the relay does not echo a client's own events
          if message.isFor transport.cfg.selfId then
            { transport with inbound := transport.inbound ++ [message] }
          else transport)

def drainMatching {σ : Type} (sessionId : SessionId) (predicate : Predicate σ)
    (transport : LiveNostrTransport κ) (s : σ) :
    Result (List ProtocolMessage) × LiveNostrTransport κ × σ :=
  let (matched, kept, s) := sift (predicate.within sessionId) transport.inbound s
  (.ok matched, { transport with inbound := kept }, s)

end LiveNostrTransport

/-- The event that the relay thread builds from a command and signs with its keys. -/
def signedEvent {κ : Type} (nip44 : Nip44Scheme κ) (keys : κ) (id : EventId) (content : String)
    (tags : List (List String)) : Event :=
  ⟨id, nip44.publicKey keys, tags, content⟩

end Transport

section Decoding

theorem parseDigits_eq_ok {digits : List Char} {n : ℕ} (hdigits : ∀ c ∈ digits, c.isDigit = true)
    (hlt : Nat.ofDigitChars 10 digits n < 65536) :
    parseDigits digits n = .ok (Nat.ofDigitChars 10 digits n) := by
  induction digits generalizing n with
  | nil => simp [parseDigits]
  | cons c rest ih =>
    rw [List.forall_mem_cons] at hdigits
    rw [Nat.ofDigitChars_cons, Nat.mul_comm] at hlt ⊢
    have hle : n * 10 + (c.toNat - '0'.toNat) ≤
        Nat.ofDigitChars 10 rest (n * 10 + (c.toNat - '0'.toNat)) := by
      rw [Nat.ofDigitChars_eq_ofDigitChars_zero]
      have hpow : 0 < 10 ^ rest.length := Nat.pow_pos (by decide)
      exact (Nat.le_mul_of_pos_left _ hpow).trans (Nat.le_add_right _ _)
    rw [parseDigits, if_neg (by simp [hdigits.1]), if_neg (by omega)]
    exact ih hdigits.2 hlt

theorem parseU16_toString (n : UInt16) : parseU16 (toString n) = .ok n := by
  have hlist : (toString n).toList = Nat.toDigits 10 n.toNat := Nat.toList_repr
  have hdigit : ∀ c ∈ Nat.toDigits 10 n.toNat, c.isDigit = true := fun c hc =>
    Nat.isDigit_of_mem_toDigits (by decide) (by decide) hc
  have hparse : parseDigits (Nat.toDigits 10 n.toNat) 0 = .ok n.toNat := by
    have h := @parseDigits_eq_ok (Nat.toDigits 10 n.toNat) 0 hdigit
    rw [Nat.ofDigitChars_ten_toDigits] at h
    exact h n.toNat_lt
  rw [parseU16, hlist]
  -- the first character is a digit, not a sign
  split
  · next h => exact absurd h Nat.toDigits_ne_nil
  · next h => exact absurd (hdigit '+' (by simp [h])) (by decide)
  · next h => exact absurd (hdigit '-' (by simp [h])) (by decide)
  · next h => exact absurd (hdigit '+' (by simp [h])) (by decide)
  · rw [hparse]
    simp [Except.map]

variable {wire : Wire} {envelope : NostrEnvelopeEvent} {vaultTag : String}
  {encryptedRecipient : Option PublicKey} {event : Event}

structure TagsOf (envelope : NostrEnvelopeEvent) (encrypted : Bool) (event : Event) : Prop where
  app : tagValue event "app" = some envelope.app
  session : tagValue event "session" = some envelope.sessionId
  sender : tagValue event "sender" = some (toString envelope.sender)
  kind : tagValue event "message_kind" = some envelope.messageKind
  recipient : tagValue event "recipient" = envelope.recipient.map toString
  marker : hasEncryptedMarker event = encrypted

theorem tagsOf_build (h : event.tags = buildEventTags wire envelope vaultTag encryptedRecipient) :
    TagsOf envelope encryptedRecipient.isSome event := by
  cases hrecipient : envelope.recipient <;> cases encryptedRecipient <;> constructor <;>
    simp [tagValue, hasEncryptedMarker, h, buildEventTags, NostrEnvelopeEvent.tags, hrecipient]

theorem hasHashtag_build (h : event.tags = buildEventTags wire envelope vaultTag encryptedRecipient)
    (hashtag : String) : hasHashtag hashtag event = (wire.hashtag (vaultHashtag vaultTag) == hashtag) := by
  cases hrecipient : envelope.recipient <;> cases encryptedRecipient <;>
    simp [hasHashtag, h, buildEventTags, NostrEnvelopeEvent.tags, hrecipient]

theorem toNat_toLower (c : Char) :
    c.toLower.toNat = if 65 ≤ c.toNat ∧ c.toNat ≤ 90 then c.toNat + 32 else c.toNat := by
  have hrange : (c.val ≥ 'A'.val ∧ c.val ≤ 'Z'.val) ↔ 65 ≤ c.toNat ∧ c.toNat ≤ 90 := by
    simp only [ge_iff_le, UInt32.le_iff_toNat_le]
    exact Iff.rfl
  by_cases h : 65 ≤ c.toNat ∧ c.toNat ≤ 90
  · have hlower : c.toLower.val = c.val + ('a'.val - 'A'.val) :=
      congrArg Char.val (dif_pos (hrange.mpr h))
    rw [if_pos h]
    change c.toLower.val.toNat = c.val.toNat + 32
    rw [hlower]
    have hle : c.val.toNat ≤ 90 := h.2
    rw [UInt32.toNat_add]
    exact Nat.mod_eq_of_lt (by change c.val.toNat + 32 < 2 ^ 32; omega)
  · have hlower : c.toLower = c := dif_neg fun h' => h (hrange.mp h')
    rw [if_neg h, hlower]

theorem toLower_eq_self_iff (c : Char) : c.toLower = c ↔ c.isUpper = false := by
  rw [← Char.toNat_inj, toNat_toLower]
  have hupper : c.isUpper = true ↔ 65 ≤ c.toNat ∧ c.toNat ≤ 90 := decide_eq_true_iff
  rw [← Bool.not_eq_true, hupper]
  split_ifs with h <;> simp [h]

/-- An ASCII tag is kept exactly if it has no upper-case letter. -/
theorem keepsVaultTag_iff (hlowers : wire.LowersHashtags)
    (hascii : ∀ c ∈ vaultTag.toList, c.toNat < 128) :
    wire.KeepsVaultTag vaultTag ↔ ∀ c ∈ vaultTag.toList, c.isUpper = false := by
  have hlist : (vaultHashtag vaultTag).toList = "dkgkit:".toList ++ vaultTag.toList :=
    String.toList_append
  have hprefix : "dkgkit:".toList.map Char.toLower = "dkgkit:".toList := by decide
  have htext : ∀ c ∈ (vaultHashtag vaultTag).toList, c.toNat < 128 := by
    rw [hlist, List.forall_mem_append]
    exact ⟨by simp, hascii⟩
  have hlower : (vaultHashtag vaultTag).toLower.toList = (vaultHashtag vaultTag).toList.map Char.toLower :=
    String.toList_map
  rw [Wire.KeepsVaultTag, hlowers _ htext, ← String.toList_inj, hlower, hlist, List.map_append, hprefix,
    List.append_cancel_left_eq]
  have hsame := @List.map_inj_left _ _ vaultTag.toList Char.toLower id
  rw [List.map_id] at hsame
  simp only [hsame, id_eq, toLower_eq_self_iff]

theorem envelopeFromEvent_of_tags {encrypted : Bool} (h : TagsOf envelope encrypted event)
    (hkind : envelope.kind = dkgkitNostrEventKind) :
    envelopeFromEvent envelope.content event = .ok envelope := by
  have hrecipient : (tagValue event "recipient").mapM (parseTag "recipient") = .ok envelope.recipient := by
    rw [h.recipient]
    cases hr : envelope.recipient with
    | none => rfl
    | some recipient => simp [parseTag, parseU16_toString, Functor.map, Except.map]
  have hsender : parseTag "sender" (toString envelope.sender) = .ok envelope.sender :=
    parseTag_eq_ok.mpr (parseU16_toString _)
  simp only [envelopeFromEvent, h.session, h.sender, h.kind, h.app, hrecipient, hsender, okOr, ok_bind,
    Option.getD_some, ← hkind]

variable {message : ProtocolMessage}

def routingEnvelope (message : ProtocolMessage) : NostrEnvelopeEvent :=
  ⟨dkgkitNostrEventKind, dkgkitNostrAppTag, message.sessionId, message.sender, message.recipient,
    message.kind.asStr, ""⟩

theorem fromProtocolMessage_eq_ok
    (h : NostrEnvelopeEvent.fromProtocolMessage wire message = .ok envelope) :
    wire.json.toVec message = .ok (asBytes envelope.content) ∧
      envelope = { routingEnvelope message with content := envelope.content } := by
  simp only [NostrEnvelopeEvent.fromProtocolMessage, ProtocolMessage.encodeJson, bind_eq_ok, serialized_eq_ok,
    okOr_eq_ok, Except.ok.injEq] at h
  obtain ⟨bytes, hbytes, content, hcontent, rfl⟩ := h
  exact ⟨by rw [hbytes, asBytes_of_fromUtf8 hcontent], rfl⟩

/-- An event with the tags of a message's envelope, whose content the addressees can read,
reaches exactly the addressees. -/
theorem handleInboundEvent_of_tags {κ : Type} {nip44 : Nip44 κ} {keys : κ} {selfId : ParticipantId}
    {inbox : Inbox} {encrypted : Bool} (hjson : wire.json.RoundTrips) (hwf : message.WellFormed)
    (henvelope : NostrEnvelopeEvent.fromProtocolMessage wire message = .ok envelope)
    (htags : TagsOf envelope encrypted event) (hnew : event.id ∉ inbox.seen)
    (hcontent : message.isFor selfId = true → eventContent nip44 keys event = .ok envelope.content) :
    handleInboundEvent wire nip44 keys selfId inbox event = ⟨insert event.id inbox.seen,
      inbox.inbound ++ if message.isFor selfId then [message] else []⟩ := by
  have hfields := (fromProtocolMessage_eq_ok henvelope).2
  have hkind : envelope.kind = dkgkitNostrEventKind := congrArg NostrEnvelopeEvent.kind hfields
  have happ : envelope.app = dkgkitNostrAppTag := congrArg NostrEnvelopeEvent.app hfields
  have hrecipient : envelope.recipient = message.recipient :=
    congrArg NostrEnvelopeEvent.recipient hfields
  have hskip : ((tagValue event "recipient").any fun recipient =>
      (parseU16 recipient).toOption ≠ some selfId) = !message.isFor selfId := by
    rw [htags.recipient, hrecipient, ProtocolMessage.isFor]
    cases message.recipient with
    | none => rfl
    | some recipient => simp [parseU16_toString, Except.toOption]
  rw [handleInboundEvent, if_neg hnew, if_neg (not_not.mpr (htags.app.trans (congrArg some happ))), hskip]
  cases hfor : message.isFor selfId with
  | false => simp
  | true =>
    obtain ⟨envelope', henvelope', hdecode⟩ := NostrEnvelopeEvent.fromProtocolMessage_spec hjson message
    obtain rfl : envelope = envelope' := Except.ok.inj (henvelope.symm.trans henvelope')
    simp [hcontent hfor, envelopeFromEvent_of_tags htags hkind, (hdecode message).mpr ⟨hwf, rfl⟩]

end Decoding

section Publishing

open LiveNostrTransport

variable {κ : Type} {wire : Wire} {nip44 : Nip44Scheme κ} {transport : LiveNostrTransport κ}
  {message : ProtocolMessage} {nonce : Bytes 32} {ack : Ack} {content : String} {tags : List (List String)}

theorem encryptFor_eq_ok {sender : κ} {recipient : PublicKey} {plaintext ciphertext : String} :
    encryptFor nip44 sender recipient nonce plaintext = .ok ciphertext ↔
      nip44.encrypt sender recipient nonce plaintext = .ok ciphertext := by
  rw [encryptFor]
  cases nip44.encrypt sender recipient nonce plaintext <;> simp

theorem publish_enqueued {command : Command}
    (h : (transport.publish wire nip44 message nonce ack).2.1 = some command) :
    transport.publishCommand wire nip44 message nonce = .ok command := by
  rw [publish] at h
  cases hcmd : transport.cmdTx with
  | none => simp [hcmd] at h
  | some thread =>
    cases hcommand : transport.publishCommand wire nip44 message nonce with
    | error fault => simp [hcmd, hcommand] at h
    | ok command' =>
      cases ack with
      | gone => simp [hcmd, hcommand] at h
      | timedOut => simpa [hcmd, hcommand] using h
      | answered result => cases result <;> simpa [hcmd, hcommand] using h

theorem publish_answered {thread : ℕ} {command : Command} (hcmd : transport.cmdTx = some thread)
    (hcommand : transport.publishCommand wire nip44 message nonce = .ok command) :
    (transport.publish wire nip44 message nonce (.answered (.ok ()))).2.1 = some command := by
  simp [publish, hcmd, hcommand]

theorem publishCommand_cases {command : Command}
    (h : transport.publishCommand wire nip44 message nonce = .ok command) :
    ∃ envelope, NostrEnvelopeEvent.fromProtocolMessage wire message = .ok envelope ∧
      ((∃ recipient key ciphertext, isSecretKind message.kind = true ∧ message.recipient = some recipient ∧
        transport.cfg.directory.get recipient = some key ∧
        nip44.encrypt transport.cfg.keys key nonce envelope.content = .ok ciphertext ∧
        command = .publish ciphertext (buildEventTags wire envelope transport.vaultTag (some key))) ∨
      ((isSecretKind message.kind = false ∨ message.recipient = none) ∧
        command = .publish envelope.content (buildEventTags wire envelope transport.vaultTag none))) := by
  rw [publishCommand, bind_eq_ok] at h
  obtain ⟨envelope, henvelope, h⟩ := h
  refine ⟨envelope, henvelope, ?_⟩
  cases hsecret : isSecretKind message.kind with
  | false =>
    rw [hsecret] at h
    exact .inr ⟨.inl rfl, (Except.ok.inj h).symm⟩
  | true =>
    cases hrecipient : message.recipient with
    | none =>
      rw [hsecret, hrecipient] at h
      exact .inr ⟨.inr rfl, (Except.ok.inj h).symm⟩
    | some recipient =>
      simp only [hsecret, hrecipient, bind_eq_ok, okOr_eq_ok] at h
      obtain ⟨key, hkey, ciphertext, hciphertext, hcommand⟩ := h
      exact .inl ⟨recipient, key, ciphertext, rfl, rfl, hkey, encryptFor_eq_ok.mp hciphertext,
        (Except.ok.inj hcommand).symm⟩

theorem publishCommand_hashtag
    (hcommand : transport.publishCommand wire nip44 message nonce = .ok (.publish content tags))
    (hkeeps : wire.KeepsVaultTag transport.vaultTag) (keys : κ) (id : EventId) :
    hasHashtag (vaultHashtag transport.vaultTag) (signedEvent nip44 keys id content tags) = true := by
  obtain ⟨envelope, -, hcases⟩ := publishCommand_cases hcommand
  have htags : ∃ key, tags = buildEventTags wire envelope transport.vaultTag key := by
    rcases hcases with ⟨recipient, key, ciphertext, -, -, -, -, heq⟩ | ⟨-, heq⟩
    · exact ⟨some key, (Command.publish.inj heq).2⟩
    · exact ⟨none, (Command.publish.inj heq).2⟩
  obtain ⟨key, htags⟩ := htags
  have hbuilt := @hasHashtag_build wire envelope transport.vaultTag key
    (signedEvent nip44 keys id content tags) htags (vaultHashtag transport.vaultTag)
  rw [hbuilt, beq_iff_eq]
  exact hkeeps

theorem publishCommand_event (hinverts : nip44.Inverts) {keysOf : ParticipantId → κ}
    (hdirectory : ∀ recipient, message.recipient = some recipient →
      transport.cfg.directory.get recipient = some (nip44.publicKey (keysOf recipient)))
    (hcommand : transport.publishCommand wire nip44 message nonce = .ok (.publish content tags))
    (id : EventId) : ∃ envelope encrypted,
      NostrEnvelopeEvent.fromProtocolMessage wire message = .ok envelope ∧
      TagsOf envelope encrypted (signedEvent nip44 transport.cfg.keys id content tags) ∧
      ∀ selfId, message.isFor selfId = true → eventContent nip44.toNip44 (keysOf selfId)
        (signedEvent nip44 transport.cfg.keys id content tags) = .ok envelope.content := by
  obtain ⟨envelope, henvelope, hcases⟩ := publishCommand_cases hcommand
  rcases hcases with ⟨recipient, key, ciphertext, -, hrecipient, hkey, hencrypt, heq⟩ | ⟨-, heq⟩
  · obtain ⟨rfl, htags⟩ := Command.publish.inj heq
    have hof := @tagsOf_build wire envelope transport.vaultTag (some key)
      (signedEvent nip44 transport.cfg.keys id content tags) htags
    refine ⟨envelope, true, henvelope, hof, fun selfId hfor => ?_⟩
    obtain rfl : recipient = selfId := by simpa [ProtocolMessage.isFor, hrecipient] using hfor
    obtain rfl : key = nip44.publicKey (keysOf recipient) :=
      Option.some.inj (hkey.symm.trans (hdirectory recipient hrecipient))
    rw [eventContent_eq_ok, hof.marker]
    exact hinverts _ _ _ _ _ hencrypt
  · obtain ⟨rfl, htags⟩ := Command.publish.inj heq
    have hof := @tagsOf_build wire envelope transport.vaultTag none
      (signedEvent nip44 transport.cfg.keys id envelope.content tags) htags
    refine ⟨envelope, false, henvelope, hof, fun selfId _ => ?_⟩
    rw [eventContent_eq_ok, hof.marker]
    rfl

end Publishing

section Instances

/-- Ciphertexts name the two keys in front of the text; nobody else can open them. -/
def plainNip44 : Nip44Scheme PublicKey where
  decrypt receiver sender ciphertext :=
    if (hexText receiver.toList ++ hexText sender.toList).toList <+: ciphertext.toList then
      .ok (String.ofList (ciphertext.toList.drop (hexText receiver.toList ++ hexText sender.toList).length))
    else .error "invalid mac"
  publicKey key := key
  encrypt sender recipient _ text := .ok (hexText recipient.toList ++ hexText sender.toList ++ text)

theorem plainNip44_inverts : plainNip44.Inverts := by
  intro sender receiver nonce text ciphertext h
  rw [← Except.ok.inj h]
  simp only [plainNip44, String.toList_append]
  rw [if_pos (List.prefix_append _ _), ← String.length_toList, String.toList_append, List.drop_left,
    String.ofList_toList]

def plainKey (id : ParticipantId) : PublicKey := List.Vector.replicate 32 id.toUInt8

/-- The connected transport of participant `1`, which knows the key of participant `2`. -/
def plainTransport : LiveNostrTransport PublicKey :=
  ⟨⟨1, plainKey 1, ParticipantDirectory.new.insert 2 (plainKey 2)⟩, "vault-1", some 0, [], some 0, true⟩

theorem plainTransport_cmdTx : plainTransport.cmdTx = some 0 := rfl

def round2Message (recipient : Option ParticipantId) (payload : List UInt8) : ProtocolMessage :=
  ⟨ProtocolMessage.dkgkitProtocolVersion, "vault-1-dkg", 1, recipient, .frostDkgRound2, payload⟩

theorem round2Message_wellFormed (payload : List UInt8) : (round2Message (some 2) payload).WellFormed where
  sender := by simp [round2Message]
  recipient := by simp [round2Message]
  sessionId := (by decide : isBlank "vault-1-dkg" = false)
  kind := by
    intro value h
    cases h

theorem exists_plainCommand {message : ProtocolMessage} (hsecret : isSecretKind message.kind = true)
    (hrecipient : message.recipient = some 2) (nonce : Bytes 32) : ∃ content tags,
    (plainTransport.publish helloWire plainNip44 message nonce (.answered (.ok ()))).2.1 =
      some (.publish content tags) := by
  obtain ⟨envelope, henvelope, -⟩ :=
    NostrEnvelopeEvent.fromProtocolMessage_spec helloWire_roundTrips message
  have hkey : plainTransport.cfg.directory.get 2 = some (plainKey 2) :=
    ParticipantDirectory.get_insert_self _ _ _
  refine ⟨hexText (plainKey 2).toList ++ hexText (plainKey 1).toList ++ envelope.content,
    buildEventTags helloWire envelope "vault-1" (some (plainKey 2)), publish_answered plainTransport_cmdTx ?_⟩
  simp only [LiveNostrTransport.publishCommand, henvelope, ok_bind, hsecret, hrecipient, hkey, okOr]
  rfl

noncomputable def helloRelayEvent (id : EventId) : Event :=
  signedEvent plainNip44 (plainKey 1) id helloText (buildEventTags helloWire helloEvent "vault-1" none)

theorem handle_helloRelayEvent (selfId : ParticipantId) {inbox : Inbox} {id : EventId}
    (hnew : id ∉ inbox.seen) : handleInboundEvent helloWire plainNip44.toNip44 (plainKey selfId) selfId inbox
      (helloRelayEvent id) = ⟨insert id inbox.seen, inbox.inbound ++ [helloMessage]⟩ := by
  have htags := @tagsOf_build helloWire helloEvent "vault-1" none (helloRelayEvent id) rfl
  have hcontent : eventContent plainNip44.toNip44 (plainKey selfId) (helloRelayEvent id) = .ok helloText := by
    rw [eventContent_eq_ok, htags.marker]
    rfl
  exact handleInboundEvent_of_tags helloWire_roundTrips helloMessage_wellFormed
    (NostrEnvelopeEvent.fromProtocolMessage_eq helloWire_writes) htags hnew fun _ => hcontent

end Instances

/-- The event of a published message adds the message to the buffer of every participant it
is for, and nothing to the buffer of any other. -/
theorem published_event_reaches_addressees {κ : Type} (wire : Wire) (hjson : wire.json.RoundTrips)
    (nip44 : Nip44Scheme κ) (hinverts : nip44.Inverts) (keysOf : ParticipantId → κ)
    (transport : LiveNostrTransport κ) (message : ProtocolMessage) (hwf : message.WellFormed)
    (hdirectory : ∀ recipient, message.recipient = some recipient →
      transport.cfg.directory.get recipient = some (nip44.publicKey (keysOf recipient)))
    (nonce : Bytes 32) (ack : Ack) (content : String) (tags : List (List String))
    (henqueued : (transport.publish wire nip44 message nonce ack).2.1 = some (.publish content tags))
    (selfId : ParticipantId) (inbox : Inbox) (id : EventId) (hnew : id ∉ inbox.seen) :
    (handleInboundEvent wire nip44.toNip44 (keysOf selfId) selfId inbox
        (signedEvent nip44 transport.cfg.keys id content tags)).inbound =
      if message.isFor selfId then inbox.inbound ++ [message] else inbox.inbound := by
  obtain ⟨envelope, encrypted, henvelope, htags, hcontent⟩ :=
    publishCommand_event hinverts hdirectory (publish_enqueued henqueued) id
  rw [handleInboundEvent_of_tags hjson hwf henvelope htags hnew (hcontent selfId)]
  cases message.isFor selfId <;> simp

theorem published_event_reaches_addressees_direct :
    let message := round2Message (some 2) [7]
    let nonce : Bytes 32 := List.Vector.replicate 32 0
    let id : EventId := List.Vector.replicate 32 0
    ∃ content tags, (plainTransport.publish helloWire plainNip44 message nonce (.answered (.ok ()))).2.1 =
        some (.publish content tags) ∧
      (handleInboundEvent helloWire plainNip44.toNip44 (plainKey 2) 2 Inbox.empty
        (signedEvent plainNip44 (plainKey 1) id content tags)).inbound = [message] ∧
      (handleInboundEvent helloWire plainNip44.toNip44 (plainKey 3) 3 Inbox.empty
        (signedEvent plainNip44 (plainKey 1) id content tags)).inbound = [] := by
  intro message nonce id
  obtain ⟨content, tags, henqueued⟩ := @exists_plainCommand message rfl rfl nonce
  have hdirectory : ∀ recipient, message.recipient = some recipient →
      plainTransport.cfg.directory.get recipient = some (plainNip44.publicKey (plainKey recipient)) := by
    rintro _ ⟨⟩
    exact ParticipantDirectory.get_insert_self _ _ _
  have hreach := published_event_reaches_addressees helloWire helloWire_roundTrips plainNip44
    plainNip44_inverts plainKey plainTransport message (round2Message_wellFormed [7]) hdirectory nonce
    (.answered (.ok ())) content tags henqueued
  exact ⟨content, tags, henqueued, hreach 2 Inbox.empty id (Finset.notMem_empty _),
    hreach 3 Inbox.empty id (Finset.notMem_empty _)⟩

section Secrets

open LiveNostrTransport

def Command.SealedFor {κ : Type} (nip44 : Nip44Scheme κ) (sender : κ) (key : PublicKey)
    (tags : List (List String)) (command : Command) : Prop :=
  ∃ nonce text ciphertext, nip44.encrypt sender key nonce text = .ok ciphertext ∧
    command = .publish ciphertext tags

def Command.ClearFor (wire : Wire) (message : ProtocolMessage) (tags : List (List String))
    (command : Command) : Prop :=
  ∃ text, wire.json.toVec message = .ok (asBytes text) ∧ command = .publish text tags

def ProtocolMessage.withPayload (message : ProtocolMessage) (payload : List UInt8) : ProtocolMessage :=
  { message with payload := payload }

theorem direct_enqueued {κ : Type} {wire : Wire} {nip44 : Nip44Scheme κ} {transport : LiveNostrTransport κ}
    {message : ProtocolMessage} {nonce : Bytes 32} {ack : Ack} {recipient : ParticipantId}
    {command : Command} (h : (transport.publish wire nip44 message nonce ack).2.1 = some command)
    (hsecret : isSecretKind message.kind = true) (hrecipient : message.recipient = some recipient) :
    ∃ envelope key ciphertext, NostrEnvelopeEvent.fromProtocolMessage wire message = .ok envelope ∧
      transport.cfg.directory.get recipient = some key ∧
      nip44.encrypt transport.cfg.keys key nonce envelope.content = .ok ciphertext ∧
      command = .publish ciphertext (buildEventTags wire envelope transport.vaultTag (some key)) := by
  obtain ⟨envelope, henvelope, hcases⟩ := publishCommand_cases (publish_enqueued h)
  rcases hcases with ⟨recipient', key, ciphertext, -, hrecipient', hkey, hencrypt, heq⟩ |
    ⟨hclear | hclear, -⟩
  · obtain rfl : recipient = recipient' := Option.some.inj (hrecipient.symm.trans hrecipient')
    exact ⟨envelope, key, ciphertext, henvelope, hkey, hencrypt, heq⟩
  · exact absurd (hsecret.symm.trans hclear) (by decide)
  · exact absurd (hrecipient.symm.trans hclear) (by simp)

end Secrets

/-- What a round-2 message shows of its payload on the relay. A direct one is sealed for the
directory's key of its recipient, with tags that do not depend on the payload, and without
such a key nothing is enqueued; one without a recipient is published in clear. -/
theorem round2_commands_sealed {κ : Type} (wire : Wire) (nip44 : Nip44Scheme κ)
    (transport : LiveNostrTransport κ) (message : ProtocolMessage)
    (hsecret : isSecretKind message.kind = true) :
    (∀ recipient, message.recipient = some recipient →
      (transport.cfg.directory.get recipient = none → ∀ payload nonce ack,
        (transport.publish wire nip44 (message.withPayload payload) nonce ack).2.1 = none) ∧
      ∀ key, transport.cfg.directory.get recipient = some key → ∃ tags, ∀ payload nonce ack command,
        (transport.publish wire nip44 (message.withPayload payload) nonce ack).2.1 = some command →
          command.SealedFor nip44 transport.cfg.keys key tags) ∧
    (message.recipient = none → ∃ tags, ∀ payload nonce ack command,
      (transport.publish wire nip44 (message.withPayload payload) nonce ack).2.1 = some command →
        command.ClearFor wire (message.withPayload payload) tags) := by
  refine ⟨fun recipient hrecipient => ⟨fun hnone payload nonce ack => ?_, fun key hkey =>
    ⟨buildEventTags wire (routingEnvelope message) transport.vaultTag (some key), ?_⟩⟩, fun hrecipient =>
    ⟨buildEventTags wire (routingEnvelope message) transport.vaultTag none, ?_⟩⟩
  · rw [Option.eq_none_iff_forall_ne_some]
    intro command hcommand
    obtain ⟨_, key, _, -, hkey, -⟩ := direct_enqueued hcommand hsecret hrecipient
    rw [hnone] at hkey
    cases hkey
  · intro payload nonce ack command hcommand
    obtain ⟨envelope, key', ciphertext, henvelope, hkey', hencrypt, rfl⟩ :=
      direct_enqueued hcommand hsecret hrecipient
    obtain rfl : key = key' := Option.some.inj (hkey.symm.trans hkey')
    refine ⟨nonce, envelope.content, ciphertext, hencrypt, ?_⟩
    rw [(fromProtocolMessage_eq_ok henvelope).2]
    rfl
  · intro payload nonce ack command hcommand
    obtain ⟨envelope, henvelope, hcases⟩ := publishCommand_cases (publish_enqueued hcommand)
    rcases hcases with ⟨recipient', _, _, -, hrecipient', -⟩ | ⟨-, rfl⟩
    · exact absurd (hrecipient.symm.trans hrecipient') (by simp)
    · obtain ⟨hwrite, hfields⟩ := fromProtocolMessage_eq_ok henvelope
      refine ⟨envelope.content, hwrite, ?_⟩
      rw [hfields]
      rfl

theorem round2_commands_sealed_direct : isSecretKind (round2Message (some 2) []).kind = true ∧
    ∃ tags command command' nonce, (plainTransport.publish helloWire plainNip44
        ((round2Message (some 2) []).withPayload [7]) nonce (.answered (.ok ()))).2.1 = some command ∧
      (plainTransport.publish helloWire plainNip44
        ((round2Message (some 2) []).withPayload [8]) nonce (.answered (.ok ()))).2.1 = some command' ∧
      command.SealedFor plainNip44 (plainKey 1) (plainKey 2) tags ∧
      command'.SealedFor plainNip44 (plainKey 1) (plainKey 2) tags := by
  have hsecret : isSecretKind (round2Message (some 2) []).kind = true := rfl
  obtain ⟨tags, hsealed⟩ := ((round2_commands_sealed helloWire plainNip44 plainTransport
    (round2Message (some 2) []) hsecret).1 2 rfl).2 (plainKey 2) (ParticipantDirectory.get_insert_self _ _ _)
  obtain ⟨content, tags₁, hcommand⟩ := @exists_plainCommand
    ((round2Message (some 2) []).withPayload [7]) rfl rfl (List.Vector.replicate 32 0)
  obtain ⟨content', tags₂, hcommand'⟩ := @exists_plainCommand
    ((round2Message (some 2) []).withPayload [8]) rfl rfl (List.Vector.replicate 32 0)
  exact ⟨hsecret, tags, _, _, _, hcommand, hcommand', hsealed _ _ _ _ hcommand, hsealed _ _ _ _ hcommand'⟩

/-- A round-2 message without a recipient is enqueued as its JSON text, payload and all. -/
theorem round2_broadcast_in_clear : ∃ text text' tags nonce,
    (plainTransport.publish helloWire plainNip44 (round2Message none [7]) nonce (.answered (.ok ()))).2.1 =
        some (.publish text tags) ∧
      (plainTransport.publish helloWire plainNip44 (round2Message none [8]) nonce (.answered (.ok ()))).2.1 =
        some (.publish text' tags) ∧
      helloWire.json.fromSlice (asBytes text) = .ok (round2Message none [7]) ∧
      helloWire.json.fromSlice (asBytes text') = .ok (round2Message none [8]) := by
  obtain ⟨text, hwrite, hread⟩ := helloWire_roundTrips (round2Message none [7])
  obtain ⟨text', hwrite', hread'⟩ := helloWire_roundTrips (round2Message none [8])
  refine ⟨text, text', buildEventTags helloWire (routingEnvelope (round2Message none [])) "vault-1" none,
    List.Vector.replicate 32 0, publish_answered plainTransport_cmdTx ?_,
    publish_answered plainTransport_cmdTx ?_, hread, hread'⟩
  · rw [LiveNostrTransport.publishCommand, NostrEnvelopeEvent.fromProtocolMessage_eq hwrite]
    rfl
  · rw [LiveNostrTransport.publishCommand, NostrEnvelopeEvent.fromProtocolMessage_eq hwrite']
    rfl

end DkgKit
