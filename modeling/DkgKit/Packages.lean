import Mathlib.Tactic.MkIffOfInductiveProp
import DkgKit.Dkg
import DkgKit.Messages
import DkgKit.Signing

/-! The packages of key generation and signing as payloads of protocol messages. -/

open BigEndian

namespace DkgKit

structure Round1Package where
  participantId : ParticipantId
  bytes : List UInt8
  deriving DecidableEq

structure Round2Package where
  sender : ParticipantId
  recipient : ParticipantId
  bytes : List UInt8
  deriving DecidableEq

structure NoncePackage where
  participantId : ParticipantId
  signingSessionId : SessionId
  publicNonceBytes : List UInt8
  deriving DecidableEq

structure SignatureSharePackage where
  participantId : ParticipantId
  signingSessionId : SessionId
  publicNonceBytes : List UInt8
  signatureShareBytes : List UInt8
  deriving DecidableEq

section Payloads

variable {α : Type}

def encodePayload (json : Json α) (payload : α) : Result (List UInt8) := serialized (json.toVec payload)

def decodePayload (json : Json α) (bytes : List UInt8) : Result α := serialized (json.fromSlice bytes)

def requireKind (message : ProtocolMessage) (expected : ProtocolMessageKind) : Result Unit :=
  if message.kind ≠ expected then
    fail (.protocol s!"unexpected protocol message kind: expected {expected.asStr}, got {message.kind.asStr}")
  else .ok ()

def requireBroadcast (message : ProtocolMessage) : Result Unit :=
  if message.recipient.isSome then fail (.protocol "expected broadcast protocol message") else .ok ()

/-- The body of `to_protocol_message` for the packages sent to everyone. -/
def toBroadcast (json : Json α) (kind : ProtocolMessageKind) (sessionId : SessionId)
    (sender : ParticipantId) (package : α) : Result ProtocolMessage := do
  let payload ← encodePayload json package
  .ok (.broadcast sessionId sender kind payload)

def toDirect (json : Json α) (kind : ProtocolMessageKind) (sessionId : SessionId)
    (sender recipient : ParticipantId) (package : α) : Result ProtocolMessage := do
  let payload ← encodePayload json package
  .ok (.direct sessionId sender recipient kind payload)

/-- The body of `from_protocol_message` for the packages sent to everyone. -/
def fromBroadcast (json : Json α) (kind : ProtocolMessageKind) (name : String)
    (sender : α → ParticipantId) (message : ProtocolMessage) : Result α := do
  requireKind message kind
  requireBroadcast message
  let package ← decodePayload json message.payload
  if sender package ≠ message.sender then
    fail (.protocol s!"{name} sender mismatch: envelope={message.sender}, payload={sender package}")
  else .ok package

/-- The same for the packages that also name their signing session. -/
def fromSigning (json : Json α) (kind : ProtocolMessageKind) (name : String)
    (sender : α → ParticipantId) (session : α → SessionId) (message : ProtocolMessage) : Result α := do
  let package ← fromBroadcast json kind name sender message
  if session package ≠ message.sessionId then fail (.protocol s!"{name} session mismatch")
  else .ok package

def fromDirect (json : Json α) (kind : ProtocolMessageKind) (name : String)
    (sender recipient : α → ParticipantId) (message : ProtocolMessage) : Result α := do
  requireKind message kind
  let package ← decodePayload json message.payload
  if sender package ≠ message.sender then
    fail (.protocol s!"{name} sender mismatch: envelope={message.sender}, payload={sender package}")
  else if some (recipient package) ≠ message.recipient then
    fail (.protocol s!"{name} recipient mismatch")
  else .ok package

theorem requireKind_eq_ok {message : ProtocolMessage} {expected : ProtocolMessageKind} {u : Unit} :
    requireKind message expected = .ok u ↔ message.kind = expected := by
  rw [requireKind, check_eq_ok, not_not]

theorem requireBroadcast_eq_ok {message : ProtocolMessage} {u : Unit} :
    requireBroadcast message = .ok u ↔ message.recipient = none := by
  rw [requireBroadcast, check_eq_ok, Bool.not_eq_true, Option.isSome_eq_false_iff, Option.isNone_iff_eq_none]

variable {json : Json α} {kind : ProtocolMessageKind} {name : String} {sender recipient : α → ParticipantId}
variable {session : α → SessionId} {message : ProtocolMessage} {package : α}

theorem fromBroadcast_eq_ok : fromBroadcast json kind name sender message = .ok package ↔
    message.kind = kind ∧ message.recipient = none ∧ json.fromSlice message.payload = .ok package ∧
      sender package = message.sender := by
  simp only [fromBroadcast, bind_eq_ok, requireKind_eq_ok, requireBroadcast_eq_ok, decodePayload,
    serialized_eq_ok, ifFail_eq_ok, ne_eq, not_not, Except.ok.injEq]
  constructor
  · rintro ⟨-, hkind, -, hrecipient, package', hpayload, hsender, rfl⟩
    exact ⟨hkind, hrecipient, hpayload, hsender⟩
  · rintro ⟨hkind, hrecipient, hpayload, hsender⟩
    exact ⟨(), hkind, (), hrecipient, package, hpayload, hsender, rfl⟩

theorem fromSigning_eq_ok : fromSigning json kind name sender session message = .ok package ↔
    message.kind = kind ∧ message.recipient = none ∧ json.fromSlice message.payload = .ok package ∧
      sender package = message.sender ∧ session package = message.sessionId := by
  simp only [fromSigning, bind_eq_ok, fromBroadcast_eq_ok, ifFail_eq_ok, ne_eq, not_not,
    Except.ok.injEq]
  constructor
  · rintro ⟨package', ⟨hkind, hrecipient, hpayload, hsender⟩, hsession, rfl⟩
    exact ⟨hkind, hrecipient, hpayload, hsender, hsession⟩
  · rintro ⟨hkind, hrecipient, hpayload, hsender, hsession⟩
    exact ⟨package, ⟨hkind, hrecipient, hpayload, hsender⟩, hsession, rfl⟩

theorem fromDirect_eq_ok : fromDirect json kind name sender recipient message = .ok package ↔
    message.kind = kind ∧ message.recipient = some (recipient package) ∧
      json.fromSlice message.payload = .ok package ∧ sender package = message.sender := by
  simp only [fromDirect, bind_eq_ok, requireKind_eq_ok, decodePayload, serialized_eq_ok,
    ifFail_eq_ok, ne_eq, not_not, Except.ok.injEq]
  constructor
  · rintro ⟨-, hkind, package', hpayload, hsender, hrecipient, rfl⟩
    exact ⟨hkind, hrecipient.symm, hpayload, hsender⟩
  · rintro ⟨hkind, hrecipient, hpayload, hsender⟩
    exact ⟨(), hkind, package, hpayload, hsender, hrecipient.symm, rfl⟩

theorem toBroadcast_spec (hjson : json.RoundTrips) (kind : ProtocolMessageKind) (sessionId : SessionId)
    (source : ParticipantId) (package : α) : ∃ payload,
      toBroadcast json kind sessionId source package = .ok (.broadcast sessionId source kind payload) ∧
        json.fromSlice payload = .ok package := by
  obtain ⟨text, hwrite, hread⟩ := hjson package
  refine ⟨asBytes text, ?_, hread⟩
  rw [toBroadcast, encodePayload, hwrite]
  rfl

theorem toDirect_spec (hjson : json.RoundTrips) (kind : ProtocolMessageKind) (sessionId : SessionId)
    (source target : ParticipantId) (package : α) : ∃ payload,
      toDirect json kind sessionId source target package = .ok (.direct sessionId source target kind payload) ∧
        json.fromSlice payload = .ok package := by
  obtain ⟨text, hwrite, hread⟩ := hjson package
  refine ⟨asBytes text, ?_, hread⟩
  rw [toDirect, encodePayload, hwrite]
  rfl

end Payloads

section Family

def Round1Package.toProtocolMessage (json : Json Round1Package) (package : Round1Package)
    (sessionId : SessionId) : Result ProtocolMessage :=
  toBroadcast json .frostDkgRound1 sessionId package.participantId package

def Round1Package.fromProtocolMessage (json : Json Round1Package) : ProtocolMessage → Result Round1Package :=
  fromBroadcast json .frostDkgRound1 "round1" participantId

def Round2Package.toProtocolMessage (json : Json Round2Package) (package : Round2Package)
    (sessionId : SessionId) : Result ProtocolMessage :=
  toDirect json .frostDkgRound2 sessionId package.sender package.recipient package

def Round2Package.fromProtocolMessage (json : Json Round2Package) : ProtocolMessage → Result Round2Package :=
  fromDirect json .frostDkgRound2 "round2" sender recipient

def HtssDkgRound1Package.toProtocolMessage (json : Json HtssDkgRound1Package)
    (package : HtssDkgRound1Package) (sessionId : SessionId) : Result ProtocolMessage :=
  toBroadcast json .htssDkgRound1 sessionId package.participantId package

def HtssDkgRound1Package.fromProtocolMessage (json : Json HtssDkgRound1Package) :
    ProtocolMessage → Result HtssDkgRound1Package :=
  fromBroadcast json .htssDkgRound1 "HTSS DKG round1" participantId

def HtssDkgRound2Package.toProtocolMessage (json : Json HtssDkgRound2Package)
    (package : HtssDkgRound2Package) (sessionId : SessionId) : Result ProtocolMessage :=
  toDirect json .htssDkgRound2 sessionId package.sender package.recipient package

def HtssDkgRound2Package.fromProtocolMessage (json : Json HtssDkgRound2Package) :
    ProtocolMessage → Result HtssDkgRound2Package :=
  fromDirect json .htssDkgRound2 "HTSS DKG round2" sender recipient

def NoncePackage.toProtocolMessage (json : Json NoncePackage) (package : NoncePackage) :
    Result ProtocolMessage :=
  toBroadcast json .frostSigningNonce package.signingSessionId package.participantId package

def NoncePackage.fromProtocolMessage (json : Json NoncePackage) : ProtocolMessage → Result NoncePackage :=
  fromSigning json .frostSigningNonce "nonce" participantId signingSessionId

def SignatureSharePackage.toProtocolMessage (json : Json SignatureSharePackage)
    (package : SignatureSharePackage) : Result ProtocolMessage :=
  toBroadcast json .frostSignatureShare package.signingSessionId package.participantId package

def SignatureSharePackage.fromProtocolMessage (json : Json SignatureSharePackage) :
    ProtocolMessage → Result SignatureSharePackage :=
  fromSigning json .frostSignatureShare "signature share" participantId signingSessionId

def HtssNoncePackage.toProtocolMessage (json : Json HtssNoncePackage) (package : HtssNoncePackage) :
    Result ProtocolMessage :=
  toBroadcast json .htssSigningNonce package.signingSessionId package.participantId package

/-- The only package whose bytes are also checked. -/
def HtssNoncePackage.fromProtocolMessage (json : Json HtssNoncePackage) (message : ProtocolMessage) :
    Result HtssNoncePackage := do
  let package ← fromSigning json .htssSigningNonce "HTSS nonce" participantId signingSessionId message
  let _ ← noncePublicNonceBytes package
  .ok package

def HtssSignatureSharePackage.toProtocolMessage (json : Json HtssSignatureSharePackage)
    (package : HtssSignatureSharePackage) : Result ProtocolMessage :=
  toBroadcast json .htssSignatureShare package.signingSessionId package.participantId package

def HtssSignatureSharePackage.fromProtocolMessage (json : Json HtssSignatureSharePackage) :
    ProtocolMessage → Result HtssSignatureSharePackage :=
  fromSigning json .htssSignatureShare "HTSS signature share" participantId signingSessionId

end Family

section Channels

/-- The eight kinds of packages that a coordinator moves. -/
inductive Channel
  | round1
  | round2
  | htssDkgRound1
  | htssDkgRound2
  | nonce
  | signatureShare
  | htssNonce
  | htssSignatureShare
  deriving DecidableEq

namespace Channel

def Package : Channel → Type
  | round1 => Round1Package
  | round2 => Round2Package
  | htssDkgRound1 => HtssDkgRound1Package
  | htssDkgRound2 => HtssDkgRound2Package
  | nonce => NoncePackage
  | signatureShare => SignatureSharePackage
  | htssNonce => HtssNoncePackage
  | htssSignatureShare => HtssSignatureSharePackage

def kind : Channel → ProtocolMessageKind
  | round1 => .frostDkgRound1
  | round2 => .frostDkgRound2
  | htssDkgRound1 => .htssDkgRound1
  | htssDkgRound2 => .htssDkgRound2
  | nonce => .frostSigningNonce
  | signatureShare => .frostSignatureShare
  | htssNonce => .htssSigningNonce
  | htssSignatureShare => .htssSignatureShare

theorem kind_injective : Function.Injective kind := by
  intro channel channel' h
  cases channel <;> cases channel' <;> first | rfl | cases h

theorem kind_ne_custom (channel : Channel) (value : String) : channel.kind ≠ .custom value := by
  cases channel <;> exact ProtocolMessageKind.noConfusion

def sender : (channel : Channel) → channel.Package → ParticipantId
  | round1 => Round1Package.participantId
  | round2 => Round2Package.sender
  | htssDkgRound1 => HtssDkgRound1Package.participantId
  | htssDkgRound2 => HtssDkgRound2Package.sender
  | nonce => NoncePackage.participantId
  | signatureShare => SignatureSharePackage.participantId
  | htssNonce => HtssNoncePackage.participantId
  | htssSignatureShare => HtssSignatureSharePackage.participantId

/-- The recipient named by a package; `none` where packages go to everyone. -/
def recipient : (channel : Channel) → channel.Package → Option ParticipantId
  | round2 => fun package => some (Round2Package.recipient package)
  | htssDkgRound2 => fun package => some (HtssDkgRound2Package.recipient package)
  | _ => fun _ => none

/-- The session named by a package; `none` where the session is the publisher's. -/
def session : (channel : Channel) → channel.Package → Option SessionId
  | nonce => fun package => some (NoncePackage.signingSessionId package)
  | signatureShare => fun package => some (SignatureSharePackage.signingSessionId package)
  | htssNonce => fun package => some (HtssNoncePackage.signingSessionId package)
  | htssSignatureShare => fun package => some (HtssSignatureSharePackage.signingSessionId package)
  | _ => fun _ => none

/-- The checked length: 33 bytes for the public nonces of HTSS. -/
def LengthValid : (channel : Channel) → channel.Package → Prop
  | htssNonce => fun package => (HtssNoncePackage.publicNonceBytes package).length = 33
  | _ => fun _ => True

def fromProtocolMessage : (channel : Channel) → Json channel.Package → ProtocolMessage →
    Result channel.Package
  | round1 => Round1Package.fromProtocolMessage
  | round2 => Round2Package.fromProtocolMessage
  | htssDkgRound1 => HtssDkgRound1Package.fromProtocolMessage
  | htssDkgRound2 => HtssDkgRound2Package.fromProtocolMessage
  | nonce => NoncePackage.fromProtocolMessage
  | signatureShare => SignatureSharePackage.fromProtocolMessage
  | htssNonce => HtssNoncePackage.fromProtocolMessage
  | htssSignatureShare => HtssSignatureSharePackage.fromProtocolMessage

/-- The message carries the package as one of its channel. -/
@[mk_iff]
structure Genuine (channel : Channel) (json : Json channel.Package) (message : ProtocolMessage)
    (package : channel.Package) : Prop where
  kind : message.kind = channel.kind
  recipient : message.recipient = channel.recipient package
  payload : json.fromSlice message.payload = .ok package
  sender : channel.sender package = message.sender
  session : ∀ sessionId, channel.session package = some sessionId → sessionId = message.sessionId
  length : channel.LengthValid package

theorem noncePublicNonceBytes_isOk {package : HtssNoncePackage} :
    (∃ bytes, noncePublicNonceBytes package = .ok bytes) ↔ package.publicNonceBytes.length = 33 := by
  simp only [noncePublicNonceBytes, okOr_eq_ok, asArray_eq_some]
  constructor
  · rintro ⟨bytes, h⟩
    rw [h, List.Vector.toList_length]
  · intro h
    exact ⟨⟨package.publicNonceBytes, h⟩, rfl⟩

theorem htssNonce_eq_ok {json : Json HtssNoncePackage} {message : ProtocolMessage}
    {package : HtssNoncePackage} : HtssNoncePackage.fromProtocolMessage json message = .ok package ↔
      fromSigning json .htssSigningNonce "HTSS nonce" HtssNoncePackage.participantId
        HtssNoncePackage.signingSessionId message = .ok package ∧
        package.publicNonceBytes.length = 33 := by
  simp only [HtssNoncePackage.fromProtocolMessage, bind_eq_ok, Except.ok.injEq,
    ← noncePublicNonceBytes_isOk]
  constructor
  · rintro ⟨package', hpackage, bytes, hbytes, rfl⟩
    exact ⟨hpackage, bytes, hbytes⟩
  · rintro ⟨hpackage, bytes, hbytes⟩
    exact ⟨package, hpackage, bytes, hbytes, rfl⟩

theorem fromProtocolMessage_eq_ok {channel : Channel} {json : Json channel.Package}
    {message : ProtocolMessage} {package : channel.Package} :
    channel.fromProtocolMessage json message = .ok package ↔ channel.Genuine json message package := by
  have hunnamed : ∀ {a b c d : Prop}, (a ∧ b ∧ c ∧ d) ↔ a ∧ b ∧ c ∧ d ∧
      (∀ sessionId, (none : Option SessionId) = some sessionId → sessionId = message.sessionId) ∧ True := by
    simp
  have hnamed : ∀ {a b c d e : Prop} {named : SessionId}, (a ∧ b ∧ c ∧ d ∧ named = message.sessionId) ∧ e ↔
      a ∧ b ∧ c ∧ d ∧ (∀ sessionId, some named = some sessionId → sessionId = message.sessionId) ∧ e := by
    simp [and_assoc]
  rw [genuine_iff]
  cases channel with
  | round1 => exact fromBroadcast_eq_ok.trans hunnamed
  | round2 => exact fromDirect_eq_ok.trans hunnamed
  | htssDkgRound1 => exact fromBroadcast_eq_ok.trans hunnamed
  | htssDkgRound2 => exact fromDirect_eq_ok.trans hunnamed
  | nonce => exact fromSigning_eq_ok.trans ((iff_of_eq (and_true _)).symm.trans hnamed)
  | signatureShare => exact fromSigning_eq_ok.trans ((iff_of_eq (and_true _)).symm.trans hnamed)
  | htssNonce => exact htssNonce_eq_ok.trans ((and_congr_left' fromSigning_eq_ok).trans hnamed)
  | htssSignatureShare => exact fromSigning_eq_ok.trans ((iff_of_eq (and_true _)).symm.trans hnamed)

/-- The packages of key generation are sent within a given session, the others in their own. -/
def toProtocolMessage : (channel : Channel) → Json channel.Package → channel.Package → SessionId →
    Result ProtocolMessage
  | round1 => Round1Package.toProtocolMessage
  | round2 => Round2Package.toProtocolMessage
  | htssDkgRound1 => HtssDkgRound1Package.toProtocolMessage
  | htssDkgRound2 => HtssDkgRound2Package.toProtocolMessage
  | nonce => fun json package _ => NoncePackage.toProtocolMessage json package
  | signatureShare => fun json package _ => SignatureSharePackage.toProtocolMessage json package
  | htssNonce => fun json package _ => HtssNoncePackage.toProtocolMessage json package
  | htssSignatureShare => fun json package _ => HtssSignatureSharePackage.toProtocolMessage json package

/-- The message is what the package is encoded as within the session. -/
structure Encoded (channel : Channel) (json : Json channel.Package) (package : channel.Package)
    (sessionId : SessionId) (message : ProtocolMessage) : Prop where
  kind : message.kind = channel.kind
  recipient : message.recipient = channel.recipient package
  payload : json.fromSlice message.payload = .ok package
  sender : message.sender = channel.sender package
  session : message.sessionId = (channel.session package).getD sessionId

theorem Encoded.genuine {channel : Channel} {json : Json channel.Package} {package : channel.Package}
    {sessionId : SessionId} {message : ProtocolMessage}
    (h : channel.Encoded json package sessionId message) (hlen : channel.LengthValid package) :
    channel.Genuine json message package where
  kind := h.kind
  recipient := h.recipient
  payload := h.payload
  sender := h.sender.symm
  session := fun named hnamed => by rw [h.session, hnamed, Option.getD_some]
  length := hlen

theorem toProtocolMessage_spec (channel : Channel) {json : Json channel.Package}
    (hjson : json.RoundTrips) (package : channel.Package) (sessionId : SessionId) :
    ∃ message, channel.toProtocolMessage json package sessionId = .ok message ∧
      channel.Encoded json package sessionId message := by
  -- the session, the sender and the recipient that the envelope is written with
  have hbroadcast := toBroadcast_spec hjson channel.kind ((channel.session package).getD sessionId)
    (channel.sender package) package
  have hdirect := fun recipient => toDirect_spec hjson channel.kind
    ((channel.session package).getD sessionId) (channel.sender package) recipient package
  obtain ⟨payload, hto, hread⟩ := hbroadcast
  cases channel with
  | round2 =>
    obtain ⟨payload, hto, hread⟩ := hdirect (Round2Package.recipient package)
    exact ⟨_, hto, rfl, rfl, hread, rfl, rfl⟩
  | htssDkgRound2 =>
    obtain ⟨payload, hto, hread⟩ := hdirect (HtssDkgRound2Package.recipient package)
    exact ⟨_, hto, rfl, rfl, hread, rfl, rfl⟩
  | _ => exact ⟨_, hto, rfl, rfl, hread, rfl, rfl⟩

end Channel

/-- `serde_json` at the types of the packages. -/
abbrev PackageCodecs := (channel : Channel) → Json channel.Package

section Instances

deriving instance Countable for Round1Package, Round2Package, HtssDkgRound1Package,
  HtssDkgRound2Package, NoncePackage, SignatureSharePackage, HtssNoncePackage, HtssSignatureSharePackage

instance (channel : Channel) : Countable channel.Package := by
  cases channel <;> rw [Channel.Package] <;> infer_instance

def helloPackage : Round1Package := ⟨1, [7]⟩

noncomputable def helloJson : Json Round1Package :=
  .ofText (tabledText [(helloPackage, "\x7b\"participant_id\":1,\"bytes\":[7]\x7d")])

noncomputable def helloCodecs : PackageCodecs
  | .round1 => helloJson
  | _ => .ofText unaryText

theorem helloCodecs_roundTrips (channel : Channel) : (helloCodecs channel).RoundTrips := by
  have hround1 : helloJson.RoundTrips :=
    Json.ofText_roundTrips (tabledText_injective (List.nodup_singleton _))
  cases channel with
  | round1 => exact hround1
  | _ => exact Json.ofText_roundTrips unaryText_injective

end Instances

/-- What a decoder accepts has the envelope that the encoder writes, and every package that is
encoded is accepted again, by the decoder of its own type only. -/
theorem packages_match_envelopes (json : PackageCodecs) (hjson : ∀ channel, (json channel).RoundTrips) :
    (∀ channel message package, channel.fromProtocolMessage (json channel) message = .ok package →
      ∃ message', channel.toProtocolMessage (json channel) package message.sessionId = .ok message' ∧
        message'.sessionId = message.sessionId ∧ message'.sender = message.sender ∧
        message'.recipient = message.recipient ∧ message'.kind = message.kind ∧
        decodePayload (json channel) message'.payload = .ok package) ∧
    (∀ (channel : Channel) (package : channel.Package) sessionId, channel.LengthValid package →
      (channel.toProtocolMessage (json channel) package sessionId >>=
        channel.fromProtocolMessage (json channel)) = .ok package) ∧
    ∀ (channel channel' : Channel) message package package',
      channel.fromProtocolMessage (json channel) message = .ok package →
      channel'.fromProtocolMessage (json channel') message = .ok package' → channel = channel' := by
  refine ⟨fun channel message package hfrom => ?_, fun channel package sessionId hlen => ?_, ?_⟩
  · have hgenuine := Channel.fromProtocolMessage_eq_ok.mp hfrom
    obtain ⟨message', hto, hencoded⟩ :=
      channel.toProtocolMessage_spec (hjson channel) package message.sessionId
    refine ⟨message', hto, ?_, ?_, ?_, ?_, serialized_eq_ok.mpr hencoded.payload⟩
    · rw [hencoded.session]
      cases hsession : channel.session package with
      | none => rfl
      | some named => exact hgenuine.session named hsession
    · rw [hencoded.sender, hgenuine.sender]
    · rw [hencoded.recipient, hgenuine.recipient]
    · rw [hencoded.kind, hgenuine.kind]
  · obtain ⟨message, hto, hencoded⟩ := channel.toProtocolMessage_spec (hjson channel) package sessionId
    rw [hto, ok_bind]
    exact Channel.fromProtocolMessage_eq_ok.mpr (hencoded.genuine hlen)
  · intro channel channel' message package package' hfrom hfrom'
    apply Channel.kind_injective
    rw [← (Channel.fromProtocolMessage_eq_ok.mp hfrom).kind,
      (Channel.fromProtocolMessage_eq_ok.mp hfrom').kind]

theorem packages_match_envelopes_hello :
    (helloPackage.toProtocolMessage helloJson "vault-1-dkg" >>=
      Round1Package.fromProtocolMessage helloJson) = .ok helloPackage :=
  (packages_match_envelopes helloCodecs helloCodecs_roundTrips).2.1 .round1 helloPackage "vault-1-dkg"
    trivial

end Channels

end DkgKit
