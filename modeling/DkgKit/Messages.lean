import Mathlib.Algebra.Order.BigOperators.Group.List
import Mathlib.Algebra.Order.Ring.Nat
import Mathlib.Data.Countable.Basic
import Mathlib.Logic.Equiv.List
import Mathlib.Tactic.DeriveCountable
import DkgKit.Core
import DkgKit.SelectiveQueue

/-! Protocol messages of `dkgkit-core` and the transports of `dkgkit-transport`. What
`serde_json` writes and reads is a parameter. -/

open SelectiveQueue

namespace DkgKit

section Encoding

variable {α : Type}

def asBytes (text : String) : List UInt8 := text.toUTF8.data.toList

def fromUtf8 (bytes : List UInt8) : Option String := String.fromUTF8? ⟨bytes.toArray⟩

theorem fromUtf8_asBytes (text : String) : fromUtf8 (asBytes text) = some text := by
  have hvalid : (⟨text.toUTF8.data⟩ : ByteArray).IsValidUTF8 := text.isValidUTF8
  rw [fromUtf8, asBytes, Array.toArray_toList, String.fromUTF8?, dif_pos hvalid]
  rfl

theorem asBytes_of_fromUtf8 {bytes : List UInt8} {text : String} (h : fromUtf8 bytes = some text) :
    asBytes text = bytes := by
  rw [fromUtf8, String.fromUTF8?] at h
  split_ifs at h with hvalid
  rw [← Option.some.inj h]
  rfl

/-- `serde_json::to_vec` and `serde_json::from_slice` at one type. -/
structure Json (α : Type) where
  toVec : α → Except String (List UInt8)
  fromSlice : List UInt8 → Except String α

/-- Every value is written as a text, and reading the text gives the value back. -/
def Json.RoundTrips (json : Json α) : Prop :=
  ∀ a, ∃ text, json.toVec a = .ok (asBytes text) ∧ json.fromSlice (asBytes text) = .ok a

theorem asBytes_injective : Function.Injective asBytes := by
  intro text text' h
  have hread := congrArg fromUtf8 h
  rwa [fromUtf8_asBytes, fromUtf8_asBytes, Option.some_inj] at hread

open Classical in
/-- The codec that writes values as given texts and reads exactly these texts. -/
noncomputable def Json.ofText (textOf : α → String) : Json α where
  toVec := fun a => .ok (asBytes (textOf a))
  fromSlice := fun bytes =>
    if h : ∃ a, asBytes (textOf a) = bytes then .ok h.choose
    else .error "expected value at line 1 column 1"

theorem Json.ofText_roundTrips {textOf : α → String} (hinj : Function.Injective textOf) :
    (Json.ofText textOf).RoundTrips := by
  intro a
  have hex : ∃ a', asBytes (textOf a') = asBytes (textOf a) := ⟨a, rfl⟩
  have hchoose : hex.choose = a := hinj (asBytes_injective hex.choose_spec)
  refine ⟨textOf a, rfl, ?_⟩
  rw [Json.ofText]
  simp only [dif_pos hex, hchoose]

instance countable_uint8 : Countable UInt8 := Function.Injective.countable fun _ _ => UInt8.toNat_inj.mp

instance countable_uint16 : Countable UInt16 := Function.Injective.countable fun _ _ => UInt16.toNat_inj.mp

instance countable_string : Countable String := by
  have hchar : Countable Char := Function.Injective.countable fun _ _ => Char.toNat_inj.mp
  exact Function.Injective.countable fun _ _ => String.toList_inj.mp

/-- Every value as its number in unary. -/
noncomputable def unaryText [Countable α] (a : α) : String :=
  String.ofList (List.replicate ((exists_injective_nat α).choose a) '#')

theorem unaryText_injective [Countable α] : Function.Injective (unaryText (α := α)) := by
  intro a a' h
  have hlen := congrArg String.length h
  simp only [unaryText, String.length_ofList, List.length_replicate] at hlen
  exact (exists_injective_nat α).choose_spec hlen

/-- The values of a table have their texts, every other one its number behind more marks than
any of them has. -/
noncomputable def tabledText [Countable α] [DecidableEq α] (table : List (α × String)) (a : α) : String :=
  match table.lookup a with
  | some text => text
  | none =>
    String.ofList (List.replicate ((table.map fun entry => entry.2.length).sum + 1) '#') ++ unaryText a

theorem tabledText_injective [Countable α] [DecidableEq α] {table : List (α × String)}
    (hnd : (table.map Prod.snd).Nodup) : Function.Injective (tabledText table) := by
  have hlisted : ∀ a text, table.lookup a = some text →
      (a, text) ∈ table ∧ tabledText table a = text := by
    intro a text hlookup
    obtain ⟨before, after, htable, -⟩ := List.lookup_eq_some_iff.mp hlookup
    refine ⟨htable ▸ List.mem_append_right before List.mem_cons_self, ?_⟩
    rw [tabledText, hlookup]
  have hother : ∀ a text b, table.lookup a = none → (b, text) ∈ table → tabledText table a ≠ text := by
    intro a text b hlookup hmem heq
    have hle := List.le_sum_of_mem
      (List.mem_map_of_mem (f := fun entry : α × String => entry.2.length) hmem)
    have hlen := congrArg String.length heq
    rw [tabledText, hlookup, String.length_append, String.length_ofList, List.length_replicate] at hlen
    dsimp only at hle
    omega
  intro a a' h
  cases ha : table.lookup a with
  | some text =>
    obtain ⟨hmem, htext⟩ := hlisted a text ha
    cases ha' : table.lookup a' with
    | some text' =>
      obtain ⟨hmem', htext'⟩ := hlisted a' text' ha'
      have hsame : text = text' := by rw [← htext, ← htext', h]
      exact congrArg Prod.fst (List.inj_on_of_nodup_map hnd hmem hmem' hsame)
    | none => exact absurd (h.symm.trans htext) (hother a' text a ha' hmem)
  | none =>
    cases ha' : table.lookup a' with
    | some text' =>
      obtain ⟨hmem', htext'⟩ := hlisted a' text' ha'
      exact absurd (h.trans htext') (hother a text' a' ha hmem')
    | none =>
      rw [tabledText, tabledText, ha, ha', String.append_right_inj] at h
      exact unaryText_injective h

def serialized : Except String α → Result α
  | .ok a => .ok a
  | .error text => fail (.serialization text)

theorem serialized_eq_ok {x : Except String α} {a : α} : serialized x = .ok a ↔ x = .ok a := by
  cases x <;> simp [serialized]

end Encoding

section Messages

inductive ProtocolMessageKind
  | sessionManifest
  | frostDkgRound1
  | frostDkgRound2
  | htssDkgRound1
  | htssDkgRound2
  | frostSigningNonce
  | frostSignatureShare
  | htssSigningNonce
  | htssSignatureShare
  | custom (value : String)
  deriving DecidableEq

def ProtocolMessageKind.asStr : ProtocolMessageKind → String
  | sessionManifest => "session_manifest"
  | frostDkgRound1 => "frost_dkg_round1"
  | frostDkgRound2 => "frost_dkg_round2"
  | htssDkgRound1 => "htss_dkg_round1"
  | htssDkgRound2 => "htss_dkg_round2"
  | frostSigningNonce => "frost_signing_nonce"
  | frostSignatureShare => "frost_signature_share"
  | htssSigningNonce => "htss_signing_nonce"
  | htssSignatureShare => "htss_signature_share"
  | custom value => value

/-- `From<&str>`: four kinds also have a short name. -/
def ProtocolMessageKind.from (value : String) : ProtocolMessageKind :=
  if value = "session_manifest" then sessionManifest
  else if value = "frost_dkg_round1" ∨ value = "round1" then frostDkgRound1
  else if value = "frost_dkg_round2" ∨ value = "round2" then frostDkgRound2
  else if value = "htss_dkg_round1" then htssDkgRound1
  else if value = "htss_dkg_round2" then htssDkgRound2
  else if value = "frost_signing_nonce" ∨ value = "nonce" then frostSigningNonce
  else if value = "frost_signature_share" ∨ value = "signature_share" then frostSignatureShare
  else if value = "htss_signing_nonce" then htssSigningNonce
  else if value = "htss_signature_share" then htssSignatureShare
  else custom value

structure ProtocolMessage where
  protocolVersion : String
  sessionId : SessionId
  sender : ParticipantId
  recipient : Option ParticipantId
  kind : ProtocolMessageKind
  payload : List UInt8
  deriving DecidableEq

namespace ProtocolMessage

def dkgkitProtocolVersion : String := "dkgkit/0.1"

def broadcast (sessionId : SessionId) (sender : ParticipantId) (kind : ProtocolMessageKind)
    (payload : List UInt8) : ProtocolMessage :=
  ⟨dkgkitProtocolVersion, sessionId, sender, none, kind, payload⟩

def direct (sessionId : SessionId) (sender recipient : ParticipantId) (kind : ProtocolMessageKind)
    (payload : List UInt8) : ProtocolMessage :=
  ⟨dkgkitProtocolVersion, sessionId, sender, some recipient, kind, payload⟩

def isFor (message : ProtocolMessage) (participantId : ParticipantId) : Bool :=
  (message.recipient.map fun recipient => decide (recipient = participantId)).getD true

def encodeJson (json : Json ProtocolMessage) (message : ProtocolMessage) : Result (List UInt8) :=
  serialized (json.toVec message)

def decodeJson (json : Json ProtocolMessage) (bytes : List UInt8) : Result ProtocolMessage :=
  serialized (json.fromSlice bytes)

end ProtocolMessage

deriving instance Countable for ProtocolMessageKind, ProtocolMessage

end Messages

section Transports

/-- A closure over messages; `σ` is what it has captured. -/
abbrev Predicate (σ : Type) := σ → ProtocolMessage → Bool × σ

/-- The trait `Transport`. Every method returns its result and the transport after it. -/
structure Transport (τ : Type) where
  connect : τ → Result Unit × τ
  disconnect : τ → Result Unit × τ
  publish : ProtocolMessage → τ → Result Unit × τ
  drainMatching : {σ : Type} → SessionId → Predicate σ → τ → σ → Result (List ProtocolMessage) × τ × σ

def Transport.drainSession {τ : Type} (impl : Transport τ) (sessionId : SessionId) (transport : τ) :
    Result (List ProtocolMessage) × τ :=
  let (result, transport, _) := impl.drainMatching sessionId (fun _ _ => (true, ())) transport ()
  (result, transport)

/-- The test `session_id == .. && predicate(..)` of a drain. -/
def Predicate.within {σ : Type} (predicate : Predicate σ) (sessionId : SessionId) : Predicate σ :=
  fun s message => if message.sessionId = sessionId then predicate s message else (false, s)

structure MemoryTransport where
  connected : Bool
  messages : List ProtocolMessage
  deriving DecidableEq

namespace MemoryTransport

def default : MemoryTransport := ⟨false, []⟩

def pendingLen (transport : MemoryTransport) : ℕ := transport.messages.length

def publish (message : ProtocolMessage) (transport : MemoryTransport) : Result Unit × MemoryTransport :=
  (.ok (), { transport with messages := transport.messages ++ [message] })

def drainMatching {σ : Type} (sessionId : SessionId) (predicate : Predicate σ)
    (transport : MemoryTransport) (s : σ) : Result (List ProtocolMessage) × MemoryTransport × σ :=
  let (messages, matched, s) := retain (fun (acc : List ProtocolMessage × σ) message =>
    let (hit, s) := predicate.within sessionId acc.2 message
    if hit then (false, acc.1 ++ [message], s) else (true, acc.1, s)) transport.messages ([], s)
  (.ok matched, { transport with messages := messages }, s)

def transport : Transport MemoryTransport where
  connect := fun memory => (.ok (), { memory with connected := true })
  disconnect := fun memory => (.ok (), { memory with connected := false })
  publish := publish
  drainMatching := drainMatching

theorem drainMatching_eq_sift {σ : Type} (sessionId : SessionId) (predicate : Predicate σ)
    (memory : MemoryTransport) (s : σ) : drainMatching sessionId predicate memory s =
      (.ok (sift (predicate.within sessionId) memory.messages s).1,
        { memory with messages := (sift (predicate.within sessionId) memory.messages s).2.1 },
        (sift (predicate.within sessionId) memory.messages s).2.2) := by
  have hpass := retain_eq_sift (predicate.within sessionId) memory.messages [] s
  rw [drainMatching]
  simp only [hpass, List.nil_append]

end MemoryTransport

end Transports

section Runs

variable {σ τ τ' : Type}

/-- A call of a transport. The predicates of all calls may share the state `σ`. -/
inductive TransportCall (σ : Type)
  | publish (message : ProtocolMessage)
  | drainMatching (sessionId : SessionId) (predicate : Predicate σ)
  | drainSession (sessionId : SessionId)

inductive TransportReply
  | published (result : Result Unit)
  | drained (result : Result (List ProtocolMessage))

/-- What is seen of a call: its result, the number of messages pending after it, the
messages its predicate was invoked on, and the state of the predicates after it. -/
structure Observation (σ : Type) where
  reply : TransportReply
  pendingLen : ℕ
  invoked : List ProtocolMessage
  state : σ

/-- The predicate, with a log of its invocations. -/
def Predicate.logged (predicate : Predicate σ) : Predicate (σ × List ProtocolMessage) :=
  fun s message => ((predicate s.1 message).1, (predicate s.1 message).2, s.2 ++ [message])

namespace Transport

def perform (impl : Transport τ) (pendingLen : τ → ℕ) (call : TransportCall σ) (transport : τ) (s : σ) :
    Observation σ × τ :=
  match call with
  | .publish message =>
    let (result, transport) := impl.publish message transport
    (⟨.published result, pendingLen transport, [], s⟩, transport)
  | .drainMatching sessionId predicate =>
    let (result, transport, s, invoked) :=
      impl.drainMatching sessionId predicate.logged transport (s, [])
    (⟨.drained result, pendingLen transport, invoked, s⟩, transport)
  | .drainSession sessionId =>
    let (result, transport) := impl.drainSession sessionId transport
    (⟨.drained result, pendingLen transport, [], s⟩, transport)

def run (impl : Transport τ) (pendingLen : τ → ℕ) :
    List (TransportCall σ) → τ → σ → List (Observation σ) × τ × σ
  | [], transport, s => ([], transport, s)
  | call :: rest, transport, s =>
    let (seen, transport) := impl.perform pendingLen call transport s
    let (observed, transport, s) := impl.run pendingLen rest transport seen.state
    (seen :: observed, transport, s)

theorem run_append (impl : Transport τ) (pendingLen : τ → ℕ) (calls calls' : List (TransportCall σ))
    (transport : τ) (s : σ) : (impl.run pendingLen (calls ++ calls') transport s).2 =
      (impl.run pendingLen calls' (impl.run pendingLen calls transport s).2.1
        (impl.run pendingLen calls transport s).2.2).2 := by
  induction calls generalizing transport s with
  | nil => rfl
  | cons call rest ih => exact ih _ _

/-- What every call keeps, from any state of the predicates, holds after every run. -/
theorem run_keeps (impl : Transport τ) (pendingLen : τ → ℕ) {P : τ → Prop} (calls : List (TransportCall σ))
    (hstep : ∀ call ∈ calls, ∀ transport s, P transport → P (impl.perform pendingLen call transport s).2)
    (transport : τ) (h : P transport) (s : σ) : P (impl.run pendingLen calls transport s).2.1 := by
  induction calls generalizing transport s with
  | nil => exact h
  | cons call rest ih =>
    rw [List.forall_mem_cons] at hstep
    exact ih hstep.2 _ (hstep.1 transport s h) _

/-- A relation between two transports that their operations keep, with equal results, as
long as the published messages are admissible. -/
structure Simulation (impl : Transport τ) (impl' : Transport τ') (pendingLen : τ → ℕ)
    (pendingLen' : τ' → ℕ) (admissible : ProtocolMessage → Prop) (R : τ → τ' → Prop) : Prop where
  pendingLen_eq : ∀ {t t'}, R t t' → pendingLen t = pendingLen' t'
  publish_eq : ∀ {t t' message}, R t t' → admissible message →
    (impl.publish message t).1 = (impl'.publish message t').1 ∧
      R (impl.publish message t).2 (impl'.publish message t').2
  drain_eq : ∀ {t t'} {σ : Type} (sessionId : SessionId) (predicate : Predicate σ) (s : σ), R t t' →
    (impl.drainMatching sessionId predicate t s).1 = (impl'.drainMatching sessionId predicate t' s).1 ∧
      (impl.drainMatching sessionId predicate t s).2.2 =
        (impl'.drainMatching sessionId predicate t' s).2.2 ∧
      R (impl.drainMatching sessionId predicate t s).2.1 (impl'.drainMatching sessionId predicate t' s).2.1

section Simulations

variable {impl : Transport τ} {impl' : Transport τ'} {pendingLen : τ → ℕ} {pendingLen' : τ' → ℕ}
variable {admissible : ProtocolMessage → Prop} {R : τ → τ' → Prop}

theorem Simulation.perform_eq (hsim : Simulation impl impl' pendingLen pendingLen' admissible R)
    {t : τ} {t' : τ'} (hR : R t t') (call : TransportCall σ)
    (hcall : ∀ message, call = .publish message → admissible message) (s : σ) :
    (impl.perform pendingLen call t s).1 = (impl'.perform pendingLen' call t' s).1 ∧
      R (impl.perform pendingLen call t s).2 (impl'.perform pendingLen' call t' s).2 := by
  cases call with
  | publish message =>
    obtain ⟨hreply, hR'⟩ := hsim.publish_eq hR (hcall message rfl)
    have hlen := hsim.pendingLen_eq hR'
    simp only [perform, hreply, hlen, true_and]
    exact hR'
  | drainMatching sessionId predicate =>
    obtain ⟨hreply, hstate, hR'⟩ := hsim.drain_eq sessionId predicate.logged (s, []) hR
    have hlen := hsim.pendingLen_eq hR'
    simp only [perform, hreply, hstate, hlen, true_and]
    exact hR'
  | drainSession sessionId =>
    obtain ⟨hreply, -, hR'⟩ := hsim.drain_eq sessionId (fun _ _ => (true, ())) () hR
    have hlen := hsim.pendingLen_eq hR'
    simp only [perform, drainSession, hreply, hlen, true_and]
    exact hR'

theorem Simulation.run_eq (hsim : Simulation impl impl' pendingLen pendingLen' admissible R)
    {calls : List (TransportCall σ)} (hcalls : ∀ message, .publish message ∈ calls → admissible message)
    {t : τ} {t' : τ'} (hR : R t t') (s : σ) :
    (impl.run pendingLen calls t s).1 = (impl'.run pendingLen' calls t' s).1 := by
  induction calls generalizing t t' s with
  | nil => rfl
  | cons call rest ih =>
    obtain ⟨hseen, hR'⟩ := hsim.perform_eq hR call
      (fun message heq => hcalls message (by simp [heq])) s
    have hrest := ih (fun message hmem => hcalls message (List.mem_cons_of_mem _ hmem)) hR'
      (impl.perform pendingLen call t s).1.state
    simp only [run]
    rw [hrest, hseen]

end Simulations

end Transport

end Runs

end DkgKit
