import DkgKit.LocalCeremony

/-! Session configurations with named participants, their manifest, and the builder that collects
the settings of a session over any sequence of calls. -/

open LoopRules

namespace DkgKit

section Configurations

structure Participant where
  id : ParticipantId
  label : Option String
  deriving DecidableEq

def Participant.new (id : UInt16) (label : Option String) : Result Participant := do
  let id ← ParticipantId.new id
  .ok ⟨id, label⟩

structure SessionConfig where
  sessionId : SessionId
  threshold : ThresholdConfig
  participants : List Participant
  deriving DecidableEq

namespace SessionConfig

def new (sessionId : String) (threshold participantCount : UInt16) (participants : List Participant) :
    Result SessionConfig := do
  let threshold ← ThresholdConfig.new threshold participantCount
  if participants.length ≠ participantCount.toNat then
    fail (.participantCountMismatch participantCount participants.length)
  else
    let _ ← distinctLoop Participant.id (fun participant => .err (.duplicateParticipantId participant.id))
      (fun participant => if participantCount < participant.id then
        fail (.participantOutOfRange participant.id participantCount) else .ok ())
      (fun _ => .ok ()) participants ∅
    let sessionId ← SessionId.new sessionId
    .ok ⟨sessionId, threshold, participants⟩

def participant (config : SessionConfig) (id : ParticipantId) : Option Participant :=
  config.participants.find? fun participant => participant.id == id

end SessionConfig

inductive SessionPhase
  | created
  | round1
  | round2
  | finalized
  | signing
  | complete
  | failed
  deriving DecidableEq

structure SessionManifest where
  config : SessionConfig
  protocol : String
  protocolVersion : String
  phase : SessionPhase
  deriving DecidableEq

def SessionManifest.frostV1 (config : SessionConfig) : SessionManifest :=
  ⟨config, "frost", "0.1", .created⟩

variable {sessionId : String} {threshold participantCount : UInt16} {participants : List Participant}
  {config : SessionConfig}

theorem SessionConfig.new_eq_ok :
    SessionConfig.new sessionId threshold participantCount participants = .ok config ↔
      0 < threshold.toNat ∧ threshold.toNat ≤ participantCount.toNat ∧
      participants.length = participantCount.toNat ∧
      (∀ participant ∈ participants, participant.id ≤ participantCount) ∧
      (participants.map Participant.id).Nodup ∧ isBlank sessionId = false ∧
      config = ⟨sessionId, ⟨threshold, participantCount⟩, participants⟩ := by
  simp only [SessionConfig.new, bind_eq_ok, ThresholdConfig.new_eq_ok, ifFail_eq_ok, not_not, ne_eq,
    distinctLoop_empty_eq_ok, UInt16.not_lt, and_true, sessionIdNew_eq_ok, Except.ok.injEq]
  constructor
  · rintro ⟨_, ⟨hpos, hle, rfl⟩, hlen, _, ⟨hrange, hnd, -⟩, _, ⟨hname, rfl⟩, rfl⟩
    exact ⟨hpos, hle, hlen, hrange, hnd, hname, rfl⟩
  · rintro ⟨hpos, hle, hlen, hrange, hnd, hname, rfl⟩
    exact ⟨_, ⟨hpos, hle, rfl⟩, hlen, _, ⟨hrange, hnd, rfl⟩, _, ⟨hname, rfl⟩, rfl⟩

/-- Distinct ids from `1` to `n`, as many as that, are the ids of all parties. -/
theorem ids_perm_partyIds_iff (ids : List ParticipantId) (n : UInt16) :
    ids.Perm (partyIds n) ↔ ids.length = n.toNat ∧ (∀ id ∈ ids, id ≠ 0 ∧ id ≤ n) ∧ ids.Nodup := by
  constructor
  · intro hperm
    refine ⟨hperm.length_eq.trans (length_partyIds n), fun id hid => ?_, ?_⟩
    · exact mem_partyIds.mp (hperm.mem_iff.mp hid)
    · exact hperm.nodup_iff.mpr (nodup_partyIds n)
  · rintro ⟨hlen, hrange, hnd⟩
    have hsub : ids ⊆ partyIds n := fun id hid => mem_partyIds.mpr (hrange id hid)
    exact (hnd.subperm hsub).perm_of_length_le (by rw [hlen, length_partyIds])

end Configurations

section Builder

structure DkgKitSessionBuilder where
  sessionId : Option String
  threshold : Option UInt16
  participantCount : Option UInt16
  participants : List Participant
  localParticipantId : Option UInt16

inductive BuilderCall
  | sessionId (value : String)
  | threshold (threshold participantCount : UInt16)
  | participant (id : UInt16) (label : Option String)
  | localParticipant (id : UInt16)

namespace DkgKitSessionBuilder

def new : DkgKitSessionBuilder := ⟨none, none, none, [], none⟩

/-- The setters in the order of the source; only a participant can be refused. -/
def perform (builder : DkgKitSessionBuilder) : BuilderCall → Result DkgKitSessionBuilder
  | .sessionId value => .ok { builder with sessionId := some value }
  | .threshold threshold participantCount =>
    .ok { builder with threshold := some threshold, participantCount := some participantCount }
  | .participant id label => do
    let participant ← Participant.new id label
    .ok { builder with participants := builder.participants ++ [participant] }
  | .localParticipant id => .ok { builder with localParticipantId := some id }

def buildManifest (builder : DkgKitSessionBuilder) : Result SessionManifest := do
  let config ← SessionConfig.new (builder.sessionId.getD "default") (builder.threshold.getD 0)
    (builder.participantCount.getD 0) builder.participants
  .ok (SessionManifest.frostV1 config)

def buildFrostSession (builder : DkgKitSessionBuilder) : Result FrostDkgSession := do
  let localParticipantId ← ParticipantId.new (builder.localParticipantId.getD 0)
  let manifest ← builder.buildManifest
  .ok (FrostDkgSession.new ⟨manifest.config.sessionId, manifest.config.threshold, localParticipantId⟩)

def run (calls : List BuilderCall) : Result DkgKitSessionBuilder := calls.foldlM perform new

end DkgKitSessionBuilder

namespace BuilderCall

def sessionId? : BuilderCall → Option String
  | .sessionId value => some value
  | _ => none

def threshold? : BuilderCall → Option (UInt16 × UInt16)
  | .threshold required total => some (required, total)
  | _ => none

def participant? : BuilderCall → Option Participant
  | .participant id label => some ⟨id, label⟩
  | _ => none

def localParticipant? : BuilderCall → Option UInt16
  | .localParticipant id => some id
  | _ => none

end BuilderCall

/-- The value set last. -/
def lastSet {α : Type} (set? : BuilderCall → Option α) (calls : List BuilderCall) : Option α :=
  (calls.filterMap set?).getLast?

theorem lastSet_concat {α : Type} (set? : BuilderCall → Option α) (calls : List BuilderCall)
    (call : BuilderCall) : lastSet set? (calls ++ [call]) = (set? call).or (lastSet set? calls) := by
  rw [lastSet, List.filterMap_append, List.getLast?_append]
  cases hset : set? call with
  | none => simp [hset, lastSet]
  | some value => simp [hset]

/-- The builder after calls none of which it refuses. -/
def collected (calls : List BuilderCall) : DkgKitSessionBuilder where
  sessionId := lastSet BuilderCall.sessionId? calls
  threshold := (lastSet BuilderCall.threshold? calls).map Prod.fst
  participantCount := (lastSet BuilderCall.threshold? calls).map Prod.snd
  participants := calls.filterMap BuilderCall.participant?
  localParticipantId := lastSet BuilderCall.localParticipant? calls

theorem perform_collected (calls : List BuilderCall) {call : BuilderCall}
    (hid : ∀ participant ∈ call.participant?, participant.id ≠ 0) :
    (collected calls).perform call = .ok (collected (calls ++ [call])) := by
  rw [collected, collected]
  simp only [lastSet_concat, List.filterMap_append]
  cases call with
  | sessionId value => simp [DkgKitSessionBuilder.perform, BuilderCall.sessionId?, BuilderCall.threshold?,
      BuilderCall.participant?, BuilderCall.localParticipant?]
  | threshold threshold participantCount => simp [DkgKitSessionBuilder.perform, BuilderCall.sessionId?,
      BuilderCall.threshold?, BuilderCall.participant?, BuilderCall.localParticipant?]
  | participant id label =>
    have hne : id ≠ 0 := hid ⟨id, label⟩ rfl
    simp [DkgKitSessionBuilder.perform, Participant.new, ParticipantId.new, hne, BuilderCall.participant?,
      BuilderCall.sessionId?, BuilderCall.threshold?, BuilderCall.localParticipant?]
  | localParticipant id => simp [DkgKitSessionBuilder.perform, BuilderCall.sessionId?, BuilderCall.threshold?,
      BuilderCall.participant?, BuilderCall.localParticipant?]

theorem participant_of_perform {builder builder' : DkgKitSessionBuilder} {call : BuilderCall}
    (h : builder.perform call = .ok builder') : ∀ participant ∈ call.participant?, participant.id ≠ 0 := by
  intro participant hparticipant
  cases call with
  | participant id label =>
    obtain rfl := Option.some.inj hparticipant
    simp only [DkgKitSessionBuilder.perform, Participant.new, bind_eq_ok, participantIdNew_eq_ok] at h
    obtain ⟨_, ⟨_, ⟨hne, -⟩, -⟩, -⟩ := h
    exact hne
  | sessionId value => cases hparticipant
  | threshold threshold participantCount => cases hparticipant
  | localParticipant id => cases hparticipant

/-- The builder refuses no call but a participant with the id `0`, and holds what was set last. -/
theorem run_eq_ok (calls : List BuilderCall) (builder : DkgKitSessionBuilder) :
    DkgKitSessionBuilder.run calls = .ok builder ↔
      (∀ participant ∈ calls.filterMap BuilderCall.participant?, participant.id ≠ 0) ∧
        builder = collected calls := by
  induction calls using List.reverseRecOn generalizing builder with
  | nil => simp [DkgKitSessionBuilder.run, pure, Except.pure, collected, lastSet, DkgKitSessionBuilder.new,
      eq_comm]
  | append_singleton calls call ih =>
    have hrun : DkgKitSessionBuilder.run (calls ++ [call]) =
        (DkgKitSessionBuilder.run calls >>= fun builder => builder.perform call) := by
      rw [DkgKitSessionBuilder.run, List.foldlM_append]
      congr 1
      funext builder
      exact bind_pure _
    have hids : (∀ participant ∈ (calls ++ [call]).filterMap BuilderCall.participant?, participant.id ≠ 0) ↔
        (∀ participant ∈ calls.filterMap BuilderCall.participant?, participant.id ≠ 0) ∧
          ∀ participant ∈ call.participant?, participant.id ≠ 0 := by
      rw [List.filterMap_append, List.forall_mem_append]
      cases hparticipant : call.participant? with
      | none => simp [hparticipant]
      | some participant => simp [hparticipant]
    rw [hrun, bind_eq_ok, hids]
    constructor
    · rintro ⟨before, hbefore, hperform⟩
      obtain ⟨hcalls, rfl⟩ := (ih before).mp hbefore
      have hcall := participant_of_perform hperform
      rw [perform_collected calls hcall] at hperform
      exact ⟨⟨hcalls, hcall⟩, (Except.ok.inj hperform).symm⟩
    · rintro ⟨⟨hcalls, hcall⟩, rfl⟩
      exact ⟨collected calls, (ih _).mpr ⟨hcalls, rfl⟩, perform_collected calls hcall⟩

end Builder

/-- The session that a builder builds is the one that the values set last create, exactly if the
participants added over all calls are `1` to `n`, each once. -/
theorem builder_eq_create (calls : List BuilderCall) (session : FrostDkgSession) :
    let settings := (lastSet BuilderCall.threshold? calls).getD (0, 0)
    (DkgKitSessionBuilder.run calls >>= DkgKitSessionBuilder.buildFrostSession) = .ok session ↔
      createFrostSession ((lastSet BuilderCall.sessionId? calls).getD "default") settings.1 settings.2
          ((lastSet BuilderCall.localParticipant? calls).getD 0) = .ok session ∧
        ((calls.filterMap BuilderCall.participant?).map Participant.id).Perm (partyIds settings.2) := by
  intro settings
  have hthreshold : (collected calls).threshold.getD 0 = settings.1 := by
    rw [collected]
    cases hset : lastSet BuilderCall.threshold? calls <;> simp [settings, hset]
  have hcount : (collected calls).participantCount.getD 0 = settings.2 := by
    rw [collected]
    cases hset : lastSet BuilderCall.threshold? calls <;> simp [settings, hset]
  have hids : (∀ participant ∈ calls.filterMap BuilderCall.participant?, participant.id ≠ 0) ↔
      ∀ id ∈ (calls.filterMap BuilderCall.participant?).map Participant.id, id ≠ 0 := by
    rw [List.forall_mem_map]
  rw [bind_eq_ok]
  simp only [run_eq_ok, DkgKitSessionBuilder.buildFrostSession, DkgKitSessionBuilder.buildManifest,
    createFrostSession, bind_eq_ok, participantIdNew_eq_ok, sessionIdNew_eq_ok, ThresholdConfig.new_eq_ok,
    SessionConfig.new_eq_ok, Except.ok.injEq, ids_perm_partyIds_iff, List.length_map, hids]
  constructor
  · rintro ⟨_, ⟨hne, rfl⟩, _, ⟨hlocal, rfl⟩, _, ⟨_, ⟨hpos, hle, hlen, hrange, hnd, hname, rfl⟩, rfl⟩, rfl⟩
    rw [hthreshold] at hpos hle
    rw [hcount] at hle hlen hrange
    refine ⟨⟨_, ⟨hname, rfl⟩, _, ⟨hpos, hle, rfl⟩, _, ⟨hlocal, rfl⟩, ?_⟩, hlen, fun id hid => ⟨hne id hid, ?_⟩, hnd⟩
    · rw [SessionManifest.frostV1, hthreshold, hcount]
      rfl
    · obtain ⟨participant, hparticipant, rfl⟩ := List.mem_map.mp hid
      exact hrange participant hparticipant
  · rintro ⟨⟨_, ⟨hname, rfl⟩, _, ⟨hpos, hle, rfl⟩, _, ⟨hlocal, rfl⟩, rfl⟩, hlen, hrange, hnd⟩
    refine ⟨_, ⟨fun id hid => (hrange id hid).1, rfl⟩, _, ⟨hlocal, rfl⟩, _,
      ⟨_, ⟨?_, ?_, ?_, ?_, hnd, hname, rfl⟩, rfl⟩, ?_⟩
    · rw [hthreshold]
      exact hpos
    · rw [hthreshold, hcount]
      exact hle
    · rw [hcount]
      exact hlen
    · rw [hcount]
      exact fun participant hparticipant => (hrange _ (List.mem_map_of_mem hparticipant)).2
    · rw [SessionManifest.frostV1, hthreshold, hcount]
      rfl

end DkgKit
