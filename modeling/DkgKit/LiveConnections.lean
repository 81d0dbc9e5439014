import DkgKit.LiveTransport

/-! Connections of one live transport. Every connection has a relay thread with its own set
of event ids seen; the buffer they push into belongs to the transport and outlives them. -/

open BigEndian

namespace DkgKit

section Runs

/-- A message pushed into the buffer: by which thread, and for which event. -/
structure Push where
  thread : ℕ
  eventId : EventId
  message : ProtocolMessage

/-- A transport with its relay threads. `threads` holds the event ids that a running thread
has seen, `pushed` all that was ever pushed. -/
structure Connections (κ : Type) where
  transport : LiveNostrTransport κ
  threads : ℕ → Option (Finset EventId)
  spawned : ℕ
  pushed : List Push

inductive ConnectionStep (σ : Type)
  | connect (report : Ready)
  | disconnect
  | drainMatching (sessionId : SessionId) (predicate : Predicate σ) (captured : σ)
  | deliver (thread : ℕ) (event : Event)
  | stop (thread : ℕ)

namespace Connections

variable {κ σ : Type}

def new (cfg : LiveNostrTransportConfig κ) (vaultTag : String) : Connections κ :=
  ⟨LiveNostrTransport.new cfg vaultTag, fun _ => none, 0, []⟩

/-- A thread that does not report in time may still reach its loop. -/
def spawn (connections : Connections κ) (report : Ready) : ℕ → Option (Finset EventId) :=
  match report with
  | .failed _ => connections.threads
  | _ => Function.update connections.threads connections.spawned (some ∅)

def connect (connections : Connections κ) (report : Ready) : Connections κ :=
  if connections.transport.connected then connections
  else { connections with
    transport := (connections.transport.connect connections.spawned report).2
    threads := connections.spawn report
    spawned := connections.spawned + 1 }

def disconnect (connections : Connections κ) : Connections κ :=
  { connections with
    transport := connections.transport.disconnect.2
    threads := match connections.transport.handle with
      | some thread => Function.update connections.threads thread none
      | none => connections.threads }

def deliver (wire : Wire) (nip44 : Nip44 κ) (connections : Connections κ) (thread : ℕ) (event : Event) :
    Connections κ :=
  match connections.threads thread with
  | none => connections
  | some seen =>
    let transport := connections.transport
    let inbox := handleInboundEvent wire nip44 transport.cfg.keys transport.cfg.selfId
      ⟨seen, transport.inbound⟩ event
    { connections with
      transport := { transport with inbound := inbox.inbound }
      threads := Function.update connections.threads thread (some inbox.seen)
      pushed := connections.pushed ++
        (inbox.inbound.drop transport.inbound.length).map (Push.mk thread event.id) }

def step (wire : Wire) (nip44 : Nip44 κ) (connections : Connections κ) :
    ConnectionStep σ → Connections κ
  | .connect report => connections.connect report
  | .disconnect => connections.disconnect
  | .drainMatching sessionId predicate captured => { connections with
      transport := (connections.transport.drainMatching sessionId predicate captured).2.1 }
  | .deliver thread event => connections.deliver wire nip44 thread event
  | .stop thread => { connections with threads := Function.update connections.threads thread none }

def run (wire : Wire) (nip44 : Nip44 κ) (cfg : LiveNostrTransportConfig κ) (vaultTag : String)
    (steps : List (ConnectionStep σ)) : Connections κ :=
  steps.foldl (step wire nip44) (new cfg vaultTag)

/-- Every thread pushes for an event id at most once, and remembers the id as long as it runs. -/
structure Deduplicated (connections : Connections κ) : Prop where
  once : (connections.pushed.map fun push => (push.thread, push.eventId)).Nodup
  spawned : ∀ push ∈ connections.pushed, push.thread < connections.spawned
  running : ∀ thread, connections.spawned ≤ thread → connections.threads thread = none
  seen : ∀ push ∈ connections.pushed, ∀ seen, connections.threads push.thread = some seen →
    push.eventId ∈ seen

end Connections

end Runs

section Deduplication

open Connections

variable {κ σ : Type} {wire : Wire} {nip44 : Nip44 κ} {connections : Connections κ}

/-- A step that pushes nothing and forgets nothing a running thread has seen. -/
theorem Connections.Deduplicated.of_threads {connections' : Connections κ} (h : connections.Deduplicated)
    (hpushed : connections'.pushed = connections.pushed) (hspawned : connections.spawned ≤ connections'.spawned)
    (hthreads : ∀ thread seen, connections'.threads thread = some seen →
      connections.threads thread = some seen ∨ connections.spawned ≤ thread ∧ thread < connections'.spawned) :
    connections'.Deduplicated := by
  refine ⟨hpushed ▸ h.once, fun push hpush => ?_, fun thread hle => ?_, fun push hpush seen hseen => ?_⟩
  · rw [hpushed] at hpush
    exact (h.spawned push hpush).trans_le hspawned
  · rw [Option.eq_none_iff_forall_ne_some]
    intro seen hseen
    rcases hthreads thread seen hseen with hold | ⟨-, hlt⟩
    · rw [h.running thread (hspawned.trans hle)] at hold
      cases hold
    · omega
  · rw [hpushed] at hpush
    rcases hthreads push.thread seen hseen with hold | ⟨hle, -⟩
    · exact h.seen push hpush seen hold
    · exact absurd (h.spawned push hpush) (not_lt.mpr hle)

/-- A running thread has seen more, and has pushed at most one message, for an event id that
was new to it. -/
theorem Connections.Deduplicated.advance (h : connections.Deduplicated) {thread : ℕ}
    {seen seen' : Finset EventId} (hthread : connections.threads thread = some seen) (hsub : seen ⊆ seen')
    {pushed : List Push} (hpushed : ∀ push ∈ pushed, push.thread = thread ∧ push.eventId ∈ seen' \ seen)
    (hone : pushed.length ≤ 1) (transport : LiveNostrTransport κ) :
    Deduplicated { connections with
      transport := transport
      threads := Function.update connections.threads thread (some seen')
      pushed := connections.pushed ++ pushed } where
  once := by
    rw [List.map_append, List.nodup_append']
    refine ⟨h.once, ?_, ?_⟩
    · rcases pushed with _ | ⟨push, _ | _⟩
      · exact List.nodup_nil
      · exact List.nodup_singleton _
      · simp at hone
    · intro key hold hnew
      obtain ⟨push, hpush, rfl⟩ := List.mem_map.mp hold
      obtain ⟨push', hpush', hkey⟩ := List.mem_map.mp hnew
      obtain ⟨hthread', heventId⟩ := hpushed push' hpush'
      rw [Prod.mk.injEq] at hkey
      rw [← hthread', hkey.1] at hthread
      rw [hkey.2, Finset.mem_sdiff] at heventId
      exact heventId.2 (h.seen push hpush seen hthread)
  spawned := by
    intro push hpush
    rcases List.mem_append.mp hpush with hpush | hpush
    · exact h.spawned push hpush
    · rw [(hpushed push hpush).1]
      by_contra hle
      rw [h.running thread (not_lt.mp hle)] at hthread
      cases hthread
  running := by
    intro thread' hle
    have hne : thread' ≠ thread := by
      rintro rfl
      rw [h.running thread' hle] at hthread
      cases hthread
    exact (Function.update_of_ne hne _ _).trans (h.running thread' hle)
  seen := by
    intro push hpush seen'' hseen''
    simp only [Function.update_apply] at hseen''
    rcases List.mem_append.mp hpush with hold | hnew
    · split_ifs at hseen'' with hpush'
      · rw [← Option.some.inj hseen'']
        exact hsub (h.seen push hold seen (hpush' ▸ hthread))
      · exact h.seen push hold seen'' hseen''
    · obtain ⟨hpush', heventId⟩ := hpushed push hnew
      rw [if_pos hpush'] at hseen''
      rw [← Option.some.inj hseen'']
      exact (Finset.mem_sdiff.mp heventId).1

theorem deliver_deduplicated (h : connections.Deduplicated) (thread : ℕ) (event : Event) :
    (connections.deliver wire nip44 thread event).Deduplicated := by
  rw [deliver]
  cases hthread : connections.threads thread with
  | none => exact h
  | some seen =>
    rcases handleInboundEvent_cases wire nip44 connections.transport.cfg
      ⟨seen, connections.transport.inbound⟩ event with ⟨-, hinbox⟩ | ⟨-, hinbox⟩ | ⟨hnew, message, -, hinbox⟩
    · simp only [hinbox, List.drop_length, List.map_nil]
      exact h.advance hthread (Finset.Subset.refl _) (by simp) (by simp) _
    · simp only [hinbox, List.drop_length, List.map_nil]
      exact h.advance hthread (Finset.subset_insert _ _) (by simp) (by simp) _
    · simp only [hinbox, List.drop_left, List.map_cons, List.map_nil]
      exact h.advance hthread (Finset.subset_insert _ _) (by simpa using hnew) (by simp) _

theorem step_deduplicated (h : connections.Deduplicated) (step : ConnectionStep σ) :
    (connections.step wire nip44 step).Deduplicated := by
  have hstopped : ∀ thread thread' seen, Function.update connections.threads thread none thread' = some seen →
      connections.threads thread' = some seen := by
    intro thread thread' seen hseen
    rw [Function.update_apply] at hseen
    split_ifs at hseen
    exact hseen
  cases step with
  | connect report =>
    rw [Connections.step, Connections.connect]
    split_ifs
    · exact h
    · refine h.of_threads rfl (Nat.le_succ _) fun thread seen hseen => ?_
      cases report with
      | failed error => exact .inl hseen
      | _ =>
        simp only [spawn, Function.update_apply] at hseen
        split_ifs at hseen with hthread
        · exact .inr ⟨hthread.ge, hthread ▸ Nat.lt_succ_self _⟩
        · exact .inl hseen
  | disconnect =>
    refine h.of_threads rfl le_rfl fun thread seen hseen => .inl ?_
    rw [Connections.step, Connections.disconnect] at hseen
    cases hhandle : connections.transport.handle with
    | none => simpa [hhandle] using hseen
    | some joined =>
      rw [hhandle] at hseen
      exact hstopped joined thread seen hseen
  | drainMatching sessionId predicate captured =>
    exact h.of_threads rfl le_rfl fun thread seen hseen => .inl hseen
  | deliver thread event => exact deliver_deduplicated h thread event
  | stop thread =>
    exact h.of_threads rfl le_rfl fun thread' seen hseen => .inl (hstopped thread thread' seen hseen)

theorem run_deduplicated (cfg : LiveNostrTransportConfig κ) (vaultTag : String)
    (steps : List (ConnectionStep σ)) : (run wire nip44 cfg vaultTag steps).Deduplicated := by
  have hstart : (new cfg vaultTag).Deduplicated :=
    ⟨List.nodup_nil, fun _ hpush => absurd hpush List.not_mem_nil, fun _ _ => rfl,
      fun _ hpush => absurd hpush List.not_mem_nil⟩
  rw [run]
  generalize new cfg vaultTag = connections at hstart ⊢
  induction steps generalizing connections with
  | nil => exact hstart
  | cons step rest ih => exact ih _ (step_deduplicated hstart step)

end Deduplication

/-- Over every run of one transport, an event id contributes at most one message for each
relay thread that was started; so at most one in a run that starts a single thread. -/
theorem eventId_pushed_once_per_thread {κ σ : Type} (wire : Wire) (nip44 : Nip44 κ)
    (cfg : LiveNostrTransportConfig κ) (vaultTag : String) (steps : List (ConnectionStep σ)) :
    let connections := Connections.run wire nip44 cfg vaultTag steps
    (connections.pushed.map fun push => (push.thread, push.eventId)).Nodup ∧
      (∀ push ∈ connections.pushed, push.thread < connections.spawned) ∧
      (connections.spawned ≤ 1 → (connections.pushed.map Push.eventId).Nodup) := by
  intro connections
  have h : connections.Deduplicated := run_deduplicated cfg vaultTag steps
  refine ⟨h.once, h.spawned, fun hone => ?_⟩
  -- with one thread the pairs are determined by the event id
  have hmap : (connections.pushed.map fun push => (push.thread, push.eventId)) =
      (connections.pushed.map Push.eventId).map (Prod.mk 0) := by
    rw [List.map_map]
    refine List.map_congr_left fun push hpush => ?_
    have hlt := h.spawned push hpush
    rw [Function.comp_apply, show push.thread = 0 by omega]
  have honce := h.once
  rw [hmap] at honce
  exact honce.of_map _

/-- After a reconnection the relay sends a stored event again, and it is pushed again. -/
theorem reconnection_pushes_again :
    let cfg : LiveNostrTransportConfig PublicKey := ⟨2, plainKey 2, ParticipantDirectory.new⟩
    let id : EventId := List.Vector.replicate 32 0
    let steps : List (ConnectionStep Unit) := [.connect .ready, .deliver 0 (helloRelayEvent id), .disconnect,
      .connect .ready, .deliver 1 (helloRelayEvent id)]
    (Connections.run helloWire plainNip44.toNip44 cfg "vault-1" steps).pushed =
      [⟨0, id, helloMessage⟩, ⟨1, id, helloMessage⟩] := by
  intro cfg id steps
  have hfresh : ∀ inbound, handleInboundEvent helloWire plainNip44.toNip44 (plainKey 2) 2 ⟨∅, inbound⟩
      (helloRelayEvent id) = ⟨insert id ∅, inbound ++ [helloMessage]⟩ :=
    fun inbound => handle_helloRelayEvent 2 (Finset.notMem_empty id)
  have hid : (helloRelayEvent id).id = id := rfl
  simp [steps, cfg, Connections.run, Connections.step, Connections.new, Connections.connect, Connections.deliver,
    Connections.disconnect, Connections.spawn, LiveNostrTransport.new, LiveNostrTransport.connect,
    LiveNostrTransport.disconnect, hfresh, hid]

end DkgKit
