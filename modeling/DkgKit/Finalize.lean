import DkgKit.DkgSession

/-! The last step of a FROST key generation, and what a failed second round leaves behind
in the session that the last step reads. -/

open BigEndian LoopRules

namespace DkgKit

section Finalize

structure LocalKeyShare where
  participantId : ParticipantId
  groupKey : GroupKey
  secretShareBytes : List UInt8
  deriving DecidableEq

/-- What the last step uses of `schnorr_fun`. The x-only forms are `non_zero` followed by
`into_xonly`. -/
structure ShareReceiver (pedPop : SimplePedPop) where
  SecretShare : Type
  PairedSecretShare : Type
  XonlyPairedShare : Type
  SharedKey : Type
  XonlySharedKey : Type
  collectSecretInputs : Scalar → List Scalar → SecretShare
  receiveSecretShare : pedPop.AggKeygenInput → SecretShare → Except String PairedSecretShare
  sharedKey : pedPop.AggKeygenInput → SharedKey
  xonlyPairedShare : PairedSecretShare → Option XonlyPairedShare
  xonlySharedKey : SharedKey → Option XonlySharedKey
  publicKey : XonlySharedKey → Point
  sharedKeys : Binary XonlySharedKey
  pairedShares : Binary XonlyPairedShare

/-- The values of a map over participants, in the order of the ids. -/
def mapValues {α : Type} (map : ParticipantId → Option α) : List α :=
  (List.finRange UInt16.size).filterMap fun i => map (UInt16.ofFin i)

theorem mem_mapValues {α : Type} {map : ParticipantId → Option α} {a : α} :
    a ∈ mapValues map ↔ ∃ id, map id = some a := by
  rw [mapValues, List.mem_filterMap]
  constructor
  · rintro ⟨i, -, hi⟩
    exact ⟨UInt16.ofFin i, hi⟩
  · rintro ⟨id, hid⟩
    exact ⟨id.toFin, List.mem_finRange _, by rwa [UInt16.ofFin_toFin]⟩

/-- Collecting packages into a map and reading its values only changes their order. -/
theorem mapValues_lastWith_perm {α : Type} {key : α → ParticipantId} {l : List α}
    (hnd : (l.map key).Nodup) : (mapValues (lastWith key l)).Perm l := by
  have hvalues : (mapValues (lastWith key l)).Nodup := by
    refine List.Nodup.filterMap (fun i j a hi hj => ?_) (List.nodup_finRange _)
    have hkey := ((lastWith_eq_some hnd).mp hi).2.symm.trans ((lastWith_eq_some hnd).mp hj).2
    simpa using congrArg UInt16.toFin hkey
  rw [List.perm_ext_iff_of_nodup hvalues (List.Nodup.of_map key hnd)]
  intro a
  simp only [mem_mapValues, lastWith_eq_some hnd]
  constructor
  · rintro ⟨_, hmem, -⟩
    exact hmem
  · exact fun hmem => ⟨key a, hmem, rfl⟩

def participantShareIndex (participantId : ParticipantId) : Result Scalar :=
  if (participantId.toNat : Scalar) = 0 then
    .error (.panic (.expect "participant index cannot be zero"))
  else .ok participantId.toNat

theorem participantShareIndex_eq {participantId : ParticipantId} (h : participantId ≠ 0) :
    participantShareIndex participantId = .ok (participantId.toNat : Scalar) := by
  have hpos : 0 < participantId.toNat := by
    rw [Nat.pos_iff_ne_zero]
    exact fun hzero => h (UInt16.toNat_inj.mp hzero)
  rw [participantShareIndex, if_neg (scalar_natCast_ne_zero hpos participantId.toNat_lt)]

variable (pedPop : SimplePedPop) (receiver : ShareReceiver pedPop)

/-- The loop over the round-2 packages for one recipient; `seen` are the senders so far. -/
def receiveLoop : List Round2Package → Finset ParticipantId → Result (List Scalar)
  | [], _ => .ok []
  | package :: rest, seen =>
    if package.sender ∈ seen then fail (.duplicateParticipantId package.sender)
    else do
      let share ← serialized (pedPop.secretShares.deserialize package.bytes)
      let shares ← receiveLoop rest (insert package.sender seen)
      .ok (share :: shares)

namespace FrostDkgSession

def finalize (session : FrostDkgSession) (round2Packages : List Round2Package) : Result LocalKeyShare := do
  let runtime ← okOr (.protocol "round1 and round2 must be called before finalize") session.runtime
  let round1Packages := mapValues runtime.round1Packages
  if round1Packages.length ≠ session.config.threshold.participants.toNat then
    fail (.protocol s!"missing round1 packages: have {round1Packages.length}, need {session.config.threshold.participants}")
  else
    let sharesForMe ← receiveLoop pedPop
      (round2Packages.filter fun package => package.recipient == session.config.participantId) ∅
    if sharesForMe.length ≠ session.config.threshold.participants.toNat then
      fail (.protocol s!"missing round2 shares for participant {session.config.participantId}: have {sharesForMe.length}, need {session.config.threshold.participants}")
    else
      let aggInput ← session.config.aggregateKeygenInputs pedPop round1Packages
      let myShareIndex ← participantShareIndex session.config.participantId
      let pairedShare ← match receiver.receiveSecretShare aggInput
          (receiver.collectSecretInputs myShareIndex sharesForMe) with
        | .ok pairedShare => .ok pairedShare
        | .error err => fail (.protocol s!"share verification failed: {err}")
      let xonlyPairedShare ← okOr (.protocol "paired share is zero") (receiver.xonlyPairedShare pairedShare)
      let xonlySharedKey ← okOr (.protocol "shared key is zero")
        (receiver.xonlySharedKey (receiver.sharedKey aggInput))
      let verificationKeyBytes ← serialized (receiver.sharedKeys.serialize xonlySharedKey)
      let secretShareBytes ← serialized (receiver.pairedShares.serialize xonlyPairedShare)
      .ok ⟨session.config.participantId,
        ⟨pointToXonlyBytes (receiver.publicKey xonlySharedKey), verificationKeyBytes⟩, secretShareBytes⟩

end FrostDkgSession

end Finalize

section FailedRounds

open DkgSessionConfig FrostDkgSession

variable {pedPop : SimplePedPop}

/-- A second round that returns an error has either changed nothing, or it has stored the
list of packages that it could not aggregate. -/
theorem round2_eq_fail {session : FrostDkgSession} {round1Packages : List Round1Package}
    {error : DkgKitError} (h : (session.round2 pedPop round1Packages).1 = fail error) :
    (session.round2 pedPop round1Packages).2 = session ∨
      ∃ runtime, session.runtime = some runtime ∧
        session.config.validateRound1Set round1Packages = .ok () ∧
        session.config.aggregateKeygenInputs pedPop round1Packages = fail error ∧
        (session.round2 pedPop round1Packages).2 = { session with runtime := some { runtime with
          round1Packages := lastWith Round1Package.participantId round1Packages } } := by
  cases hvalid : session.config.validateRound1Set round1Packages with
  | error fault => exact .inl (by simp [round2, hvalid])
  | ok _ =>
    cases hruntime : session.runtime with
    | none => exact .inl (by simp [round2, hvalid, hruntime])
    | some runtime =>
      cases haggregate : session.config.aggregateKeygenInputs pedPop round1Packages with
      | ok input => simp [round2, hvalid, hruntime, haggregate, fail] at h
      | error fault =>
        have hfault : fault = .err error := by
          simpa [round2, hvalid, hruntime, haggregate, fail] using h
        refine .inr ⟨runtime, rfl, rfl, by rw [hfault, fail], ?_⟩
        simp [round2, hvalid, hruntime, haggregate]

theorem round2_of_aggregate_eq_fail {session : FrostDkgSession} {round1Packages : List Round1Package}
    {runtime : DkgRuntime} {error : DkgKitError} (hruntime : session.runtime = some runtime)
    (hvalid : session.config.validateRound1Set round1Packages = .ok ())
    (haggregate : session.config.aggregateKeygenInputs pedPop round1Packages = fail error) :
    session.round2 pedPop round1Packages = (fail error, { session with runtime := some { runtime with
      round1Packages := lastWith Round1Package.participantId round1Packages } }) := by
  rw [fail] at haggregate ⊢
  simp [round2, hvalid, hruntime, haggregate]

/-- The packages of the list are the stored ones, or the second round gets past the
aggregation or fails before it. -/
def FrostDkgSession.KeepsOnFailure (pedPop : SimplePedPop) (session : FrostDkgSession)
    (round1Packages : List Round1Package) : Prop :=
  ∀ runtime, session.runtime = some runtime →
    session.config.validateRound1Set round1Packages = .ok () →
    (∃ error, session.config.aggregateKeygenInputs pedPop round1Packages = fail error) →
    runtime.round1Packages = lastWith Round1Package.participantId round1Packages

theorem round2_unchanged_iff (session : FrostDkgSession) (round1Packages : List Round1Package) :
    (∀ error, (session.round2 pedPop round1Packages).1 = fail error →
      (session.round2 pedPop round1Packages).2 = session) ↔
      session.KeepsOnFailure pedPop round1Packages := by
  constructor
  · rintro h runtime hruntime hvalid ⟨error, haggregate⟩
    have hround := round2_of_aggregate_eq_fail hruntime hvalid haggregate
    have hsame := h error (by rw [hround])
    rw [hround] at hsame
    have hstored := congrArg FrostDkgSession.runtime hsame
    rw [hruntime, Option.some_inj] at hstored
    exact (congrArg DkgRuntime.round1Packages hstored).symm
  · intro h error herror
    rcases round2_eq_fail herror with hsame | ⟨runtime, hruntime, hvalid, haggregate, hround⟩
    · exact hsame
    · rw [hround, ← h runtime hruntime hvalid ⟨error, haggregate⟩, ← hruntime]

end FailedRounds

open DkgSessionConfig FrostDkgSession

/-- A second round that returns an error leaves the session, and with it the result of every
later `finalize`, as it was, exactly if it fails before the packages are stored or the
packages are the ones stored already. -/
theorem failedRound2_keeps_session_iff (pedPop : SimplePedPop) (receiver : ShareReceiver pedPop)
    (config : DkgSessionConfig) (calls : List (DkgSessionCall pedPop))
    (round1Packages : List Round1Package) :
    let session := (SessionHistory.run config calls).session
    (∀ error, (session.round2 pedPop round1Packages).1 = fail error →
      (session.round2 pedPop round1Packages).2 = session ∧
        ∀ round2Packages, (session.round2 pedPop round1Packages).2.finalize pedPop receiver round2Packages =
          session.finalize pedPop receiver round2Packages) ↔
      session.KeepsOnFailure pedPop round1Packages := by
  intro session
  rw [← round2_unchanged_iff]
  constructor
  · intro h error herror
    exact (h error herror).1
  · intro h error herror
    have hsame := h error herror
    exact ⟨hsame, fun round2Packages => by rw [hsame]⟩

section Instances

/-- Inputs are texts that must not be empty; the coordinator counts the missing ones. -/
abbrev plainPedPop : SimplePedPop where
  Rng := Unit
  KeygenInput := List UInt8
  Coordinator := ℕ
  AggKeygenInput := Unit
  genKeygenInput := fun _ _ _ _ => ([1], [])
  newCoordinator := fun _ n => n.toNat
  addInput := fun missing _ _ => .ok (missing - 1)
  finish := fun missing => if missing = 0 then some () else none
  keygenInputs := ⟨.ok, fun bytes => if bytes = [] then .error "io error: unexpected end of file"
    else .ok bytes⟩
  secretShares := ⟨fun _ => .ok [1], fun _ => .ok 1⟩

noncomputable def plainReceiver : ShareReceiver plainPedPop where
  SecretShare := Scalar
  PairedSecretShare := Scalar
  XonlyPairedShare := Scalar
  SharedKey := Unit
  XonlySharedKey := Unit
  collectSecretInputs := fun _ shares => shares.sum
  receiveSecretShare := fun _ share => .ok share
  sharedKey := fun _ => ()
  xonlyPairedShare := some
  xonlySharedKey := some
  publicKey := fun _ => generator
  sharedKeys := ⟨fun _ => .ok [], fun _ => .ok ()⟩
  pairedShares := ⟨fun share => .ok (scalarToBytes share).toList, fun _ => .ok 0⟩

theorem foldlM_plain_eq_ok {packages : List Round1Package}
    (h : ∀ package ∈ packages, package.bytes ≠ [] ∧ package.participantId ≠ 0) (missing : ℕ) :
    packages.foldlM (addKeygenInput plainPedPop) missing = .ok (missing - packages.length) := by
  induction packages generalizing missing with
  | nil => rfl
  | cons package rest ih =>
    rw [List.forall_mem_cons] at h
    have hadd : addKeygenInput plainPedPop missing package = .ok (missing - 1) := by
      simp [addKeygenInput, plainPedPop, partyIndex, h.1.1, h.1.2, serialized]
    rw [List.foldlM_cons, hadd, ok_bind, ih h.2, List.length_cons, Nat.sub_sub, Nat.add_comm]

theorem foldlM_plain_eq_fail {packages : List Round1Package}
    (hne : ∀ package ∈ packages, package.participantId ≠ 0) (h : ∃ package ∈ packages, package.bytes = [])
    (missing : ℕ) : packages.foldlM (addKeygenInput plainPedPop) missing =
      fail (.serialization "io error: unexpected end of file") := by
  induction packages generalizing missing with
  | nil => simp at h
  | cons package rest ih =>
    rw [List.forall_mem_cons] at hne
    rw [List.foldlM_cons]
    by_cases hbytes : package.bytes = []
    · simp [addKeygenInput, plainPedPop, hbytes, serialized, fail]
    · have hadd : addKeygenInput plainPedPop missing package = .ok (missing - 1) := by
        simp [addKeygenInput, plainPedPop, partyIndex, hbytes, hne.1, serialized]
      have hrest : ∃ package ∈ rest, package.bytes = [] := by
        obtain ⟨bad, hmem, hbad⟩ := h
        rcases List.mem_cons.mp hmem with rfl | hmem
        · exact absurd hbad hbytes
        · exact ⟨bad, hmem, hbad⟩
      rw [hadd, ok_bind, ih hne.2 hrest]

theorem exists_shareIndices (config : DkgSessionConfig) : ∃ indices, config.shareIndices = .ok indices := by
  refine exists_collectResults_eq_ok.mpr fun i hi => ?_
  rw [List.mem_range'_1] at hi
  have hlt := config.threshold.participants.toNat_lt
  have hne : (i : Scalar) ≠ 0 := scalar_natCast_ne_zero (by omega) (by omega)
  exact ⟨i, if_neg hne⟩

def plainConfig : DkgSessionConfig := ⟨"dkg-demo", ⟨2, 2⟩, 1⟩

def plainSession (packages : List Round1Package) : FrostDkgSession :=
  ⟨plainConfig, some ⟨[], lastWith Round1Package.participantId packages⟩⟩

theorem plainSession_round1 :
    (FrostDkgSession.new plainConfig).round1 plainPedPop () = (.ok ⟨1, [1]⟩, plainSession [⟨1, [1]⟩]) := by
  obtain ⟨indices, hindices⟩ := exists_shareIndices plainConfig
  have hcontribute : plainConfig.contribute plainPedPop () =
      .ok (⟨1, [1]⟩, ⟨[], lastWith Round1Package.participantId [⟨1, [1]⟩]⟩) := by
    rw [contribute, hindices]
    rfl
  simp [round1, FrostDkgSession.new, hcontribute, plainSession]

theorem plainSession_run : (SessionHistory.run plainConfig [@DkgSessionCall.round1 plainPedPop ()]).session =
    plainSession [⟨1, [1]⟩] := by
  rw [SessionHistory.run, List.foldl_cons, List.foldl_nil, SessionHistory.perform, plainSession_round1]

theorem plainSession_round2 (stored packages : List Round1Package)
    (hvalid : plainConfig.validateRound1Set packages = .ok ()) :
    ((plainSession stored).round2 plainPedPop packages).2 = plainSession packages := by
  cases haggregate : plainConfig.aggregateKeygenInputs plainPedPop packages with
  | ok input => simp [round2, plainSession, hvalid, haggregate]
  | error fault => simp [round2, plainSession, hvalid, haggregate]

theorem aggregate_plain_eq_ok {packages : List Round1Package} (hlen : packages.length = 2)
    (h : ∀ package ∈ packages, package.bytes ≠ [] ∧ package.participantId ≠ 0) :
    plainConfig.aggregateKeygenInputs plainPedPop packages = .ok () := by
  have hfold := foldlM_plain_eq_ok h 2
  rw [hlen] at hfold
  change (packages.foldlM (addKeygenInput plainPedPop) 2 >>= _) = _
  rw [hfold]
  rfl

theorem aggregate_plain_eq_fail {packages : List Round1Package}
    (hne : ∀ package ∈ packages, package.participantId ≠ 0)
    (h : ∃ package ∈ packages, package.bytes = []) :
    plainConfig.aggregateKeygenInputs plainPedPop packages =
      fail (.serialization "io error: unexpected end of file") := by
  change (packages.foldlM (addKeygenInput plainPedPop) 2 >>= _) = _
  rw [foldlM_plain_eq_fail hne h]
  rfl

theorem finalize_plainSession {packages : List Round1Package}
    (hvalid : plainConfig.validateRound1Set packages = .ok ()) :
    (plainSession packages).finalize plainPedPop plainReceiver [⟨1, 1, [1]⟩, ⟨2, 1, [1]⟩] =
      (plainConfig.aggregateKeygenInputs plainPedPop
        (mapValues (lastWith Round1Package.participantId packages)) >>= fun _ =>
          .ok ⟨1, ⟨pointToXonlyBytes generator, []⟩, (scalarToBytes (1 + (1 + 0))).toList⟩) := by
  obtain ⟨hlen, -, hnd⟩ := validateRound1Set_eq_ok.mp hvalid
  have hvalues : (mapValues (lastWith Round1Package.participantId packages)).length = 2 :=
    (mapValues_lastWith_perm hnd).length_eq.trans hlen
  have hindex : participantShareIndex 1 = .ok ((1 : UInt16).toNat : Scalar) :=
    participantShareIndex_eq (by decide)
  have hshares : receiveLoop plainPedPop ([⟨1, 1, [1]⟩, ⟨2, 1, [1]⟩].filter fun package =>
      package.recipient == plainConfig.participantId) ∅ = .ok [1, 1] := rfl
  have hcount : ¬ 2 ≠ plainConfig.threshold.participants.toNat := by decide
  have hown : plainConfig.participantId = 1 := rfl
  rw [finalize, plainSession, okOr, ok_bind]
  dsimp only
  rw [hvalues, if_neg hcount, hshares, ok_bind, List.length_cons, List.length_singleton, if_neg hcount]
  cases plainConfig.aggregateKeygenInputs plainPedPop
      (mapValues (lastWith Round1Package.participantId packages)) with
  | error fault => rfl
  | ok input =>
    rw [ok_bind, hown, hindex]
    rfl

end Instances

/-- Two participants have finished the second round. A list with an empty package fails, and
after it the key generation that could be finalized no longer can. -/
theorem failedRound2_spoils_session :
    let config : DkgSessionConfig := ⟨"dkg-demo", ⟨2, 2⟩, 1⟩
    let calls : List (DkgSessionCall plainPedPop) := [.round1 (), .round2 [⟨1, [1]⟩, ⟨2, [1]⟩]]
    let session := (SessionHistory.run config calls).session
    let failed := session.round2 plainPedPop [⟨1, [1]⟩, ⟨2, []⟩]
    let round2Packages : List Round2Package := [⟨1, 1, [1]⟩, ⟨2, 1, [1]⟩]
    failed.1 = fail (.serialization "io error: unexpected end of file") ∧
      (∃ share, session.finalize plainPedPop plainReceiver round2Packages = .ok share) ∧
      failed.2.finalize plainPedPop plainReceiver round2Packages =
        fail (.serialization "io error: unexpected end of file") := by
  intro config calls session failed round2Packages
  have hgood : plainConfig.validateRound1Set [⟨1, [1]⟩, ⟨2, [1]⟩] = .ok () := rfl
  have hbad : plainConfig.validateRound1Set [⟨1, [1]⟩, ⟨2, []⟩] = .ok () := rfl
  have hsession : session = plainSession [⟨1, [1]⟩, ⟨2, [1]⟩] :=
    (congrArg (fun session => (round2 plainPedPop session [⟨1, [1]⟩, ⟨2, [1]⟩]).2) plainSession_run).trans
      (plainSession_round2 _ _ hgood)
  have hfail := @aggregate_plain_eq_fail [⟨1, [1]⟩, ⟨2, []⟩] (by decide) (by decide)
  have hfailed : failed = (fail (.serialization "io error: unexpected end of file"),
      plainSession [⟨1, [1]⟩, ⟨2, []⟩]) := by
    rw [show failed = session.round2 plainPedPop [⟨1, [1]⟩, ⟨2, []⟩] from rfl, hsession]
    exact @round2_of_aggregate_eq_fail plainPedPop (plainSession _) _ _ _ rfl hbad hfail
  rw [hfailed, hsession]
  refine ⟨rfl, ?_, ?_⟩
  · have hperm := mapValues_lastWith_perm (validateRound1Set_eq_ok.mp hgood).2.2
    rw [finalize_plainSession hgood, aggregate_plain_eq_ok hperm.length_eq]
    · exact ⟨_, rfl⟩
    · intro package hpackage
      exact (by decide : ∀ package ∈ [(⟨1, [1]⟩ : Round1Package), ⟨2, [1]⟩],
        package.bytes ≠ [] ∧ package.participantId ≠ 0) package (hperm.mem_iff.mp hpackage)
  · have hperm := mapValues_lastWith_perm (validateRound1Set_eq_ok.mp hbad).2.2
    rw [finalize_plainSession hbad, aggregate_plain_eq_fail]
    · rfl
    · intro package hpackage
      exact (by decide : ∀ package ∈ [(⟨1, [1]⟩ : Round1Package), ⟨2, []⟩],
        package.participantId ≠ 0) package (hperm.mem_iff.mp hpackage)
    · exact ⟨⟨2, []⟩, hperm.mem_iff.mpr (by decide), rfl⟩

end DkgKit
