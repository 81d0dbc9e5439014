import DkgKit.Finalize

/-! Key generations of several FROST sessions: what the group key that a session returns depends
on, and the ceremony in one process. `schnorr_fun` and `bincode` are parameters. -/

open BigEndian LoopRules

namespace DkgKit

open DkgSessionConfig FrostDkgSession

section Stored

variable {pedPop : SimplePedPop} {config : DkgSessionConfig} {session : FrostDkgSession}

/-- The packages that a session finalizes with, after one more call. -/
def storedAfter (config : DkgSessionConfig) (stored : Option (List Round1Package)) :
    DkgSessionCall pedPop → Option (List Round1Package)
  | .round1 rng =>
    match config.contribute pedPop rng with
    | .ok (package, _) => some [package]
    | .error _ => stored
  | .round2 round1Packages =>
    match config.validateRound1Set round1Packages with
    | .ok () => stored.map fun _ => round1Packages
    | .error _ => stored

def storedPackages (config : DkgSessionConfig) (calls : List (DkgSessionCall pedPop)) :
    Option (List Round1Package) := calls.foldl (storedAfter config) none

/-- The session is of that config and has stored these packages, of distinct senders. -/
structure Stores (config : DkgSessionConfig) (stored : Option (List Round1Package))
    (session : FrostDkgSession) : Prop where
  config_eq : session.config = config
  packages : session.runtime.map DkgRuntime.round1Packages =
    stored.map (lastWith Round1Package.participantId)
  distinct : ∀ packages ∈ stored, (packages.map Round1Package.participantId).Nodup

theorem Stores.round1 {stored : Option (List Round1Package)} (h : Stores config stored session)
    (rng : pedPop.Rng) : Stores config (storedAfter config stored (.round1 rng))
      (session.round1 pedPop rng).2 := by
  rw [storedAfter, FrostDkgSession.round1, h.config_eq]
  cases hcontribute : config.contribute pedPop rng with
  | error fault => exact h
  | ok result =>
    obtain ⟨package, runtime⟩ := result
    refine ⟨rfl, congrArg some (contribute_eq_ok hcontribute).2, fun packages hpackages => ?_⟩
    obtain rfl := Option.some.inj hpackages
    exact List.nodup_singleton _

theorem Stores.round2 {stored : Option (List Round1Package)} (h : Stores config stored session)
    (round1Packages : List Round1Package) :
    Stores config (@storedAfter pedPop config stored (.round2 round1Packages))
      (session.round2 pedPop round1Packages).2 := by
  rw [storedAfter, FrostDkgSession.round2, h.config_eq]
  cases hvalid : config.validateRound1Set round1Packages with
  | error fault => exact h
  | ok u =>
    have hpackages := h.packages
    cases hruntime : session.runtime with
    | none =>
      rw [hruntime, Option.map_none, eq_comm, Option.map_eq_none_iff] at hpackages
      subst hpackages
      exact h
    | some runtime =>
      rw [hruntime, Option.map_some] at hpackages
      obtain ⟨packages, rfl⟩ := Option.ne_none_iff_exists'.mp
        fun hnone : stored = none => by rw [hnone] at hpackages; cases hpackages
      have hnd := (validateRound1Set_eq_ok.mp hvalid).2.2
      have hstored : Stores config (some round1Packages) { session with runtime := some { runtime with
          round1Packages := lastWith Round1Package.participantId round1Packages } } := by
        refine ⟨h.config_eq, rfl, fun packages hpackages => ?_⟩
        obtain rfl := Option.some.inj hpackages
        exact hnd
      cases haggregate : config.aggregateKeygenInputs pedPop round1Packages with
      | error fault => simpa [haggregate, h.config_eq] using hstored
      | ok input => simpa [haggregate, h.config_eq] using hstored

theorem run_stores (config : DkgSessionConfig) (calls : List (DkgSessionCall pedPop)) :
    Stores config (storedPackages config calls) (SessionHistory.run config calls).session := by
  induction calls using List.reverseRecOn with
  | nil => exact ⟨rfl, rfl, fun packages hpackages => by cases hpackages⟩
  | append_singleton calls call ih =>
    have hstored : storedPackages config (calls ++ [call]) =
        storedAfter config (storedPackages config calls) call := by
      rw [storedPackages, List.foldl_append]
      rfl
    have hrun : SessionHistory.run config (calls ++ [call]) =
        (SessionHistory.run config calls).perform call := by
      rw [SessionHistory.run, List.foldl_append]
      rfl
    rw [hstored, hrun]
    cases call with
    | round1 rng =>
      have hround := ih.round1 rng
      have hsession : ((SessionHistory.run config calls).perform (.round1 rng)).session =
          ((SessionHistory.run config calls).session.round1 pedPop rng).2 := by
        rw [SessionHistory.perform]
        split <;> simp_all
      rwa [hsession]
    | round2 round1Packages => exact ih.round2 round1Packages

end Stored

section Agreement

variable {pedPop : SimplePedPop} {receiver : ShareReceiver pedPop} {config : DkgSessionConfig}

namespace ShareReceiver

def groupKey (receiver : ShareReceiver pedPop) (aggInput : pedPop.AggKeygenInput) : Result GroupKey := do
  let xonlySharedKey ← okOr (.protocol "shared key is zero")
    (receiver.xonlySharedKey (receiver.sharedKey aggInput))
  let verificationKeyBytes ← serialized (receiver.sharedKeys.serialize xonlySharedKey)
  .ok ⟨pointToXonlyBytes (receiver.publicKey xonlySharedKey), verificationKeyBytes⟩

/-- What a finalization does once it has the aggregated inputs and its shares. -/
def localShare (receiver : ShareReceiver pedPop) (aggInput : pedPop.AggKeygenInput)
    (participantId : ParticipantId) (sharesForMe : List Scalar) : Result LocalKeyShare := do
  let myShareIndex ← participantShareIndex participantId
  let pairedShare ← match receiver.receiveSecretShare aggInput
      (receiver.collectSecretInputs myShareIndex sharesForMe) with
    | .ok pairedShare => .ok pairedShare
    | .error err => fail (.protocol s!"share verification failed: {err}")
  let xonlyPairedShare ← okOr (.protocol "paired share is zero") (receiver.xonlyPairedShare pairedShare)
  let xonlySharedKey ← okOr (.protocol "shared key is zero")
    (receiver.xonlySharedKey (receiver.sharedKey aggInput))
  let verificationKeyBytes ← serialized (receiver.sharedKeys.serialize xonlySharedKey)
  let secretShareBytes ← serialized (receiver.pairedShares.serialize xonlyPairedShare)
  .ok ⟨participantId, ⟨pointToXonlyBytes (receiver.publicKey xonlySharedKey), verificationKeyBytes⟩,
    secretShareBytes⟩

theorem localShare_key {aggInput : pedPop.AggKeygenInput} {participantId : ParticipantId}
    {sharesForMe : List Scalar} {share : LocalKeyShare}
    (h : receiver.localShare aggInput participantId sharesForMe = .ok share) :
    share.participantId = participantId ∧ receiver.groupKey aggInput = .ok share.groupKey := by
  rw [localShare, bind_eq_ok] at h
  obtain ⟨myShareIndex, -, h⟩ := h
  cases hreceive : receiver.receiveSecretShare aggInput
      (receiver.collectSecretInputs myShareIndex sharesForMe) with
  | error err => simp [hreceive, fail] at h
  | ok pairedShare =>
    simp only [hreceive, ok_bind, bind_eq_ok] at h
    obtain ⟨_, -, xonlySharedKey, hkey, bytes, hbytes, _, -, hshare⟩ := h
    obtain rfl := Except.ok.inj hshare
    refine ⟨rfl, ?_⟩
    rw [groupKey, hkey, ok_bind, hbytes, ok_bind]

end ShareReceiver

theorem finalize_key {session : FrostDkgSession} {round2Packages : List Round2Package}
    {share : LocalKeyShare} (h : session.finalize pedPop receiver round2Packages = .ok share) :
    share.participantId = session.config.participantId ∧ ∃ runtime, session.runtime = some runtime ∧
      (session.config.aggregateKeygenInputs pedPop (mapValues runtime.round1Packages) >>=
        receiver.groupKey) = .ok share.groupKey := by
  rw [finalize, bind_eq_ok] at h
  obtain ⟨runtime, hruntime, h⟩ := h
  rw [ifFail_eq_ok, bind_eq_ok] at h
  obtain ⟨-, sharesForMe, -, h⟩ := h
  rw [ifFail_eq_ok, bind_eq_ok] at h
  obtain ⟨-, aggInput, haggregate, h⟩ := h
  obtain ⟨hid, hkey⟩ := ShareReceiver.localShare_key h
  refine ⟨hid, runtime, okOr_eq_ok.mp hruntime, ?_⟩
  rw [haggregate, ok_bind, hkey]

theorem lastWith_perm {key : Round1Package → ParticipantId} {packages packages' : List Round1Package}
    (hnd : (packages.map key).Nodup) (hperm : packages.Perm packages') :
    lastWith key packages = lastWith key packages' := by
  have hnd' : (packages'.map key).Nodup := (hperm.map key).nodup_iff.mp hnd
  funext id
  apply Option.ext
  intro package
  rw [lastWith_eq_some hnd, lastWith_eq_some hnd', hperm.mem_iff]

theorem Stores.groupKey {stored : Option (List Round1Package)} {session : FrostDkgSession}
    {packages : List Round1Package} {round2Packages : List Round2Package} {share : LocalKeyShare}
    (h : Stores config stored session) (hstored : stored = some packages)
    (hshare : session.finalize pedPop receiver round2Packages = .ok share) :
    (config.aggregateKeygenInputs pedPop (mapValues (lastWith Round1Package.participantId packages)) >>=
      receiver.groupKey) = .ok share.groupKey := by
  obtain ⟨-, runtime, hruntime, hkey⟩ := finalize_key hshare
  have hpackages := h.packages
  rw [hruntime, hstored, Option.map_some, Option.map_some, Option.some_inj] at hpackages
  simp only [h.config_eq, hpackages] at hkey
  exact hkey

theorem aggregateKeygenInputs_congr {config' : DkgSessionConfig}
    (hthreshold : config'.threshold = config.threshold) (round1Packages : List Round1Package) :
    config'.aggregateKeygenInputs pedPop round1Packages =
      config.aggregateKeygenInputs pedPop round1Packages := by
  simp only [aggregateKeygenInputs, hthreshold]

end Agreement

open DkgSessionConfig in
/-- Two sessions of one threshold, after any calls. If the lists they have stored last hold the
same packages, in whichever order, they never return shares of different group keys. -/
theorem frostSessions_agree (pedPop : SimplePedPop) (receiver : ShareReceiver pedPop)
    {config config' : DkgSessionConfig} (hthreshold : config'.threshold = config.threshold)
    (calls calls' : List (DkgSessionCall pedPop)) {packages packages' : List Round1Package}
    (hstored : storedPackages config calls = some packages)
    (hstored' : storedPackages config' calls' = some packages') (hperm : packages.Perm packages')
    (round2Packages round2Packages' : List Round2Package) {share share' : LocalKeyShare}
    (hshare : (SessionHistory.run config calls).session.finalize pedPop receiver round2Packages =
      .ok share)
    (hshare' : (SessionHistory.run config' calls').session.finalize pedPop receiver round2Packages' =
      .ok share') :
    share.participantId = config.participantId ∧ share'.participantId = config'.participantId ∧
      share.groupKey = share'.groupKey := by
  have hrun := run_stores config calls
  have hrun' := run_stores config' calls'
  refine ⟨?_, ?_, ?_⟩
  · rw [(finalize_key hshare).1, hrun.config_eq]
  · rw [(finalize_key hshare').1, hrun'.config_eq]
  · have hkey := hrun.groupKey hstored hshare
    have hkey' := hrun'.groupKey hstored' hshare'
    have hnd := hrun.distinct packages hstored
    rw [aggregateKeygenInputs_congr hthreshold, ← lastWith_perm hnd hperm, hkey] at hkey'
    exact Except.ok.inj hkey'

section Witness

open DkgSessionConfig

theorem plainConfig_contribute : ∃ runtime,
    plainConfig.contribute plainPedPop () = .ok (⟨1, [1]⟩, runtime) := by
  have hround := congrArg Prod.fst plainSession_round1
  rw [FrostDkgSession.round1] at hround
  cases hcontribute : plainConfig.contribute plainPedPop () with
  | error fault => simp [FrostDkgSession.new, hcontribute] at hround
  | ok result =>
    obtain ⟨package, runtime⟩ := result
    simp only [FrostDkgSession.new, hcontribute, Except.ok.injEq] at hround
    exact ⟨runtime, by rw [hround]⟩

variable {packages : List Round1Package}

theorem storedPackages_plain (hvalid : plainConfig.validateRound1Set packages = .ok ()) :
    storedPackages plainConfig [@DkgSessionCall.round1 plainPedPop (), .round2 packages] =
      some packages := by
  obtain ⟨runtime, hcontribute⟩ := plainConfig_contribute
  rw [storedPackages, List.foldl_cons, List.foldl_cons, List.foldl_nil]
  simp only [storedAfter, hcontribute, hvalid, Option.map_some]

theorem plainSession_finalizes (hvalid : plainConfig.validateRound1Set packages = .ok ())
    (hpackages : ∀ package ∈ packages, package.bytes ≠ [] ∧ package.participantId ≠ 0) :
    ∃ share, (SessionHistory.run plainConfig
      [@DkgSessionCall.round1 plainPedPop (), .round2 packages]).session.finalize plainPedPop
        plainReceiver [⟨1, 1, [1]⟩, ⟨2, 1, [1]⟩] = .ok share := by
  have hsession : (SessionHistory.run plainConfig
      [@DkgSessionCall.round1 plainPedPop (), .round2 packages]).session = plainSession packages :=
    (congrArg (fun session => (FrostDkgSession.round2 plainPedPop session packages).2)
      plainSession_run).trans (plainSession_round2 _ _ hvalid)
  have hperm := mapValues_lastWith_perm (validateRound1Set_eq_ok.mp hvalid).2.2
  have hlen : (mapValues (lastWith Round1Package.participantId packages)).length = 2 :=
    hperm.length_eq.trans (validateRound1Set_eq_ok.mp hvalid).1
  rw [hsession, finalize_plainSession hvalid, aggregate_plain_eq_ok hlen fun package hpackage =>
    hpackages package (hperm.mem_iff.mp hpackage)]
  exact ⟨_, rfl⟩

end Witness

/-- Two sessions that have stored the two packages in different orders. -/
theorem frostSessions_agree_pair :
    let session (packages : List Round1Package) := (SessionHistory.run plainConfig
      [@DkgSessionCall.round1 plainPedPop (), .round2 packages]).session
    let round2Packages : List Round2Package := [⟨1, 1, [1]⟩, ⟨2, 1, [1]⟩]
    ∃ share share',
      (session [⟨1, [1]⟩, ⟨2, [1]⟩]).finalize plainPedPop plainReceiver round2Packages = .ok share ∧
      (session [⟨2, [1]⟩, ⟨1, [1]⟩]).finalize plainPedPop plainReceiver round2Packages = .ok share' ∧
      share.groupKey = share'.groupKey := by
  intro session round2Packages
  have hvalid : plainConfig.validateRound1Set [⟨1, [1]⟩, ⟨2, [1]⟩] = .ok () := rfl
  have hvalid' : plainConfig.validateRound1Set [⟨2, [1]⟩, ⟨1, [1]⟩] = .ok () := rfl
  obtain ⟨share, hshare⟩ := plainSession_finalizes hvalid (by decide)
  obtain ⟨share', hshare'⟩ := plainSession_finalizes hvalid' (by decide)
  have hagree := frostSessions_agree plainPedPop plainReceiver rfl _ _ (storedPackages_plain hvalid)
    (storedPackages_plain hvalid') (List.Perm.swap _ _ _) _ _ hshare hshare'
  exact ⟨share, share', hshare, hshare', hagree.2.2⟩

end DkgKit
