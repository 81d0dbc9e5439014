import DkgKit.Ceremony
import DkgKit.Packages

/-! Sessions of the FROST key generation, and what the second round of both key generations
checks of a participant's own first package. `schnorr_fun` and `bincode` are parameters. -/

open BigEndian LoopRules

namespace DkgKit

section HtssRound2

variable {state : HtssDkgRound1State} {round1Packages : List HtssDkgRound1Package}
variable {config : HierarchicalThresholdConfig}

/-- As many coefficients as the threshold asks for, each the encoding of a scalar. -/
def HtssDkgRound1State.Usable (state : HtssDkgRound1State) (config : HierarchicalThresholdConfig) : Prop :=
  state.secretCoefficientBytes.length = config.threshold.toNat ∧
    ∀ bytes ∈ state.secretCoefficientBytes, ∃ s, scalarFromBytes bytes = some s

theorem htssDkgRound2_isOk_iff : (∃ shares, htssDkgRound2 state round1Packages config = .ok shares) ↔
    validateHtssDkgRound1Set round1Packages config = .ok () ∧
      (∃ package ∈ round1Packages, package.participantId = state.package.participantId) ∧
      state.Usable config := by
  have hany : (round1Packages.any fun package =>
      package.participantId == state.package.participantId) = true ↔
      ∃ package ∈ round1Packages, package.participantId = state.package.participantId := by
    simp [List.any_eq_true]
  simp only [htssDkgRound2, bind_eq_ok, ifFail_eq_ok, not_not, ne_eq, hany]
  constructor
  · rintro ⟨shares, _, hvalid, hown, hlen, coefficients, hcoefficients, -⟩
    refine ⟨hvalid, hown, hlen, fun bytes hbytes => ?_⟩
    obtain ⟨s, hs⟩ := exists_collectResults_eq_ok.mp ⟨coefficients, hcoefficients⟩ bytes hbytes
    exact ⟨s, okOr_eq_ok.mp hs⟩
  · rintro ⟨hvalid, hown, hlen, hdecode⟩
    obtain ⟨coefficients, hcoefficients⟩ := exists_collectResults_eq_ok.mpr fun bytes hbytes =>
      (hdecode bytes hbytes).imp fun s hs => (okOr_eq_ok (e := .protocol
        s!"invalid HTSS DKG coefficient for participant {state.package.participantId}")).mpr hs
    have hle : coefficients.length ≤ 65535 := by
      rw [← (collectResults_eq_ok.mp hcoefficients).length_eq, hlen]
      exact Nat.le_of_lt_succ config.threshold.toNat_lt
    obtain ⟨shares, hshares⟩ := exists_collectResults_eq_ok (f := fun recipient => do
      let shareValue ← polynomialDerivativeValue coefficients recipient.id recipient.rank
      .ok (⟨state.package.participantId, recipient.id, recipient.rank, scalarToBytes shareValue⟩ :
        HtssDkgRound2Package)) (l := config.participants) |>.mpr fun recipient _ => by
          rw [polynomialDerivativeValue_eq hle, ok_bind]
          exact ⟨_, rfl⟩
    exact ⟨shares, (), hvalid, hown, hlen, coefficients, hcoefficients, hshares⟩

theorem nodup_of_validateHtssDkgRound1Set {u : Unit}
    (h : validateHtssDkgRound1Set round1Packages config = .ok u) :
    (round1Packages.map HtssDkgRound1Package.participantId).Nodup := by
  simp only [validateHtssDkgRound1Set, bind_eq_ok, distinctLoop_empty_eq_ok] at h
  obtain ⟨_, ⟨-, hnd, -⟩, -⟩ := h
  exact hnd

/-- The guard of the second round finds the participant's own id in the list; its own
package is there exactly if nothing else stands under that id. -/
theorem htssDkgRound2_contains_own_iff :
    (∀ shares, htssDkgRound2 state round1Packages config = .ok shares → state.package ∈ round1Packages) ↔
      (validateHtssDkgRound1Set round1Packages config = .ok () → state.Usable config →
        ∀ package ∈ round1Packages, package.participantId = state.package.participantId →
          package = state.package) := by
  constructor
  · intro h hvalid husable package hpackage hid
    obtain ⟨shares, hshares⟩ := htssDkgRound2_isOk_iff.mpr ⟨hvalid, ⟨package, hpackage, hid⟩, husable⟩
    exact List.inj_on_of_nodup_map (nodup_of_validateHtssDkgRound1Set hvalid) hpackage
      (h shares hshares) hid
  · intro h shares hshares
    obtain ⟨hvalid, ⟨package, hpackage, hid⟩, husable⟩ := htssDkgRound2_isOk_iff.mp ⟨shares, hshares⟩
    exact h hvalid husable package hpackage hid ▸ hpackage

end HtssRound2

section Sessions

structure DkgSessionConfig where
  sessionId : SessionId
  threshold : ThresholdConfig
  participantId : ParticipantId
  deriving DecidableEq

/-- `bincode` at one type. -/
structure Binary (α : Type) where
  serialize : α → Except String (List UInt8)
  deserialize : List UInt8 → Except String α

/-- What the sessions use of `schnorr_fun` and `bincode`: drawing an input with its secret
shares, and the coordinator that collects the inputs of all parties. -/
structure SimplePedPop where
  Rng : Type
  KeygenInput : Type
  Coordinator : Type
  AggKeygenInput : Type
  genKeygenInput : UInt32 → List Scalar → UInt32 → Rng → KeygenInput × List (Scalar × Scalar)
  newCoordinator : UInt32 → UInt32 → Coordinator
  addInput : Coordinator → UInt32 → KeygenInput → Except String Coordinator
  finish : Coordinator → Option AggKeygenInput
  keygenInputs : Binary KeygenInput
  secretShares : Binary Scalar

structure PendingSecretShare where
  recipient : ParticipantId
  bytes : List UInt8
  deriving DecidableEq

structure DkgRuntime where
  pendingSecretShares : List PendingSecretShare
  round1Packages : ParticipantId → Option Round1Package

structure FrostDkgSession where
  config : DkgSessionConfig
  runtime : Option DkgRuntime

def participantIdFromScalarBytes (bytes : Bytes 32) : Result ParticipantId :=
  let number := value (bytes.toList.drop 28).reverse
  if 65535 < number then fail (.invalidParticipantId 65535) else ParticipantId.new (UInt16.ofNat number)

/-- `participant_id as u32 - 1`, with overflow checks. -/
def partyIndex (participantId : ParticipantId) : Result UInt32 :=
  if participantId = 0 then .error (.panic .overflow) else .ok (participantId.toUInt32 - 1)

variable (pedPop : SimplePedPop)

namespace DkgSessionConfig

def shareIndices (config : DkgSessionConfig) : Result (List Scalar) :=
  collectResults (fun i : ℕ => if (i : Scalar) = 0 then .error (.panic (.expect "nonzero"))
    else .ok (i : Scalar)) (List.range' 1 config.threshold.participants.toNat)

def pendingSecretShare (entry : Scalar × Scalar) : Result PendingSecretShare := do
  let recipient ← participantIdFromScalarBytes (scalarToBytes entry.1)
  let bytes ← serialized (pedPop.secretShares.serialize entry.2)
  .ok ⟨recipient, bytes⟩

/-- What round one computes before it stores anything. -/
def contribute (config : DkgSessionConfig) (rng : pedPop.Rng) : Result (Round1Package × DkgRuntime) := do
  let shareIndices ← config.shareIndices
  let index ← partyIndex config.participantId
  let (keygenInput, secretShares) :=
    pedPop.genKeygenInput config.threshold.threshold.toUInt32 shareIndices index rng
  let bytes ← serialized (pedPop.keygenInputs.serialize keygenInput)
  let package : Round1Package := ⟨config.participantId, bytes⟩
  let pendingSecretShares ← collectResults (pendingSecretShare pedPop) secretShares
  .ok (package, ⟨pendingSecretShares, lastWith Round1Package.participantId [package]⟩)

def validateRound1Set (config : DkgSessionConfig) (round1Packages : List Round1Package) : Result Unit :=
  if round1Packages.length ≠ config.threshold.participants.toNat then
    fail (.participantCountMismatch config.threshold.participants round1Packages.length)
  else do
    let _ ← distinctLoop Round1Package.participantId
      (fun package => .err (.duplicateParticipantId package.participantId))
      (fun package => if config.threshold.participants < package.participantId then
        fail (.participantOutOfRange package.participantId config.threshold.participants) else .ok ())
      (fun _ => .ok ()) round1Packages ∅
    .ok ()

def addKeygenInput (coordinator : pedPop.Coordinator) (package : Round1Package) :
    Result pedPop.Coordinator := do
  let keygenInput ← serialized (pedPop.keygenInputs.deserialize package.bytes)
  let index ← partyIndex package.participantId
  match pedPop.addInput coordinator index keygenInput with
  | .ok coordinator => .ok coordinator
  | .error err => fail (.protocol s!"invalid round1 input: {err}")

def aggregateKeygenInputs (config : DkgSessionConfig) (round1Packages : List Round1Package) :
    Result pedPop.AggKeygenInput := do
  let coordinator ← round1Packages.foldlM (addKeygenInput pedPop)
    (pedPop.newCoordinator config.threshold.threshold.toUInt32 config.threshold.participants.toUInt32)
  okOr (.protocol "coordinator missing round1 inputs") (pedPop.finish coordinator)

end DkgSessionConfig

namespace FrostDkgSession

def new (config : DkgSessionConfig) : FrostDkgSession := ⟨config, none⟩

def round1 (session : FrostDkgSession) (rng : pedPop.Rng) : Result Round1Package × FrostDkgSession :=
  match session.config.contribute pedPop rng with
  | .ok (package, runtime) => (.ok package, { session with runtime := some runtime })
  | .error fault => (.error fault, session)

def round2 (session : FrostDkgSession) (round1Packages : List Round1Package) :
    Result (List Round2Package) × FrostDkgSession :=
  match session.config.validateRound1Set round1Packages with
  | .error fault => (.error fault, session)
  | .ok () =>
    match session.runtime with
    | none => (fail (.protocol "round1 must be called before round2"), session)
    | some runtime =>
      -- the packages are stored before they are aggregated
      let session := { session with runtime := some { runtime with
        round1Packages := lastWith Round1Package.participantId round1Packages } }
      match session.config.aggregateKeygenInputs pedPop round1Packages with
      | .error fault => (.error fault, session)
      | .ok _ => (.ok (runtime.pendingSecretShares.map fun share =>
          ⟨session.config.participantId, share.recipient, share.bytes⟩), session)

end FrostDkgSession

end Sessions

section SessionRuns

open DkgSessionConfig FrostDkgSession

variable {pedPop : SimplePedPop} {config : DkgSessionConfig}

/-- The calls that change a session; `finalize` only reads it. -/
inductive DkgSessionCall (pedPop : SimplePedPop)
  | round1 (rng : pedPop.Rng)
  | round2 (round1Packages : List Round1Package)

/-- A session together with the package that its first round returned last. -/
structure SessionHistory where
  session : FrostDkgSession
  own : Option Round1Package

namespace SessionHistory

def perform (history : SessionHistory) (call : DkgSessionCall pedPop) : SessionHistory :=
  match call with
  | .round1 rng =>
    match history.session.round1 pedPop rng with
    | (.ok package, session) => ⟨session, some package⟩
    | (.error _, session) => ⟨session, history.own⟩
  | .round2 round1Packages => ⟨(history.session.round2 pedPop round1Packages).2, history.own⟩

def run (config : DkgSessionConfig) (calls : List (DkgSessionCall pedPop)) : SessionHistory :=
  calls.foldl perform ⟨FrostDkgSession.new config, none⟩

/-- What is known of a session after any calls. -/
structure Valid (config : DkgSessionConfig) (history : SessionHistory) : Prop where
  config_eq : history.session.config = config
  runtime_isSome : history.session.runtime.isSome = history.own.isSome
  own_id : ∀ own, history.own = some own → own.participantId = config.participantId ∧
    config.participantId ≠ 0

end SessionHistory

theorem partyIndex_eq_ok {participantId : ParticipantId} {index : UInt32}
    (h : partyIndex participantId = .ok index) : participantId ≠ 0 := by
  rintro rfl
  cases h

theorem contribute_eq_ok {rng : pedPop.Rng} {package : Round1Package} {runtime : DkgRuntime}
    (h : config.contribute pedPop rng = .ok (package, runtime)) :
    (package.participantId = config.participantId ∧ config.participantId ≠ 0) ∧
      runtime.round1Packages = lastWith Round1Package.participantId [package] := by
  simp only [contribute, bind_eq_ok, Except.ok.injEq, Prod.mk.injEq] at h
  obtain ⟨_, -, index, hindex, _, -, _, -, rfl, rfl⟩ := h
  exact ⟨⟨rfl, partyIndex_eq_ok hindex⟩, rfl⟩

theorem round1_valid {history : SessionHistory} (h : history.Valid config) (rng : pedPop.Rng) :
    (history.perform (.round1 rng)).Valid config := by
  rw [SessionHistory.perform, round1, h.config_eq]
  cases hcontribute : config.contribute pedPop rng with
  | error fault => exact ⟨h.config_eq, h.runtime_isSome, h.own_id⟩
  | ok result =>
    obtain ⟨package, runtime⟩ := result
    refine ⟨rfl, rfl, fun own hown => ?_⟩
    rw [← Option.some.inj hown]
    exact (contribute_eq_ok hcontribute).1

theorem round2_keeps (pedPop : SimplePedPop) (session : FrostDkgSession) (round1Packages : List Round1Package) :
    (session.round2 pedPop round1Packages).2.config = session.config ∧
      (session.round2 pedPop round1Packages).2.runtime.isSome = session.runtime.isSome := by
  rw [round2]
  cases session.config.validateRound1Set round1Packages with
  | error fault => exact ⟨rfl, rfl⟩
  | ok _ =>
    cases hruntime : session.runtime with
    | none => exact ⟨rfl, by simp [hruntime]⟩
    | some runtime =>
      cases haggregate : session.config.aggregateKeygenInputs pedPop round1Packages with
      | error fault => simp [haggregate]
      | ok _ => simp [haggregate]

theorem perform_valid {history : SessionHistory} (h : history.Valid config)
    (call : DkgSessionCall pedPop) : (history.perform call).Valid config := by
  cases call with
  | round1 rng => exact round1_valid h rng
  | round2 round1Packages =>
    obtain ⟨hconfig, hruntime⟩ := round2_keeps pedPop history.session round1Packages
    exact ⟨hconfig.trans h.config_eq, hruntime.trans h.runtime_isSome, h.own_id⟩

theorem run_valid (config : DkgSessionConfig) (calls : List (DkgSessionCall pedPop)) :
    (SessionHistory.run config calls).Valid config := by
  have hstart : SessionHistory.Valid config ⟨FrostDkgSession.new config, none⟩ :=
    ⟨rfl, rfl, fun own hown => nomatch hown⟩
  rw [SessionHistory.run]
  generalize (⟨FrostDkgSession.new config, none⟩ : SessionHistory) = history at hstart ⊢
  induction calls generalizing history with
  | nil => exact hstart
  | cons call rest ih => exact ih _ (perform_valid hstart call)

theorem validateRound1Set_eq_ok {round1Packages : List Round1Package} {u : Unit} :
    config.validateRound1Set round1Packages = .ok u ↔
      round1Packages.length = config.threshold.participants.toNat ∧
      (∀ package ∈ round1Packages, package.participantId ≤ config.threshold.participants) ∧
      (round1Packages.map Round1Package.participantId).Nodup := by
  simp only [validateRound1Set, ifFail_eq_ok, bind_eq_ok, distinctLoop_empty_eq_ok,
    UInt16.not_lt, not_not, ne_eq, and_true]
  constructor
  · rintro ⟨hlen, _, ⟨hrange, hnd, -⟩⟩
    exact ⟨hlen, hrange, hnd⟩
  · rintro ⟨hlen, hrange, hnd⟩
    exact ⟨hlen, _, hrange, hnd, rfl⟩

theorem ne_zero_of_aggregate {round1Packages : List Round1Package} {input : pedPop.AggKeygenInput}
    (h : config.aggregateKeygenInputs pedPop round1Packages = .ok input) :
    ∀ package ∈ round1Packages, package.participantId ≠ 0 := by
  simp only [aggregateKeygenInputs, bind_eq_ok] at h
  obtain ⟨coordinator, hfold, -⟩ := h
  generalize pedPop.newCoordinator _ _ = start at hfold
  induction round1Packages generalizing start with
  | nil => simp
  | cons package rest ih =>
    rw [List.foldlM_cons, bind_eq_ok] at hfold
    obtain ⟨next, hnext, hrest⟩ := hfold
    simp only [addKeygenInput, bind_eq_ok] at hnext
    obtain ⟨_, -, index, hindex, -⟩ := hnext
    rw [List.forall_mem_cons]
    exact ⟨partyIndex_eq_ok hindex, ih next hrest⟩

/-- The ids `1..=n`. -/
def partyIds (n : UInt16) : List ParticipantId := (List.range' 1 n.toNat).map UInt16.ofNat

theorem mem_partyIds {n : UInt16} {id : ParticipantId} : id ∈ partyIds n ↔ id ≠ 0 ∧ id ≤ n := by
  have hlt := n.toNat_lt
  rw [partyIds, List.mem_map, UInt16.le_iff_toNat_le]
  constructor
  · rintro ⟨i, hi, rfl⟩
    rw [List.mem_range'_1] at hi
    have hnat : (UInt16.ofNat i).toNat = i := toNat_ofNat_u16 (by omega)
    refine ⟨fun h => ?_, by omega⟩
    rw [h] at hnat
    simp only [UInt16.toNat_zero] at hnat
    omega
  · rintro ⟨hid, hle⟩
    have hpos : id.toNat ≠ 0 := fun h => hid (UInt16.toNat_inj.mp h)
    refine ⟨id.toNat, ?_, UInt16.ofNat_toNat⟩
    rw [List.mem_range'_1]
    omega

/-- Distinct ids from `1` to `n`, as many as that. -/
theorem ids_perm_of_validated {round1Packages : List Round1Package}
    (hvalid : config.validateRound1Set round1Packages = .ok ())
    (hne : ∀ package ∈ round1Packages, package.participantId ≠ 0) :
    (round1Packages.map Round1Package.participantId).Perm (partyIds config.threshold.participants) := by
  obtain ⟨hlen, hrange, hnd⟩ := validateRound1Set_eq_ok.mp hvalid
  have hsub : round1Packages.map Round1Package.participantId ⊆ partyIds config.threshold.participants := by
    intro i hi
    obtain ⟨package, hpackage, rfl⟩ := List.mem_map.mp hi
    exact mem_partyIds.mpr ⟨hne package hpackage, hrange package hpackage⟩
  exact (hnd.subperm hsub).perm_of_length_le (by simp [partyIds, hlen])

theorem exists_mem_of_validated {round1Packages : List Round1Package}
    (hvalid : config.validateRound1Set round1Packages = .ok ())
    (hne : ∀ package ∈ round1Packages, package.participantId ≠ 0) {id : ParticipantId} (hid : id ≠ 0)
    (hle : id ≤ config.threshold.participants) :
    ∃ package ∈ round1Packages, package.participantId = id :=
  List.mem_map.mp ((ids_perm_of_validated hvalid hne).mem_iff.mpr (mem_partyIds.mpr ⟨hid, hle⟩))

theorem round2_isOk_iff (pedPop : SimplePedPop) (session : FrostDkgSession)
    (round1Packages : List Round1Package) :
    (∃ shares, (session.round2 pedPop round1Packages).1 = .ok shares) ↔
      session.runtime.isSome ∧ session.config.validateRound1Set round1Packages = .ok () ∧
        ∃ input, session.config.aggregateKeygenInputs pedPop round1Packages = .ok input := by
  rw [round2]
  cases hvalid : session.config.validateRound1Set round1Packages with
  | error fault => simp
  | ok _ =>
    cases hruntime : session.runtime with
    | none => simp
    | some runtime =>
      cases haggregate : session.config.aggregateKeygenInputs pedPop round1Packages with
      | error fault => simp [haggregate]
      | ok input => simp [haggregate]

/-- The same for a FROST session after any calls; there an own id above the number of
participants is never in an accepted list. -/
theorem round2_contains_own_iff (calls : List (DkgSessionCall pedPop)) (round1Packages : List Round1Package) :
    (∀ shares, ((SessionHistory.run config calls).session.round2 pedPop round1Packages).1 = .ok shares →
      ∃ own, (SessionHistory.run config calls).own = some own ∧ own ∈ round1Packages) ↔
    ∀ own, (SessionHistory.run config calls).own = some own →
      config.validateRound1Set round1Packages = .ok () →
      (∃ input, config.aggregateKeygenInputs pedPop round1Packages = .ok input) →
      config.participantId ≤ config.threshold.participants ∧
        ∀ package ∈ round1Packages, package.participantId = config.participantId → package = own := by
  have hrun := run_valid config calls
  generalize SessionHistory.run config calls = history at hrun ⊢
  have hok := round2_isOk_iff pedPop history.session round1Packages
  rw [hrun.config_eq, hrun.runtime_isSome] at hok
  constructor
  · intro h own hown hvalid haggregate
    obtain ⟨shares, hshares⟩ := hok.mpr ⟨by simp [hown], hvalid, haggregate⟩
    obtain ⟨own', hown', hmem⟩ := h shares hshares
    obtain rfl : own = own' := Option.some.inj (hown.symm.trans hown')
    obtain ⟨-, hrange, hnd⟩ := validateRound1Set_eq_ok.mp hvalid
    have hid := (hrun.own_id own hown).1
    refine ⟨hid ▸ hrange own hmem, fun package hpackage hpid => ?_⟩
    exact List.inj_on_of_nodup_map hnd hpackage hmem (hpid.trans hid.symm)
  · intro h shares hshares
    obtain ⟨hsome, hvalid, input, haggregate⟩ := hok.mp ⟨shares, hshares⟩
    obtain ⟨own, hown⟩ := Option.isSome_iff_exists.mp hsome
    obtain ⟨hle, hunique⟩ := h own hown hvalid ⟨input, haggregate⟩
    obtain ⟨package, hpackage, hpid⟩ := exists_mem_of_validated hvalid (ne_zero_of_aggregate haggregate)
      (hrun.own_id own hown).2 hle
    exact ⟨own, hown, hunique package hpackage hpid ▸ hpackage⟩

end SessionRuns

/-- The second rounds release shares only for lists that hold the participant's own package
exactly if the accepted lists hold nothing else under its id, which a FROST session must
also have in range. -/
theorem round2_keeps_own_contribution_iff (state : HtssDkgRound1State)
    (htssPackages : List HtssDkgRound1Package) (htssConfig : HierarchicalThresholdConfig)
    (pedPop : SimplePedPop) (config : DkgSessionConfig) (calls : List (DkgSessionCall pedPop))
    (round1Packages : List Round1Package) :
    ((∀ shares, htssDkgRound2 state htssPackages htssConfig = .ok shares → state.package ∈ htssPackages) ↔
      (validateHtssDkgRound1Set htssPackages htssConfig = .ok () → state.Usable htssConfig →
        ∀ package ∈ htssPackages, package.participantId = state.package.participantId →
          package = state.package)) ∧
    ((∀ shares, ((SessionHistory.run config calls).session.round2 pedPop round1Packages).1 = .ok shares →
        ∃ own, (SessionHistory.run config calls).own = some own ∧ own ∈ round1Packages) ↔
      ∀ own, (SessionHistory.run config calls).own = some own →
        config.validateRound1Set round1Packages = .ok () →
        (∃ input, config.aggregateKeygenInputs pedPop round1Packages = .ok input) →
        config.participantId ≤ config.threshold.participants ∧
          ∀ package ∈ round1Packages, package.participantId = config.participantId → package = own) :=
  ⟨htssDkgRound2_contains_own_iff, round2_contains_own_iff calls round1Packages⟩

theorem two_ne_zero_scalar : (2 : Scalar) ≠ 0 := by
  have h : ((2 : ℕ) : Scalar) ≠ 0 := scalar_natCast_ne_zero (by decide) (by decide)
  exact_mod_cast h

/-- Participant `1` draws the coefficients `2, 2`; the list says `1, 1` in its name, and its
shares are released all the same. -/
theorem htssDkgRound2_accepts_swapped_package : ∃ state shares,
    htssDkgRound1 1 pairConfig (fun _ => ⟨2, two_ne_zero_scalar⟩) = .ok state ∧
      htssDkgRound2 state pairRound1 pairConfig = .ok shares ∧ state.package ∉ pairRound1 := by
  have hc := HierarchicalThresholdConfig.accepted_of_new pairConfig_new
  set rng : ParticipantId → ℕ → NonZeroScalar := fun _ _ => ⟨2, two_ne_zero_scalar⟩
  set p : RankedParticipant := ⟨1, 0, none⟩
  have hp : p ∈ pairConfig.participants := by simp [pairConfig, p]
  have hround1 : htssDkgRound1 1 pairConfig (rng 1) = .ok (honestState pairConfig rng p) :=
    htssDkgRound1_honest hc hp
  have husable : (honestState pairConfig rng p).Usable pairConfig := by
    refine ⟨by rw [honestState, List.length_map, length_honestCoefficients], fun bytes hbytes => ?_⟩
    obtain ⟨c, -, rfl⟩ := List.mem_map.mp hbytes
    exact ⟨c, scalarFromBytes_toBytes c⟩
  obtain ⟨shares, hshares⟩ := htssDkgRound2_isOk_iff.mpr
    ⟨(validateHtssDkgRound1Set_eq_ok hc).mpr pairRound1_valid, ⟨_, List.mem_cons_self, rfl⟩, husable⟩
  refine ⟨honestState pairConfig rng p, shares, hround1, hshares, fun hmem => ?_⟩
  have hcommitment := (commitment_honest p (by decide : 0 < pairConfig.threshold.toNat)).symm.trans
    (pairRound1_commitment hmem 0)
  have htwo : (1 + 1 : Scalar) = 1 := by
    apply smul_generator_injective
    simpa [rng, one_add_one_eq_two] using hcommitment
  exact one_ne_zero (left_eq_add.mp htwo.symm)

end DkgKit
