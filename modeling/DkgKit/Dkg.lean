import DkgKit.Keygen

/-! Distributed key generation: commitments in round one, derivative shares in
round two, verified and summed up by every participant. -/

open Polynomial BigEndian BirkhoffMatrix LoopRules

namespace DkgKit

section Packages

structure HtssDkgRound1Package where
  participantId : ParticipantId
  rank : UInt16
  commitmentBytes : List (List UInt8)
  deriving DecidableEq

structure HtssDkgRound1State where
  package : HtssDkgRound1Package
  secretCoefficientBytes : List (Bytes 32)
  deriving DecidableEq

structure HtssDkgRound2Package where
  sender : ParticipantId
  recipient : ParticipantId
  recipientRank : UInt16
  shareValueBytes : Bytes 32
  deriving DecidableEq

def htssDkgCommitmentPoint (bytes : List UInt8) : Result Point := do
  let array ← okOr (.protocol s!"HTSS DKG commitment must be 33 bytes, got {bytes.length}")
    (asArray 33 bytes)
  okOr (.protocol "invalid HTSS DKG commitment point") (pointFromBytes array)

end Packages

section Validation

def checkRound1Package (config : HierarchicalThresholdConfig) (package : HtssDkgRound1Package) :
    Result Unit := do
  let expectedRank ← okOr (.missingRankedParticipant package.participantId)
    (config.rankOf package.participantId)
  if package.rank ≠ expectedRank then
    fail (.protocol s!"HTSS DKG round1 rank mismatch for participant {package.participantId}: got {package.rank}, expected {expectedRank}")
  else if package.commitmentBytes.length ≠ config.threshold.toNat then
    fail (.protocol s!"HTSS DKG round1 participant {package.participantId} has {package.commitmentBytes.length} commitments, expected {config.threshold}")
  else
    let _ ← collectResults htssDkgCommitmentPoint package.commitmentBytes
    .ok ()

def validateHtssDkgRound1Set (round1Packages : List HtssDkgRound1Package)
    (config : HierarchicalThresholdConfig) : Result Unit := do
  let seen ← distinctLoop HtssDkgRound1Package.participantId
    (fun package => .err (.duplicateParticipantId package.participantId))
    (fun _ => .ok ()) (checkRound1Package config) round1Packages ∅
  if seen.card ≠ config.participants.length then
    fail (.protocol s!"HTSS DKG round1 set mismatch: have {seen.card}, need {config.participants.length}")
  else .ok ()

def checkRound2Package (participantId : ParticipantId) (expectedRank : Rank)
    (config : HierarchicalThresholdConfig) (package : HtssDkgRound2Package) : Result Unit := do
  if package.recipient ≠ participantId then
    fail (.protocol s!"HTSS DKG round2 package for participant {package.recipient} cannot finalize participant {participantId}")
  else if package.recipientRank ≠ expectedRank then
    fail (.protocol s!"HTSS DKG round2 recipient rank mismatch for participant {participantId}: got {package.recipientRank}, expected {expectedRank}")
  else
    let _ ← okOr (.missingRankedParticipant package.sender) (config.rankOf package.sender)
    .ok ()

def validateHtssDkgRound2Set (participantId : ParticipantId)
    (round2Packages : List HtssDkgRound2Package) (config : HierarchicalThresholdConfig) :
    Result Unit := do
  let expectedRank ← okOr (.missingRankedParticipant participantId) (config.rankOf participantId)
  let seen ← distinctLoop HtssDkgRound2Package.sender
    (fun package => .err (.duplicateParticipantId package.sender))
    (checkRound2Package participantId expectedRank config) (fun _ => .ok ()) round2Packages ∅
  if seen.card ≠ config.participants.length then
    fail (.protocol s!"HTSS DKG round2 set for participant {participantId} mismatch: have {seen.card}, need {config.participants.length}")
  else .ok ()

/-- The sum over the enumerated commitments; terms with a zero basis are skipped. -/
def expectedShare (recipientRank recipient : UInt16) : List (List UInt8 × ℕ) → Point → Result Point
  | [], expected => .ok expected
  | (commitmentBytes, degree) :: rest, expected => do
    let basis ← derivativeBasisScalar (UInt16.ofNat degree) recipientRank recipient
    if basis = 0 then expectedShare recipientRank recipient rest expected
    else
      let commitment ← htssDkgCommitmentPoint commitmentBytes
      expectedShare recipientRank recipient rest (expected + basis • commitment)

def verifyHtssDkgDerivativeShare (package : HtssDkgRound2Package) (round1 : HtssDkgRound1Package) :
    Result Unit := do
  if package.sender ≠ round1.participantId then
    fail (.protocol "HTSS DKG derivative share sender mismatch")
  else
    let shareValue ← okOr
      (.protocol s!"invalid HTSS DKG derivative share from participant {package.sender}")
      (scalarFromBytes package.shareValueBytes)
    let expected ← expectedShare package.recipientRank package.recipient
      round1.commitmentBytes.zipIdx 0
    if pointToBytes (shareValue • generator) ≠ pointToBytes expected then
      fail (.protocol s!"HTSS DKG derivative share from participant {package.sender} failed commitment verification")
    else .ok ()

def addConstantCommitment (aggregate : Point) (package : HtssDkgRound1Package) : Result Point := do
  let firstCommitment ← okOr
    (.protocol s!"HTSS DKG participant {package.participantId} missing constant commitment")
    package.commitmentBytes.head?
  let commitment ← htssDkgCommitmentPoint firstCommitment
  .ok (aggregate + commitment)

def htssDkgGroupXonlyPublicKey (round1Packages : List HtssDkgRound1Package) :
    Result (Bytes 32 × Bool) := do
  let aggregate ← round1Packages.foldlM addConstantCommitment 0
  if aggregate = 0 then fail (.protocol "HTSS DKG group key cannot be zero")
  else
    let (evenPublicKey, negated) := intoPointWithEvenY aggregate
    .ok (pointToXonlyBytes evenPublicKey, negated)

end Validation

section Rounds

/-- Round one, with the sampled coefficients as an argument. -/
def htssDkgRound1 (participantId : ParticipantId) (config : HierarchicalThresholdConfig)
    (rng : ℕ → NonZeroScalar) : Result HtssDkgRound1State := do
  let rank ← okOr (.missingRankedParticipant participantId) (config.rankOf participantId)
  let coefficients := (List.range config.threshold.toNat).map fun k => (rng k).val
  .ok ⟨⟨participantId, rank,
    coefficients.map fun coefficient => (pointToBytes (coefficient • generator)).toList⟩,
    coefficients.map scalarToBytes⟩

def htssDkgRound2 (state : HtssDkgRound1State) (round1Packages : List HtssDkgRound1Package)
    (config : HierarchicalThresholdConfig) : Result (List HtssDkgRound2Package) := do
  validateHtssDkgRound1Set round1Packages config
  if ¬round1Packages.any fun package => package.participantId == state.package.participantId then
    fail (.protocol s!"missing own HTSS DKG round1 package for participant {state.package.participantId}")
  else if state.secretCoefficientBytes.length ≠ config.threshold.toNat then
    fail (.protocol s!"HTSS DKG contributor {state.package.participantId} has {state.secretCoefficientBytes.length} coefficients, expected {config.threshold}")
  else
    let coefficients ← collectResults (fun bytes => okOr
      (.protocol s!"invalid HTSS DKG coefficient for participant {state.package.participantId}")
      (scalarFromBytes bytes)) state.secretCoefficientBytes
    collectResults (fun recipient => do
      let shareValue ← polynomialDerivativeValue coefficients recipient.id recipient.rank
      .ok ⟨state.package.participantId, recipient.id, recipient.rank, scalarToBytes shareValue⟩)
      config.participants

def round1BySender (round1Packages : List HtssDkgRound1Package) :
    ParticipantId → Option HtssDkgRound1Package :=
  lastWith HtssDkgRound1Package.participantId round1Packages

def addContribution (round1Packages : List HtssDkgRound1Package) (shareValue : Scalar)
    (package : HtssDkgRound2Package) : Result Scalar := do
  let round1 ← okOr (.missingRankedParticipant package.sender)
    (round1BySender round1Packages package.sender)
  verifyHtssDkgDerivativeShare package round1
  let contribution ← okOr
    (.protocol s!"invalid HTSS DKG round2 share from participant {package.sender}")
    (scalarFromBytes package.shareValueBytes)
  .ok (shareValue + contribution)

def finalizeHtssDkg (participantId : ParticipantId) (round1Packages : List HtssDkgRound1Package)
    (round2Packages : List HtssDkgRound2Package) (config : HierarchicalThresholdConfig) :
    Result (GroupKey × HtssLocalKeyShare) := do
  let rank ← okOr (.missingRankedParticipant participantId) (config.rankOf participantId)
  validateHtssDkgRound1Set round1Packages config
  validateHtssDkgRound2Set participantId round2Packages config
  let shareValue ← round2Packages.foldlM (addContribution round1Packages) 0
  let (xonlyPublicKey, negated) ← htssDkgGroupXonlyPublicKey round1Packages
  let shareValue := if negated then 0 - shareValue else shareValue
  .ok (⟨xonlyPublicKey, []⟩, ⟨participantId, rank, scalarToBytes shareValue⟩)

def finalizeParticipant (round1Packages : List HtssDkgRound1Package)
    (round2Packages : List HtssDkgRound2Package) (config : HierarchicalThresholdConfig)
    (state : Option GroupKey × List HtssLocalKeyShare) (participant : RankedParticipant) :
    Result (Option GroupKey × List HtssLocalKeyShare) := do
  let packagesForParticipant :=
    round2Packages.filter fun package => package.recipient == participant.id
  let (participantGroupKey, share) ←
    finalizeHtssDkg participant.id round1Packages packagesForParticipant config
  match state.1 with
  | some existing =>
    if existing.xonlyPublicKey ≠ participantGroupKey.xonlyPublicKey then
      fail (.protocol "HTSS DKG participants derived different group keys")
    else .ok (some existing, state.2 ++ [share])
  | none => .ok (some participantGroupKey, state.2 ++ [share])

def runDistributedHtssKeygen (config : HierarchicalThresholdConfig)
    (rng : ParticipantId → ℕ → NonZeroScalar) : Result HtssLocalKeySet := do
  let states ← collectResults
    (fun participant => htssDkgRound1 participant.id config (rng participant.id)) config.participants
  let round1Packages := states.map HtssDkgRound1State.package
  let round2Packages ← collectResults (fun state => htssDkgRound2 state round1Packages config) states
  let (groupKey, shares) ← config.participants.foldlM
    (finalizeParticipant round1Packages round2Packages.flatten config) (none, [])
  let groupKey ← okOr (.protocol "missing HTSS DKG group key") groupKey
  .ok ⟨groupKey, shares⟩

end Rounds

section Commitments

theorem htssDkgCommitmentPoint_eq_ok {bytes : List UInt8} {P : Point} :
    htssDkgCommitmentPoint bytes = .ok P ↔ P ≠ 0 ∧ bytes = (pointToBytes P).toList := by
  simp only [htssDkgCommitmentPoint, bind_eq_ok, okOr_eq_ok, asArray_eq_some, pointFromBytes_eq_some]
  constructor
  · rintro ⟨_, rfl, hP, rfl⟩
    exact ⟨hP, rfl⟩
  · rintro ⟨hP, rfl⟩
    exact ⟨_, rfl, hP, rfl⟩

namespace HtssDkgRound1Package

def commitment (package : HtssDkgRound1Package) (degree : ℕ) : Point :=
  ((package.commitmentBytes[degree]?.bind (asArray 33)).bind pointFromBytes).getD 0

/-- The commitments decode to nonzero points, `threshold` of them. -/
def Committed (package : HtssDkgRound1Package) (threshold : ℕ) : Prop :=
  ∃ C : List Point, C.length = threshold ∧ (∀ P ∈ C, P ≠ 0) ∧
    package.commitmentBytes = C.map fun P => (pointToBytes P).toList

theorem committed_iff {package : HtssDkgRound1Package} {threshold : ℕ} :
    package.Committed threshold ↔ package.commitmentBytes.length = threshold ∧
      ∃ C, collectResults htssDkgCommitmentPoint package.commitmentBytes = .ok C := by
  simp only [Committed, collectResults_eq_ok, htssDkgCommitmentPoint_eq_ok]
  constructor
  · rintro ⟨C, hlen, hne, hbytes⟩
    refine ⟨by rw [hbytes, List.length_map, hlen], C, ?_⟩
    rw [hbytes, List.forall₂_map_left_iff, List.forall₂_same]
    exact fun P hP => ⟨hne P hP, rfl⟩
  · rintro ⟨hlen, C, hall⟩
    refine ⟨C, hall.length_eq ▸ hlen, fun P hP => ?_, ?_⟩
    · obtain ⟨i, hi, rfl⟩ := List.getElem_of_mem hP
      exact (hall.get (hall.length_eq ▸ hi) hi).1
    · apply List.ext_getElem
      · rw [List.length_map, hall.length_eq]
      · intro i hi hi'
        rw [List.getElem_map]
        exact (hall.get hi (by simpa using hi')).2

theorem commitment_of_bytes {package : HtssDkgRound1Package} {C : List Point}
    (hne : ∀ P ∈ C, P ≠ 0)
    (hbytes : package.commitmentBytes = C.map fun P => (pointToBytes P).toList) (k : ℕ) :
    package.commitment k = C.getD k 0 := by
  rw [commitment, hbytes, List.getElem?_map, List.getD_eq_getElem?_getD]
  cases hk : C[k]? with
  | none => rfl
  | some P =>
    have hP : P ≠ 0 := hne P (List.mem_of_getElem? hk)
    have harray : asArray 33 (pointToBytes P).toList = some (pointToBytes P) :=
      asArray_eq_some.mpr rfl
    simp [harray, pointFromBytes_eq_some.mpr ⟨hP, rfl⟩]

def promised (package : HtssDkgRound1Package) (threshold : ℕ) (recipient : RankedParticipant) :
    Point :=
  ∑ k ∈ Finset.range threshold,
    basis k recipient.rank.toNat (recipient.id.toNat : Scalar) • package.commitment k

end HtssDkgRound1Package

theorem expectedShare_eq {recipientRank recipient : UInt16} {C : List Point} {start : ℕ}
    (hlen : start + C.length ≤ 65535) (hne : ∀ P ∈ C, P ≠ 0) (expected : Point) :
    expectedShare recipientRank recipient
        ((C.map fun P => (pointToBytes P).toList).zipIdx start) expected =
      .ok (expected + ∑ k ∈ Finset.range C.length,
        basis (start + k) recipientRank.toNat (recipient.toNat : Scalar) • C.getD k 0) := by
  induction C generalizing start expected with
  | nil => simp [expectedShare]
  | cons P rest ih =>
    rw [List.length_cons] at hlen
    rw [List.forall_mem_cons] at hne
    have hdeg : (UInt16.ofNat start).toNat = start := toNat_ofNat_u16 (by omega)
    have hP : htssDkgCommitmentPoint (pointToBytes P).toList = .ok P :=
      htssDkgCommitmentPoint_eq_ok.mpr ⟨hne.1, rfl⟩
    have hsum : ∑ k ∈ Finset.range (P :: rest).length,
        basis (start + k) recipientRank.toNat (recipient.toNat : Scalar) • (P :: rest).getD k 0 =
          basis start recipientRank.toNat (recipient.toNat : Scalar) • P +
            ∑ k ∈ Finset.range rest.length,
              basis (start + 1 + k) recipientRank.toNat (recipient.toNat : Scalar) •
                rest.getD k 0 := by
      rw [List.length_cons, Finset.sum_range_succ', add_comm]
      simp [Nat.add_assoc, Nat.add_comm 1]
    rw [List.map_cons, List.zipIdx_cons, expectedShare, derivativeBasisScalar_eq (by omega), ok_bind,
      hdeg, hsum]
    split_ifs with hzero
    · rw [ih (by omega) hne.2, hzero, zero_smul Scalar P, zero_add]
    · rw [hP, ok_bind, ih (by omega) hne.2, add_assoc]

theorem verifyHtssDkgDerivativeShare_eq_ok {package : HtssDkgRound2Package}
    {round1 : HtssDkgRound1Package} {threshold : ℕ} (hround1 : round1.Committed threshold)
    (hthreshold : threshold ≤ 65535) {recipient : RankedParticipant}
    (hrecipient : package.recipient = recipient.id) (hrank : package.recipientRank = recipient.rank)
    {u : Unit} : verifyHtssDkgDerivativeShare package round1 = .ok u ↔
      package.sender = round1.participantId ∧ ∃ s, scalarFromBytes package.shareValueBytes = some s ∧
        s • generator = round1.promised threshold recipient := by
  obtain ⟨C, rfl, hne, hbytes⟩ := hround1
  have hexpected : expectedShare package.recipientRank package.recipient
      round1.commitmentBytes.zipIdx 0 = .ok (round1.promised C.length recipient) := by
    rw [hbytes, expectedShare_eq (by omega) hne, zero_add, hrecipient, hrank,
      HtssDkgRound1Package.promised]
    simp only [zero_add, HtssDkgRound1Package.commitment_of_bytes hne hbytes]
  rw [verifyHtssDkgDerivativeShare]
  split_ifs with hsender
  · simp only [fail_ne_ok, false_iff, not_and]
    exact fun h => absurd h hsender
  · simp only [bind_eq_ok, okOr_eq_ok, hexpected, Except.ok.injEq, exists_eq_left',
      not_not.mp hsender, true_and]
    refine exists_congr fun s => and_congr_right fun _ => ?_
    split_ifs with hpoint
    · simp only [fail_ne_ok, false_iff]
      exact fun h => hpoint (congrArg pointToBytes h)
    · simpa using pointToBytes_injective (not_not.mp hpoint)

end Commitments

section Finalization

/-- A round-one set of the roster: one package per member, in any order. -/
structure Round1Valid (config : HierarchicalThresholdConfig)
    (round1Packages : List HtssDkgRound1Package) : Prop where
  senders : (round1Packages.map HtssDkgRound1Package.participantId).Perm
    (config.participants.map RankedParticipant.id)
  ranks : ∀ package ∈ round1Packages, config.rankOf package.participantId = some package.rank
  committed : ∀ package ∈ round1Packages, package.Committed config.threshold.toNat

/-- A round-two set for one recipient: one package per member, each opening the
commitments of its sender. -/
structure Round2Valid (config : HierarchicalThresholdConfig) (recipient : RankedParticipant)
    (round1Packages : List HtssDkgRound1Package) (round2Packages : List HtssDkgRound2Package) :
    Prop where
  senders : (round2Packages.map HtssDkgRound2Package.sender).Perm
    (config.participants.map RankedParticipant.id)
  recipients : ∀ package ∈ round2Packages,
    package.recipient = recipient.id ∧ package.recipientRank = recipient.rank
  opens : ∀ package ∈ round2Packages, ∀ round1 ∈ round1Packages,
    round1.participantId = package.sender → ∃ s, scalarFromBytes package.shareValueBytes = some s ∧
      s • generator = round1.promised config.threshold.toNat recipient

theorem perm_participants_iff {config : HierarchicalThresholdConfig} (hc : config.Accepted)
    {ids : List ParticipantId} : ids.Perm (config.participants.map RankedParticipant.id) ↔
      ids.Nodup ∧ (∀ id ∈ ids, (config.rankOf id).isSome) ∧
        ids.toFinset.card = config.participants.length := by
  constructor
  · intro h
    have hnd : ids.Nodup := h.nodup_iff.mpr hc.distinct
    refine ⟨hnd, fun id hid => findRank_isSome_iff.mpr (h.mem_iff.mp hid), ?_⟩
    rw [List.toFinset_card_of_nodup hnd, h.length_eq, List.length_map]
  · rintro ⟨hnd, hmem, hcard⟩
    rw [List.toFinset_card_of_nodup hnd] at hcard
    have hsub : ids ⊆ config.participants.map RankedParticipant.id :=
      fun id hid => findRank_isSome_iff.mp (hmem id hid)
    exact (hnd.subperm hsub).perm_of_length_le (by rw [List.length_map, hcard])

theorem checkRound1Package_eq_ok {config : HierarchicalThresholdConfig}
    {package : HtssDkgRound1Package} {u : Unit} : checkRound1Package config package = .ok u ↔
      config.rankOf package.participantId = some package.rank ∧
        package.Committed config.threshold.toNat := by
  simp only [checkRound1Package, bind_eq_ok, okOr_eq_ok, HtssDkgRound1Package.committed_iff]
  constructor
  · rintro ⟨rank, hrank, h⟩
    split_ifs at h with hne hlen
    · exact absurd h (fail_ne_ok _ _)
    · exact absurd h (fail_ne_ok _ _)
    · obtain ⟨C, hC, -⟩ := bind_eq_ok.mp h
      exact ⟨by rw [hrank, not_not.mp hne], not_not.mp hlen, C, hC⟩
  · rintro ⟨hrank, hlen, C, hC⟩
    exact ⟨_, hrank, by simp [hlen, hC]⟩

theorem validateHtssDkgRound1Set_eq_ok {config : HierarchicalThresholdConfig} (hc : config.Accepted)
    {round1Packages : List HtssDkgRound1Package} {u : Unit} :
    validateHtssDkgRound1Set round1Packages config = .ok u ↔ Round1Valid config round1Packages := by
  simp only [validateHtssDkgRound1Set, bind_eq_ok, distinctLoop_empty_eq_ok,
    checkRound1Package_eq_ok, true_and, check_eq_ok, not_not]
  constructor
  · rintro ⟨_, ⟨hchecks, hnd, rfl⟩, hn⟩
    refine ⟨(perm_participants_iff hc).mpr ⟨hnd, fun id hid => ?_, hn⟩,
      fun package hp => (hchecks package hp).1, fun package hp => (hchecks package hp).2⟩
    obtain ⟨package, hp, rfl⟩ := List.mem_map.mp hid
    simp [(hchecks package hp).1]
  · intro h
    obtain ⟨hnd, -, hn⟩ := (perm_participants_iff hc).mp h.senders
    exact ⟨_, ⟨fun package hp => ⟨h.ranks package hp, h.committed package hp⟩, hnd, rfl⟩, hn⟩

theorem validateHtssDkgRound2Set_eq_ok {config : HierarchicalThresholdConfig} (hc : config.Accepted)
    {recipient : RankedParticipant} (hr : recipient ∈ config.participants)
    {round2Packages : List HtssDkgRound2Package} {u : Unit} :
    validateHtssDkgRound2Set recipient.id round2Packages config = .ok u ↔
      (round2Packages.map HtssDkgRound2Package.sender).Perm
        (config.participants.map RankedParticipant.id) ∧
      ∀ package ∈ round2Packages,
        package.recipient = recipient.id ∧ package.recipientRank = recipient.rank := by
  have hcheck : ∀ package, checkRound2Package recipient.id recipient.rank config package = .ok () ↔
      (package.recipient = recipient.id ∧ package.recipientRank = recipient.rank) ∧
        (config.rankOf package.sender).isSome := by
    intro package
    rw [checkRound2Package]
    split_ifs with hid hrank
    · simp [hid]
    · simp [hrank]
    · simp [not_not.mp hid, not_not.mp hrank, bind_eq_ok, Option.isSome_iff_exists]
  simp only [validateHtssDkgRound2Set, hc.rankOf_of_mem hr, okOr, ok_bind, bind_eq_ok,
    distinctLoop_empty_eq_ok, hcheck, and_true, check_eq_ok, not_not]
  constructor
  · rintro ⟨_, ⟨hchecks, hnd, rfl⟩, hn⟩
    refine ⟨(perm_participants_iff hc).mpr ⟨hnd, fun id hid => ?_, hn⟩,
      fun package hp => (hchecks package hp).1⟩
    obtain ⟨package, hp, rfl⟩ := List.mem_map.mp hid
    exact (hchecks package hp).2
  · rintro ⟨hperm, hrec⟩
    obtain ⟨hnd, hmem, hn⟩ := (perm_participants_iff hc).mp hperm
    exact ⟨_, ⟨fun package hp => ⟨hrec package hp, hmem _ (List.mem_map_of_mem hp)⟩, hnd, rfl⟩, hn⟩

def HtssDkgRound2Package.shareScalar (package : HtssDkgRound2Package) : Scalar :=
  (scalarFromBytes package.shareValueBytes).getD 0

def constantSum (round1Packages : List HtssDkgRound1Package) : Point :=
  (round1Packages.map fun package => package.commitment 0).sum

theorem foldlM_addConstantCommitment {threshold : ℕ} (hpos : 0 < threshold)
    {round1Packages : List HtssDkgRound1Package}
    (h : ∀ package ∈ round1Packages, package.Committed threshold) (aggregate : Point) :
    round1Packages.foldlM addConstantCommitment aggregate =
      .ok (aggregate + constantSum round1Packages) := by
  induction round1Packages generalizing aggregate with
  | nil => simp [constantSum, pure, Except.pure]
  | cons package rest ih =>
    rw [List.forall_mem_cons] at h
    have hstep : addConstantCommitment aggregate package =
        .ok (aggregate + package.commitment 0) := by
      obtain ⟨C, rfl, hne, hbytes⟩ := h.1
      rw [HtssDkgRound1Package.commitment_of_bytes hne hbytes, addConstantCommitment, hbytes]
      cases C with
      | nil => simp at hpos
      | cons P rest =>
        have hP := htssDkgCommitmentPoint_eq_ok.mpr ⟨hne P List.mem_cons_self, rfl⟩
        simp [okOr, hP]
    rw [List.foldlM_cons, hstep, ok_bind, ih h.2, add_assoc]
    simp [constantSum]

theorem htssDkgGroupXonlyPublicKey_eq_ok {threshold : ℕ} (hpos : 0 < threshold)
    {round1Packages : List HtssDkgRound1Package}
    (h : ∀ package ∈ round1Packages, package.Committed threshold) {key : Bytes 32 × Bool} :
    htssDkgGroupXonlyPublicKey round1Packages = .ok key ↔ constantSum round1Packages ≠ 0 ∧
      key = (pointToXonlyBytes (constantSum round1Packages), isOddY (constantSum round1Packages)) := by
  rw [htssDkgGroupXonlyPublicKey, foldlM_addConstantCommitment hpos h, ok_bind, zero_add]
  split_ifs with hzero
  · simp [hzero]
  · simp only [Except.ok.injEq, ne_eq, hzero, not_false_eq_true, true_and,
      pointToXonlyBytes_intoPointWithEvenY, intoPointWithEvenY_snd]
    exact eq_comm

theorem foldlM_addContribution_eq_ok {config : HierarchicalThresholdConfig}
    {recipient : RankedParticipant} {round1Packages : List HtssDkgRound1Package}
    (hround1 : Round1Valid config round1Packages)
    (hnd : (round1Packages.map HtssDkgRound1Package.participantId).Nodup)
    {round2Packages : List HtssDkgRound2Package}
    (hsenders : ∀ package ∈ round2Packages,
      package.sender ∈ round1Packages.map HtssDkgRound1Package.participantId)
    (hrec : ∀ package ∈ round2Packages,
      package.recipient = recipient.id ∧ package.recipientRank = recipient.rank)
    {start value : Scalar} :
    round2Packages.foldlM (addContribution round1Packages) start = .ok value ↔
      (∀ package ∈ round2Packages, ∀ round1 ∈ round1Packages,
        round1.participantId = package.sender → ∃ s,
          scalarFromBytes package.shareValueBytes = some s ∧
            s • generator = round1.promised config.threshold.toNat recipient) ∧
      value = start + (round2Packages.map HtssDkgRound2Package.shareScalar).sum := by
  have hthreshold : config.threshold.toNat ≤ 65535 := by
    have := config.threshold.toNat_lt
    omega
  induction round2Packages generalizing start with
  | nil => simp [pure, Except.pure, eq_comm]
  | cons package rest ih =>
    rw [List.forall_mem_cons] at hsenders hrec
    obtain ⟨round1, hmem, hid⟩ := List.mem_map.mp hsenders.1
    have hlookup : round1BySender round1Packages package.sender = some round1 :=
      (lastWith_eq_some hnd).mpr ⟨hmem, hid⟩
    have hverify : ∀ {u}, verifyHtssDkgDerivativeShare package round1 = .ok u ↔ _ :=
      verifyHtssDkgDerivativeShare_eq_ok (hround1.committed round1 hmem) hthreshold hrec.1.1 hrec.1.2
    have honly : (∀ r ∈ round1Packages, r.participantId = package.sender → ∃ s,
        scalarFromBytes package.shareValueBytes = some s ∧
          s • generator = r.promised config.threshold.toNat recipient) ↔
        ∃ s, scalarFromBytes package.shareValueBytes = some s ∧
          s • generator = round1.promised config.threshold.toNat recipient := by
      constructor
      · exact fun h => h round1 hmem hid
      · intro h r hr hrid
        rwa [List.inj_on_of_nodup_map hnd hr hmem (hrid.trans hid.symm)]
    rw [List.foldlM_cons, List.forall_mem_cons, honly, bind_eq_ok]
    simp only [addContribution, bind_eq_ok, okOr_eq_ok, hlookup, Option.some.injEq, exists_eq_left',
      hverify, Except.ok.injEq, ih hsenders.2 hrec.2, List.map_cons, List.sum_cons]
    constructor
    · rintro ⟨_, ⟨_, ⟨-, hopen⟩, s, hs, rfl⟩, hrest, hvalue⟩
      refine ⟨⟨hopen, hrest⟩, ?_⟩
      rw [hvalue, HtssDkgRound2Package.shareScalar, hs, Option.getD_some, add_assoc]
    · rintro ⟨⟨⟨s, hs, hopen⟩, hrest⟩, hvalue⟩
      refine ⟨_, ⟨(), ⟨hid.symm, s, hs, hopen⟩, s, hs, rfl⟩, hrest, ?_⟩
      rw [hvalue, HtssDkgRound2Package.shareScalar, hs, Option.getD_some, add_assoc]

theorem sum_promised (round1Packages : List HtssDkgRound1Package) (threshold : ℕ)
    (recipient : RankedParticipant) :
    (round1Packages.map fun round1 => round1.promised threshold recipient).sum =
      ∑ k ∈ Finset.range threshold, basis k recipient.rank.toNat (recipient.id.toNat : Scalar) •
        (round1Packages.map fun round1 => round1.commitment k).sum := by
  induction round1Packages with
  | nil => simp
  | cons round1 rest ih =>
    rw [List.map_cons, List.sum_cons, ih, HtssDkgRound1Package.promised, ← Finset.sum_add_distrib]
    simp only [List.map_cons, List.sum_cons, smul_add]

theorem sum_shareScalar_smul {config : HierarchicalThresholdConfig} {recipient : RankedParticipant}
    {round1Packages : List HtssDkgRound1Package} {round2Packages : List HtssDkgRound2Package}
    (hnd : (round1Packages.map HtssDkgRound1Package.participantId).Nodup)
    (hround1 : Round1Valid config round1Packages)
    (hround2 : Round2Valid config recipient round1Packages round2Packages) :
    (round2Packages.map HtssDkgRound2Package.shareScalar).sum • generator =
      ∑ k ∈ Finset.range config.threshold.toNat,
        basis k recipient.rank.toNat (recipient.id.toNat : Scalar) •
          (round1Packages.map fun round1 => round1.commitment k).sum := by
  have hperm := hround2.senders.trans hround1.senders.symm
  let promise (sender : ParticipantId) : Point := ((round1BySender round1Packages sender).map
    fun round1 => round1.promised config.threshold.toNat recipient).getD 0
  have hpromise : ∀ round1 ∈ round1Packages, promise round1.participantId =
      round1.promised config.threshold.toNat recipient := by
    intro round1 hmem
    have hlookup : round1BySender round1Packages round1.participantId = some round1 :=
      (lastWith_eq_some hnd).mpr ⟨hmem, rfl⟩
    simp [promise, hlookup]
  have hopen : ∀ package ∈ round2Packages,
      package.shareScalar • generator = promise package.sender := by
    intro package hp
    obtain ⟨round1, hmem, hid⟩ := List.mem_map.mp (hperm.mem_iff.mp (List.mem_map_of_mem hp))
    obtain ⟨s, hs, hpoint⟩ := hround2.opens package hp round1 hmem hid
    rw [HtssDkgRound2Package.shareScalar, hs, Option.getD_some, hpoint, ← hid, hpromise round1 hmem]
  rw [← sum_promised]
  calc (round2Packages.map HtssDkgRound2Package.shareScalar).sum • generator
      = (round2Packages.map fun package => package.shareScalar • generator).sum := by
        rw [List.sum_smul, List.map_map]
        rfl
    _ = ((round2Packages.map HtssDkgRound2Package.sender).map promise).sum := by
        rw [List.map_map]
        exact congrArg List.sum (List.map_congr_left hopen)
    _ = ((round1Packages.map HtssDkgRound1Package.participantId).map promise).sum :=
        (hperm.map promise).sum_eq
    _ = _ := by
        rw [List.map_map]
        exact congrArg List.sum (List.map_congr_left hpromise)

theorem contributions_of_valid {config : HierarchicalThresholdConfig} (hc : config.Accepted)
    {recipient : RankedParticipant} {round1Packages : List HtssDkgRound1Package}
    {round2Packages : List HtssDkgRound2Package} (hround1 : Round1Valid config round1Packages)
    (hround2 : Round2Valid config recipient round1Packages round2Packages) :
    round2Packages.foldlM (addContribution round1Packages) 0 =
      .ok (0 + (round2Packages.map HtssDkgRound2Package.shareScalar).sum) := by
  have hnd := hround1.senders.nodup_iff.mpr hc.distinct
  have hperm := hround2.senders.trans hround1.senders.symm
  exact (foldlM_addContribution_eq_ok hround1 hnd
    (fun package hp => hperm.mem_iff.mp (List.mem_map_of_mem hp)) hround2.recipients).mpr
      ⟨hround2.opens, rfl⟩

theorem finalizeHtssDkg_eq_ok {config : HierarchicalThresholdConfig} (hc : config.Accepted)
    {recipient : RankedParticipant} (hr : recipient ∈ config.participants)
    {round1Packages : List HtssDkgRound1Package} {round2Packages : List HtssDkgRound2Package}
    {result : GroupKey × HtssLocalKeyShare} :
    finalizeHtssDkg recipient.id round1Packages round2Packages config = .ok result ↔
      Round1Valid config round1Packages ∧
      Round2Valid config recipient round1Packages round2Packages ∧
      constantSum round1Packages ≠ 0 ∧
      result = (⟨pointToXonlyBytes (constantSum round1Packages), []⟩, ⟨recipient.id, recipient.rank,
        scalarToBytes (conditionalNegate (isOddY (constantSum round1Packages))
          (round2Packages.map HtssDkgRound2Package.shareScalar).sum)⟩) := by
  have hnegate : ∀ (b : Bool) (v : Scalar), (if b then 0 - v else v) = conditionalNegate b v := by
    simp [conditionalNegate]
  simp only [finalizeHtssDkg, hc.rankOf_of_mem hr, okOr, ok_bind, bind_eq_ok,
    validateHtssDkgRound1Set_eq_ok hc, validateHtssDkgRound2Set_eq_ok hc hr, hnegate]
  constructor
  · rintro ⟨_, hround1, _, ⟨hsenders, hrec⟩, value, hvalue, key, hkey, hresult⟩
    have hnd := hround1.senders.nodup_iff.mpr hc.distinct
    have hperm := hsenders.trans hround1.senders.symm
    obtain ⟨hopens, rfl⟩ := (foldlM_addContribution_eq_ok hround1 hnd
      (fun package hp => hperm.mem_iff.mp (List.mem_map_of_mem hp)) hrec).mp hvalue
    obtain ⟨hzero, rfl⟩ := (htssDkgGroupXonlyPublicKey_eq_ok hc.threshold_pos hround1.committed).mp hkey
    rw [zero_add, Except.ok.injEq] at hresult
    exact ⟨hround1, ⟨hsenders, hrec, hopens⟩, hzero, hresult.symm⟩
  · rintro ⟨hround1, hround2, hzero, rfl⟩
    have hkey := (htssDkgGroupXonlyPublicKey_eq_ok hc.threshold_pos hround1.committed).mpr ⟨hzero, rfl⟩
    exact ⟨(), hround1, (), ⟨hround2.senders, hround2.recipients⟩, _,
      contributions_of_valid hc hround1 hround2, _, hkey, by rw [zero_add]⟩

theorem finalizeHtssDkg_of_sum_eq_zero {config : HierarchicalThresholdConfig} (hc : config.Accepted)
    {recipient : RankedParticipant} (hr : recipient ∈ config.participants)
    {round1Packages : List HtssDkgRound1Package} {round2Packages : List HtssDkgRound2Package}
    (hround1 : Round1Valid config round1Packages)
    (hround2 : Round2Valid config recipient round1Packages round2Packages)
    (hzero : constantSum round1Packages = 0) :
    finalizeHtssDkg recipient.id round1Packages round2Packages config =
      fail (.protocol "HTSS DKG group key cannot be zero") := by
  have hset1 : validateHtssDkgRound1Set round1Packages config = .ok () :=
    (validateHtssDkgRound1Set_eq_ok hc).mpr hround1
  have hset2 : validateHtssDkgRound2Set recipient.id round2Packages config = .ok () :=
    (validateHtssDkgRound2Set_eq_ok hc hr).mpr ⟨hround2.senders, hround2.recipients⟩
  have hkey : htssDkgGroupXonlyPublicKey round1Packages =
      fail (.protocol "HTSS DKG group key cannot be zero") := by
    rw [htssDkgGroupXonlyPublicKey, foldlM_addConstantCommitment hc.threshold_pos hround1.committed, ok_bind,
      zero_add, if_pos hzero]
  rw [finalizeHtssDkg, hc.rankOf_of_mem hr, okOr, ok_bind, hset1, ok_bind, hset2, ok_bind,
    contributions_of_valid hc hround1 hround2, ok_bind, hkey]
  rfl

/-- The joint polynomial of a round one: every finalization on a reordering of it
yields the even point of its value at zero and one of its derivative shares. -/
theorem exists_jointPolynomial {config : HierarchicalThresholdConfig} (hc : config.Accepted)
    (round1Packages : List HtssDkgRound1Package) :
    ∃ F : Scalar[X], F.degree < config.threshold.toNat ∧
      ∀ round1Packages' : List HtssDkgRound1Package, round1Packages'.Perm round1Packages →
      ∀ recipient ∈ config.participants, ∀ round2Packages result,
        finalizeHtssDkg recipient.id round1Packages' round2Packages config = .ok result →
          F.eval 0 ≠ 0 ∧ isOddY (F.eval 0 • generator) = false ∧
          result = (⟨pointToXonlyBytes (F.eval 0 • generator), []⟩, derivativeShare F recipient) := by
  choose log hlog using fun k : ℕ => exists_smul_generator
    (round1Packages.map fun round1 => round1.commitment k).sum
  let odd := isOddY (constantSum round1Packages)
  let F : Scalar[X] := ofVector fun k : Fin config.threshold.toNat => conditionalNegate odd (log k)
  have hsmul : ∀ s : Scalar, conditionalNegate odd s • generator =
      conditionalNegate odd 1 • (s • generator) := fun s => by
    rw [smul_smul]
    cases hodd : odd <;> simp [conditionalNegate]
  -- a derivative of `F` opens the joint commitments, up to the common sign
  have hderiv : ∀ recipient : RankedParticipant,
      (derivative^[recipient.rank.toNat] F).eval (recipient.id.toNat : Scalar) • generator =
        conditionalNegate odd 1 • ∑ k ∈ Finset.range config.threshold.toNat,
          basis k recipient.rank.toNat (recipient.id.toNat : Scalar) •
            (round1Packages.map fun round1 => round1.commitment k).sum := by
    intro recipient
    rw [eval_iterate_derivative_ofVector, Finset.sum_smul, Finset.smul_sum, Finset.sum_range]
    refine Finset.sum_congr rfl fun k _ => ?_
    rw [mul_comm, ← smul_smul, hsmul, hlog, smul_comm]
  have hzero : F.eval 0 • generator = (intoPointWithEvenY (constantSum round1Packages)).1 := by
    have hcoeff := coeff_ofVector (fun k : Fin config.threshold.toNat => conditionalNegate odd (log k))
      ⟨0, hc.threshold_pos⟩
    have hlog0 : log 0 • generator = constantSum round1Packages := hlog 0
    rw [← coeff_zero_eq_eval_zero, hcoeff, ← hlog0, ← conditionalNegate_smul_generator, hlog0]
  refine ⟨F, degree_ofVector_lt _, fun round1Packages' hperm recipient hr round2Packages result h => ?_⟩
  have hsum : ∀ k, (round1Packages'.map fun round1 => round1.commitment k).sum =
      (round1Packages.map fun round1 => round1.commitment k).sum := fun k => (hperm.map _).sum_eq
  have hconst : constantSum round1Packages' = constantSum round1Packages := hsum 0
  obtain ⟨hround1, hround2, hne, rfl⟩ := (finalizeHtssDkg_eq_ok hc hr).mp h
  rw [hconst] at hne ⊢
  have hshare : conditionalNegate odd (round2Packages.map HtssDkgRound2Package.shareScalar).sum =
      (derivative^[recipient.rank.toNat] F).eval (recipient.id.toNat : Scalar) := by
    apply smul_generator_injective
    have hnd := hround1.senders.nodup_iff.mpr hc.distinct
    simp only [hsmul, hderiv, sum_shareScalar_smul hnd hround1 hround2, hsum]
  refine ⟨fun h0 => ?_, ?_, ?_⟩
  · exact intoPointWithEvenY_ne_zero hne (hzero.symm.trans (smul_generator_eq_zero.mpr h0))
  · rw [hzero]
    exact isOddY_intoPointWithEvenY hne
  · rw [hzero, pointToXonlyBytes_intoPointWithEvenY, hshare, derivativeShare]

/-- Finalization accepts exactly the package sets that open their commitments, with the
joint key and share as the only result; on one round one all results belong to one polynomial. -/
theorem finalizeHtssDkg_sound {threshold : UInt16} {participants : List RankedParticipant}
    {config : HierarchicalThresholdConfig}
    (hnew : HierarchicalThresholdConfig.new threshold participants = .ok config)
    {recipient : RankedParticipant} (hr : recipient ∈ config.participants)
    (round1Packages : List HtssDkgRound1Package) :
    (∀ round2Packages groupKey share,
      finalizeHtssDkg recipient.id round1Packages round2Packages config = .ok (groupKey, share) ↔
        Round1Valid config round1Packages ∧
        Round2Valid config recipient round1Packages round2Packages ∧
        constantSum round1Packages ≠ 0 ∧
        groupKey = ⟨pointToXonlyBytes (constantSum round1Packages), []⟩ ∧
        ∃ v, share = ⟨recipient.id, recipient.rank, scalarToBytes v⟩ ∧
          v • generator = (if isOddY (constantSum round1Packages) then (-1 : Scalar) else 1) •
            ∑ k ∈ Finset.range config.threshold.toNat,
              basis k recipient.rank.toNat (recipient.id.toNat : Scalar) •
                (round1Packages.map fun round1 => round1.commitment k).sum) ∧
    ∃ F : Scalar[X], F.degree < config.threshold.toNat ∧
      ∀ round1Packages' : List HtssDkgRound1Package, round1Packages'.Perm round1Packages →
      ∀ member ∈ config.participants, ∀ round2Packages groupKey share,
        finalizeHtssDkg member.id round1Packages' round2Packages config = .ok (groupKey, share) →
          isOddY (F.eval 0 • generator) = false ∧
          groupKey = ⟨pointToXonlyBytes (F.eval 0 • generator), []⟩ ∧
          share = derivativeShare F member := by
  have hc := HierarchicalThresholdConfig.accepted_of_new hnew
  constructor
  · intro round2Packages groupKey share
    rw [finalizeHtssDkg_eq_ok hc hr, Prod.mk.injEq]
    refine and_congr_right fun hround1 => and_congr_right fun hround2 => and_congr_right fun _ =>
      and_congr_right fun _ => ?_
    have hsum := sum_shareScalar_smul (hround1.senders.nodup_iff.mpr hc.distinct) hround1 hround2
    have hvalue : conditionalNegate (isOddY (constantSum round1Packages))
        (round2Packages.map HtssDkgRound2Package.shareScalar).sum • generator =
          (if isOddY (constantSum round1Packages) then (-1 : Scalar) else 1) •
            ∑ k ∈ Finset.range config.threshold.toNat,
              basis k recipient.rank.toNat (recipient.id.toNat : Scalar) •
                (round1Packages.map fun round1 => round1.commitment k).sum := by
      rw [conditionalNegate_eq_mul, mul_smul, hsum]
      rfl
    constructor
    · rintro rfl
      exact ⟨_, rfl, hvalue⟩
    · rintro ⟨v, rfl, hv⟩
      rw [smul_generator_injective (hv.trans hvalue.symm)]
  · obtain ⟨F, hdeg, hF⟩ := exists_jointPolynomial hc round1Packages
    refine ⟨F, hdeg, fun round1Packages' hperm member hm round2Packages groupKey share h => ?_⟩
    obtain ⟨-, heven, hresult⟩ := hF round1Packages' hperm member hm round2Packages _ h
    exact ⟨heven, (Prod.mk.inj hresult).1, (Prod.mk.inj hresult).2⟩

def pairRound1 : List HtssDkgRound1Package :=
  [⟨1, 0, [generator, generator].map fun P => (pointToBytes P).toList⟩,
    ⟨2, 1, [generator, generator].map fun P => (pointToBytes P).toList⟩]

def pairRound2 : List HtssDkgRound2Package :=
  [⟨2, 1, 0, scalarToBytes 2⟩, ⟨1, 1, 0, scalarToBytes 2⟩]

theorem generators_ne_zero : ∀ P ∈ [generator, generator], P ≠ 0 := by
  simpa using generator_ne_zero

theorem pairRound1_bytes : ∀ package ∈ pairRound1, package.commitmentBytes =
    [generator, generator].map fun P => (pointToBytes P).toList := by
  simp [pairRound1]

theorem pairRound1_commitment {package : HtssDkgRound1Package} (h : package ∈ pairRound1) (k : ℕ) :
    package.commitment k = [generator, generator].getD k 0 :=
  HtssDkgRound1Package.commitment_of_bytes generators_ne_zero (pairRound1_bytes package h) k

theorem pairRound1_valid : Round1Valid pairConfig pairRound1 where
  senders := List.Perm.refl _
  ranks := by simp [pairRound1, pairConfig, HierarchicalThresholdConfig.rankOf, findRank]
  committed := fun package h =>
    ⟨[generator, generator], rfl, generators_ne_zero, pairRound1_bytes package h⟩

theorem pairRound2_valid : Round2Valid pairConfig ⟨1, 0, none⟩ pairRound1 pairRound2 where
  senders := List.Perm.swap 1 2 []
  recipients := by simp [pairRound2]
  opens := by
    intro package hp round1 hr1 _
    have hshare : package.shareValueBytes = scalarToBytes 2 := by
      simp only [pairRound2, List.mem_cons, List.not_mem_nil, or_false] at hp
      rcases hp with rfl | rfl <;> rfl
    refine ⟨2, by rw [hshare, scalarFromBytes_toBytes], ?_⟩
    simp [HtssDkgRound1Package.promised, pairConfig, pairRound1_commitment hr1,
      Finset.sum_range_succ, basis, two_smul]

theorem constantSum_pairRound1 : constantSum pairRound1 ≠ 0 := by
  have hsum : constantSum pairRound1 = ((2 : ℕ) : Scalar) • generator := by
    rw [constantSum, List.map_congr_left fun package hp => pairRound1_commitment hp 0]
    simp [pairRound1, two_smul]
  rw [hsum, Ne, smul_generator_eq_zero]
  exact scalar_natCast_ne_zero (by decide) (by decide)

theorem finalizeHtssDkg_sound_pair :
    ∃ groupKey share, finalizeHtssDkg 1 pairRound1 pairRound2 pairConfig = .ok (groupKey, share) := by
  obtain ⟨v, hv⟩ := exists_smul_generator ((if isOddY (constantSum pairRound1) then (-1 : Scalar)
    else 1) • ∑ k ∈ Finset.range pairConfig.threshold.toNat, basis k 0 ((1 : ℕ) : Scalar) •
      (pairRound1.map fun round1 => round1.commitment k).sum)
  exact ⟨_, _, ((@finalizeHtssDkg_sound _ _ _ pairConfig_new ⟨1, 0, none⟩ (by decide)
    pairRound1).1 pairRound2 _ _).mpr
      ⟨pairRound1_valid, pairRound2_valid, constantSum_pairRound1, rfl, v, rfl, hv⟩⟩

end Finalization

section Ceremony

theorem foldlM_finalizeParticipant {config : HierarchicalThresholdConfig} {F : Scalar[X]}
    {round1Packages : List HtssDkgRound1Package} {round2Packages : List HtssDkgRound2Package}
    {participants : List RankedParticipant}
    (hF : ∀ participant ∈ participants, ∀ round2 result,
      finalizeHtssDkg participant.id round1Packages round2 config = .ok result →
        result = (⟨pointToXonlyBytes (F.eval 0 • generator), []⟩, derivativeShare F participant))
    {state state' : Option GroupKey × List HtssLocalKeyShare}
    (hstate : state.1 = none ∨ state.1 = some ⟨pointToXonlyBytes (F.eval 0 • generator), []⟩)
    (h : participants.foldlM (finalizeParticipant round1Packages round2Packages config) state =
      .ok state') :
    (state'.1 = none ∨ state'.1 = some ⟨pointToXonlyBytes (F.eval 0 • generator), []⟩) ∧
      state'.2 = state.2 ++ participants.map (derivativeShare F) := by
  induction participants generalizing state with
  | nil =>
    obtain rfl : state = state' := by simpa [pure, Except.pure] using h
    exact ⟨hstate, by simp⟩
  | cons participant rest ih =>
    rw [List.forall_mem_cons] at hF
    rw [List.foldlM_cons] at h
    obtain ⟨next, hstep, h⟩ := bind_eq_ok.mp h
    obtain ⟨result, hfinal, hstep⟩ := bind_eq_ok.mp hstep
    obtain rfl := hF.1 _ _ hfinal
    have hnext : next = (some ⟨pointToXonlyBytes (F.eval 0 • generator), []⟩,
        state.2 ++ [derivativeShare F participant]) := by
      rcases hstate with hnone | hsome
      · rw [hnone] at hstep
        exact (Except.ok.inj hstep).symm
      · rw [hsome] at hstep
        simpa [eq_comm] using hstep
    obtain ⟨hkey, hshares⟩ := ih hF.2 (by rw [hnext]; exact .inr rfl) h
    refine ⟨hkey, ?_⟩
    rw [hshares, hnext, List.map_cons, List.append_assoc]
    rfl

theorem dealt_of_runDistributedHtssKeygen {config : HierarchicalThresholdConfig}
    (hc : config.Accepted) {rng : ParticipantId → ℕ → NonZeroScalar} {keySet : HtssLocalKeySet}
    (h : runDistributedHtssKeygen config rng = .ok keySet) :
    ∃ F : Scalar[X], keySet.Dealt config F := by
  obtain ⟨states, -, h⟩ := bind_eq_ok.mp h
  obtain ⟨round2Packages, -, h⟩ := bind_eq_ok.mp h
  obtain ⟨⟨groupKey, shares⟩, hloop, h⟩ := bind_eq_ok.mp h
  obtain ⟨key, hkey, h⟩ := bind_eq_ok.mp h
  obtain ⟨F, hdeg, hF⟩ := exists_jointPolynomial hc (states.map HtssDkgRound1State.package)
  obtain ⟨hstate, hshares⟩ := foldlM_finalizeParticipant
    (fun participant hp round2 result hfinal =>
      (hF _ (List.Perm.refl _) participant hp round2 result hfinal).2.2) (.inl rfl) hloop
  -- the roster is not empty, so that somebody finalized
  obtain ⟨participant, rest, hparticipants⟩ : ∃ p rest, config.participants = p :: rest := by
    have hpos := hc.threshold_pos
    have hle := hc.threshold_le
    cases hlist : config.participants with
    | nil => simp only [hlist, List.length_nil] at hle; omega
    | cons p rest => exact ⟨p, rest, rfl⟩
  rw [hparticipants, List.foldlM_cons] at hloop
  obtain ⟨_, hstep, -⟩ := bind_eq_ok.mp hloop
  obtain ⟨result, hfinal, -⟩ := bind_eq_ok.mp hstep
  obtain ⟨hne, heven, -⟩ := hF _ (List.Perm.refl _) participant (by simp [hparticipants]) _ _ hfinal
  rw [okOr_eq_ok] at hkey
  obtain rfl : key = ⟨pointToXonlyBytes (F.eval 0 • generator), []⟩ := by
    simp only [hkey, reduceCtorEq, false_or, Option.some.injEq] at hstate
    exact hstate
  obtain rfl := Except.ok.inj h
  have hdealt : shares = config.participants.map (derivativeShare F) := by simpa using hshares
  exact ⟨F, ⟨hdeg, hne, heven, rfl, List.Perm.of_eq hdealt⟩, hdealt⟩

end Ceremony

end DkgKit
