import DkgKit.Core
import DkgKit.ListCounting

/-! Validation of signer sets against the plain, the hierarchical and the grouped
threshold policy. Each validator gets one lemma that says which lists it accepts. -/

open LoopRules

namespace DkgKit

section Plain

def checkInRange (participants : UInt16) (signer : ParticipantId) : Result Unit :=
  if signer > participants then fail (.participantOutOfRange signer participants) else .ok ()

def validateSignerSet (signers : List ParticipantId) (threshold : ThresholdConfig) : Result Unit := do
  if signers.length < threshold.threshold.toNat then
    fail (.protocol s!"not enough signers: have {signers.length}, need {threshold.threshold}")
  else
    let _ ← distinctLoop (fun signer => signer) (fun signer => .err (.duplicateParticipantId signer))
      (checkInRange threshold.participants) (fun _ => .ok ()) signers ∅
    .ok ()

theorem validateSignerSet_eq_ok {signers : List ParticipantId} {threshold : ThresholdConfig}
    {u : Unit} : validateSignerSet signers threshold = .ok u ↔
      threshold.threshold.toNat ≤ signers.length ∧ (∀ s ∈ signers, s ≤ threshold.participants) ∧
        signers.Nodup := by
  have hrange : ∀ s, checkInRange threshold.participants s = .ok () ↔ s ≤ threshold.participants :=
    fun s => check_eq_ok.trans UInt16.not_lt
  rw [validateSignerSet]
  split_ifs with h
  · simp only [fail_ne_ok, false_iff]
    omega
  · simp [bind_eq_ok, distinctLoop_empty_eq_ok, hrange, not_lt.mp h]

theorem validateSignerSet_isErr (signers : List ParticipantId) (threshold : ThresholdConfig) :
    FaultsIn Fault.IsErr (validateSignerSet signers threshold) := by
  simp only [validateSignerSet, faultsIn_ite, faultsIn_bind]
  refine ⟨fun _ => faultsIn_fail.mpr trivial, fun _ => ⟨?_, fun _ _ => faultsIn_ok _⟩⟩
  refine faultsIn_distinctLoop (fun _ _ => trivial) (fun signer _ => ?_) (fun _ _ => faultsIn_ok _) ∅
  rw [checkInRange, faultsIn_ite]
  exact ⟨fun _ => faultsIn_fail.mpr trivial, fun _ => faultsIn_ok _⟩

end Plain

section Hierarchical

def signerRanks (rankOf : ParticipantId → Option Rank) (signers : List ParticipantId) :
    Result (List UInt16) :=
  collectResults (fun signer => okOr (.missingRankedParticipant signer) (rankOf signer)) signers

def sortRanks (ranks : List UInt16) : List UInt16 :=
  ranks.insertionSort fun a b => a.toNat ≤ b.toNat

def checkRankRule : List UInt16 → ℕ → Result Unit
  | [], _ => .ok ()
  | rank :: rest, index =>
    if rank.toNat > index then
      fail (.protocol s!"hierarchical signer set violates Birkhoff rank rule at position {index}: rank {rank} > {index}")
    else checkRankRule rest (index + 1)

def validateHierarchicalSignerSet (signers : List ParticipantId)
    (config : HierarchicalThresholdConfig) : Result Unit := do
  let threshold ← config.thresholdConfig
  validateSignerSet signers threshold
  let ranks ← signerRanks config.rankOf signers
  checkRankRule ((sortRanks ranks).take config.threshold.toNat) 0

theorem signerRanks_eq_ok {rankOf : ParticipantId → Option Rank} {signers : List ParticipantId}
    {ranks : List UInt16} : signerRanks rankOf signers = .ok ranks ↔
      (∀ s ∈ signers, (rankOf s).isSome) ∧ ranks = signers.map fun s => (rankOf s).getD 0 := by
  rw [signerRanks, collectResults_eq_ok]
  simp only [okOr_eq_ok]
  constructor
  · intro h
    induction h with
    | nil => simp
    | cons hs _ ih =>
      rw [List.forall_mem_cons, List.map_cons, hs, ← ih.2]
      exact ⟨⟨rfl, ih.1⟩, rfl⟩
  · rintro ⟨hsome, rfl⟩
    rw [List.forall₂_map_right_iff, List.forall₂_same]
    intro s hs
    obtain ⟨rank, hrank⟩ := Option.isSome_iff_exists.mp (hsome s hs)
    simp [hrank]

theorem checkRankRule_eq_ok {ranks : List UInt16} {index : ℕ} {u : Unit} :
    checkRankRule ranks index = .ok u ↔
      ∀ i, ∀ hi : i < ranks.length, ranks[i].toNat ≤ index + i := by
  induction ranks generalizing index with
  | nil => simp [checkRankRule]
  | cons rank rest ih =>
    rw [checkRankRule]
    split_ifs with h
    · simp only [fail_ne_ok, false_iff]
      intro hall
      have h0 := hall 0 (by simp)
      simp only [List.getElem_cons_zero] at h0
      omega
    · rw [ih]
      constructor
      · intro hall i hi
        cases i with
        | zero => simpa using not_lt.mp h
        | succ i =>
          have hstep := hall i (by simpa using hi)
          simp only [List.getElem_cons_succ]
          omega
      · intro hall i hi
        have hstep := hall (i + 1) (by simpa using hi)
        simp only [List.getElem_cons_succ] at hstep
        omega

namespace HierarchicalThresholdConfig

def rankAtMost (config : HierarchicalThresholdConfig) (bound : ℕ) (signer : ParticipantId) : Bool :=
  (config.rankOf signer).any fun rank => rank.toNat ≤ bound

/-- The signer sets of the hierarchical policy. -/
structure SignerSet (config : HierarchicalThresholdConfig) (signers : List ParticipantId) : Prop where
  enough : config.threshold.toNat ≤ signers.length
  in_range : ∀ s ∈ signers, s.toNat ≤ config.participants.length
  distinct : signers.Nodup
  members : ∀ s ∈ signers, (config.rankOf s).isSome
  rank_rule : ∀ i < config.threshold.toNat, i < signers.countP (config.rankAtMost i)

theorem SignerSet.length_le {config : HierarchicalThresholdConfig} {signers : List ParticipantId}
    (h : config.SignerSet signers) : signers.length ≤ config.participants.length :=
  length_le_of_findRank h.distinct h.members

theorem SignerSet.perm {config : HierarchicalThresholdConfig} {signers signers' : List ParticipantId}
    (h : config.SignerSet signers) (hperm : signers.Perm signers') : config.SignerSet signers' where
  enough := hperm.length_eq ▸ h.enough
  in_range := fun s hs => h.in_range s (hperm.mem_iff.mpr hs)
  distinct := hperm.nodup_iff.mp h.distinct
  members := fun s hs => h.members s (hperm.mem_iff.mpr hs)
  rank_rule := fun i hi => hperm.countP_eq _ ▸ h.rank_rule i hi

section Monotone

variable {config : HierarchicalThresholdConfig} {rest : List ParticipantId} {p old new : RankedParticipant}

theorem rankAtMost_of_mem (hc : config.Accepted) (hp : p ∈ config.participants) (i : ℕ) :
    config.rankAtMost i p.id = decide (p.rank.toNat ≤ i) := by
  rw [rankAtMost, hc.rankOf_of_mem hp, Option.any_some]

theorem SignerSet.add (hc : config.Accepted) (h : config.SignerSet rest) (hp : p ∈ config.participants)
    (hrange : p.id.toNat ≤ config.participants.length) (habsent : p.id ∉ rest) :
    config.SignerSet (p.id :: rest) where
  enough := h.enough.trans (Nat.le_succ _)
  in_range := List.forall_mem_cons.mpr ⟨hrange, h.in_range⟩
  distinct := List.nodup_cons.mpr ⟨habsent, h.distinct⟩
  members := List.forall_mem_cons.mpr ⟨by rw [hc.rankOf_of_mem hp, Option.isSome_some], h.members⟩
  rank_rule := fun i hi => by
    have hrest := h.rank_rule i hi
    rw [List.countP_cons]
    omega

/-- A more senior signer counts wherever the one it replaces did. -/
theorem SignerSet.replace (hc : config.Accepted) (h : config.SignerSet (old.id :: rest))
    (hold : old ∈ config.participants) (hp : new ∈ config.participants)
    (hrange : new.id.toNat ≤ config.participants.length) (habsent : new.id ∉ rest)
    (hrank : new.rank.toNat ≤ old.rank.toNat) : config.SignerSet (new.id :: rest) where
  enough := h.enough
  in_range := List.forall_mem_cons.mpr ⟨hrange, (List.forall_mem_cons.mp h.in_range).2⟩
  distinct := List.nodup_cons.mpr ⟨habsent, (List.nodup_cons.mp h.distinct).2⟩
  members := List.forall_mem_cons.mpr
    ⟨by rw [hc.rankOf_of_mem hp, Option.isSome_some], (List.forall_mem_cons.mp h.members).2⟩
  rank_rule := fun i hi => by
    have hcount := h.rank_rule i hi
    simp only [List.countP_cons, rankAtMost_of_mem hc hold, rankAtMost_of_mem hc hp,
      decide_eq_true_eq] at hcount ⊢
    split_ifs at hcount ⊢ <;> omega

end Monotone

end HierarchicalThresholdConfig

theorem countP_rankAtMost {config : HierarchicalThresholdConfig} {signers : List ParticipantId}
    (hmem : ∀ s ∈ signers, (config.rankOf s).isSome) (i : ℕ) :
    (signers.map fun s => (config.rankOf s).getD 0).countP (fun r => r.toNat ≤ i) =
      signers.countP (config.rankAtMost i) := by
  rw [List.countP_map]
  refine List.countP_congr fun s hs => ?_
  obtain ⟨rank, hrank⟩ := Option.isSome_iff_exists.mp (hmem s hs)
  simp [HierarchicalThresholdConfig.rankAtMost, hrank]

theorem validateHierarchicalSignerSet_eq_ok {config : HierarchicalThresholdConfig}
    (hc : config.Accepted) {signers : List ParticipantId} {u : Unit} :
    validateHierarchicalSignerSet signers config = .ok u ↔ config.SignerSet signers := by
  have hrange : (∀ s ∈ signers, s ≤ config.participantCount) ↔
      ∀ s ∈ signers, s.toNat ≤ config.participants.length := by
    simp only [UInt16.le_iff_toNat_le, hc.participantCount_toNat]
  -- the rule on the sorted ranks, position by position, is the counting rule
  have hrule : ∀ (_ : config.threshold.toNat ≤ signers.length)
      (_ : ∀ s ∈ signers, (config.rankOf s).isSome),
      checkRankRule ((sortRanks (signers.map fun s => (config.rankOf s).getD 0)).take
        config.threshold.toNat) 0 = .ok u ↔
        ∀ i < config.threshold.toNat, i < signers.countP (config.rankAtMost i) := by
    intro hen hmem
    rw [checkRankRule_eq_ok]
    simp only [List.getElem_take, zero_add, sortRanks, ListCounting.getElem_insertionSort_le_iff,
      countP_rankAtMost hmem, List.length_take, List.length_insertionSort, List.length_map,
      lt_min_iff]
    exact ⟨fun h i hi => h i ⟨hi, by omega⟩, fun h i hi => h i hi.1⟩
  rw [validateHierarchicalSignerSet, hc.thresholdConfig_eq]
  simp only [ok_bind, bind_eq_ok, validateSignerSet_eq_ok, signerRanks_eq_ok, hrange]
  constructor
  · rintro ⟨_, ⟨hen, hin, hnd⟩, _, ⟨hmem, rfl⟩, hr⟩
    exact ⟨hen, hin, hnd, hmem, (hrule hen hmem).mp hr⟩
  · intro h
    exact ⟨(), ⟨h.enough, h.in_range, h.distinct⟩, _, ⟨h.members, rfl⟩,
      (hrule h.enough h.members).mpr h.rank_rule⟩

/-- The rank rule is a monotone access structure: more signers, and more senior ones, are
always accepted. -/
theorem validateHierarchicalSignerSet_monotone {threshold : UInt16}
    {participants : List RankedParticipant} {config : HierarchicalThresholdConfig}
    (hnew : HierarchicalThresholdConfig.new threshold participants = .ok config) :
    (∀ signers, validateHierarchicalSignerSet signers config = .ok () ↔
      signers.Nodup ∧
      (∀ s ∈ signers, s ∈ participants.map RankedParticipant.id ∧ s.toNat ≤ participants.length) ∧
      threshold.toNat ≤ signers.length ∧
      ∀ i < threshold.toNat, i + 1 ≤ signers.countP (config.rankAtMost i)) ∧
    (∀ signers signers', signers.Perm signers' →
      (validateHierarchicalSignerSet signers config = .ok () ↔
        validateHierarchicalSignerSet signers' config = .ok ())) ∧
    (∀ before after, ∀ p ∈ participants, p.id.toNat ≤ participants.length → p.id ∉ before ++ after →
      validateHierarchicalSignerSet (before ++ after) config = .ok () →
      validateHierarchicalSignerSet (before ++ p.id :: after) config = .ok ()) ∧
    (∀ before after, ∀ old ∈ participants, ∀ new ∈ participants,
      new.id.toNat ≤ participants.length → new.id ∉ before ++ old.id :: after →
      new.rank.toNat ≤ old.rank.toNat →
      validateHierarchicalSignerSet (before ++ old.id :: after) config = .ok () →
      validateHierarchicalSignerSet (before ++ new.id :: after) config = .ok ()) := by
  have hc := HierarchicalThresholdConfig.accepted_of_new hnew
  obtain ⟨rfl, -⟩ := HierarchicalThresholdConfig.new_eq_ok.mp hnew
  simp only [validateHierarchicalSignerSet_eq_ok hc]
  refine ⟨fun signers => ?_, fun signers signers' hperm => ?_, ?_, ?_⟩
  · constructor
    · intro h
      refine ⟨h.distinct, fun s hs => ⟨?_, h.in_range s hs⟩, h.enough, h.rank_rule⟩
      exact findRank_isSome_iff.mp (h.members s hs)
    · rintro ⟨hnd, hmem, hen, hrule⟩
      exact ⟨hen, fun s hs => (hmem s hs).2, hnd, fun s hs => findRank_isSome_iff.mpr (hmem s hs).1,
        hrule⟩
  · exact ⟨fun h => h.perm hperm, fun h => h.perm hperm.symm⟩
  · intro before after p hp hrange habsent h
    exact (h.add hc hp hrange habsent).perm List.perm_middle.symm
  · intro before after old hold new hp hrange habsent hrank h
    have habsent' : new.id ∉ before ++ after := fun hmem =>
      habsent (List.perm_middle.mem_iff.mpr (List.mem_cons_of_mem _ hmem))
    exact ((h.perm List.perm_middle).replace hc hold hp hrange habsent' hrank).perm
      List.perm_middle.symm

theorem validateHierarchicalSignerSet_monotone_trio :
    validateHierarchicalSignerSet [3, 1, 2]
      ⟨2, [⟨1, 0, none⟩, ⟨2, 1, none⟩, ⟨3, 1, none⟩]⟩ = .ok () := by
  have h := @validateHierarchicalSignerSet_monotone 2
    [⟨1, 0, none⟩, ⟨2, 1, none⟩, ⟨3, 1, none⟩] _ rfl
  have hpair := (h.1 [3, 1]).mpr ⟨by decide, by simp, by decide, by decide⟩
  exact h.2.2.1 [3, 1] [] ⟨2, 1, none⟩ (by decide) (by decide) (by decide) hpair

end Hierarchical

section Grouped

/-- The loop that fills `selected_by_rank`; an absent entry counts as zero. -/
def countSelected (rankOf : ParticipantId → Option Rank) :
    List ParticipantId → (Rank → UInt16) → Result (Rank → UInt16)
  | [], selected => .ok selected
  | signer :: rest, selected => do
    let rank ← okOr (.missingRankedParticipant signer) (rankOf signer)
    let count ← checkedAdd (selected rank) 1
    countSelected rankOf rest (Function.update selected rank count)

def checkGroups (selected : Rank → UInt16) : List GroupThresholdRequirement → Result Unit
  | [] => .ok ()
  | requirement :: rest =>
    if selected requirement.rank < requirement.required then
      fail (.protocol s!"grouped threshold rank {requirement.rank} needs {requirement.required} signer(s), got {selected requirement.rank}")
    else checkGroups selected rest

def validateGroupedThresholdSignerSet (signers : List ParticipantId)
    (config : GroupedThresholdConfig) : Result Unit := do
  let threshold ← config.thresholdConfig
  validateSignerSet signers threshold
  let selected ← countSelected config.rankOf signers fun _ => 0
  checkGroups selected config.requirements

theorem nodup_length_le {l : List UInt16} (h : l.Nodup) : l.length ≤ 65536 := by
  have hmap : (l.map UInt16.toNat).Nodup :=
    h.map fun a b hab => UInt16.toNat_inj.mp hab
  have hsub : l.map UInt16.toNat ⊆ List.range 65536 := by
    intro x hx
    obtain ⟨a, -, rfl⟩ := List.mem_map.mp hx
    exact List.mem_range.mpr a.toNat_lt
  simpa using (hmap.subperm hsub).length_le

theorem countSelected_eq_ok {rankOf : ParticipantId → Option Rank} {signers : List ParticipantId}
    {selected selected' : Rank → UInt16} :
    countSelected rankOf signers selected = .ok selected' ↔
      (∀ s ∈ signers, (rankOf s).isSome) ∧ ∀ rank, (selected' rank).toNat =
        (selected rank).toNat + signers.countP fun s => rankOf s == some rank := by
  induction signers generalizing selected with
  | nil =>
    rw [countSelected, Except.ok.injEq, funext_iff]
    simp only [List.countP_nil, add_zero, UInt16.toNat_inj, List.not_mem_nil, false_implies,
      implies_true, true_and]
    exact ⟨fun h r => (h r).symm, fun h r => (h r).symm⟩
  | cons signer rest ih =>
    simp only [countSelected, bind_eq_ok, okOr_eq_ok, checkedAdd_eq_ok, ih, List.forall_mem_cons,
      List.countP_cons, beq_iff_eq]
    constructor
    · rintro ⟨rank, hrank, count, hcount, hmem, hsel⟩
      refine ⟨⟨by simp [hrank], hmem⟩, fun r => ?_⟩
      rw [hsel r, hrank]
      by_cases hr : r = rank
      · subst hr
        simp only [Function.update_self, hcount, UInt16.toNat_one, if_true]
        omega
      · simp [Function.update_of_ne hr, Ne.symm hr]
    · rintro ⟨⟨hsome, hmem⟩, hsel⟩
      obtain ⟨rank, hrank⟩ := Option.isSome_iff_exists.mp hsome
      have hone := hsel rank
      have hlt := (selected' rank).toNat_lt
      simp only [hrank, if_true] at hone
      have hcount : (UInt16.ofNat ((selected rank).toNat + 1)).toNat = (selected rank).toNat + 1 :=
        toNat_ofNat_u16 (by omega)
      refine ⟨rank, hrank, UInt16.ofNat ((selected rank).toNat + 1), by simpa using hcount, hmem,
        fun r => ?_⟩
      rw [hsel r, hrank]
      by_cases hr : r = rank
      · subst hr
        simp only [Function.update_self, hcount, if_true]
        omega
      · simp [Function.update_of_ne hr, Ne.symm hr]

/-- A counter that stays below `2 ^ 16` does not overflow on the way. -/
theorem countSelected_isErr {rankOf : ParticipantId → Option Rank} {signers : List ParticipantId}
    {selected : Rank → UInt16} (h : ∀ rank, (selected rank).toNat +
      (signers.countP fun s => rankOf s == some rank) < 65536) :
    FaultsIn Fault.IsErr (countSelected rankOf signers selected) := by
  induction signers generalizing selected with
  | nil => exact faultsIn_ok _
  | cons signer rest ih =>
    simp only [countSelected, faultsIn_bind, okOr_eq_ok]
    refine ⟨faultsIn_okOr trivial _, fun rank hrank => ?_⟩
    have hone := h rank
    simp only [List.countP_cons, hrank, beq_self_eq_true, if_true] at hone
    have hstep : (selected rank).toNat + (1 : UInt16).toNat < 65536 := by
      rw [UInt16.toNat_one]
      omega
    rw [checkedAdd, if_pos hstep]
    refine ⟨faultsIn_ok _, fun count hcount => ih fun r => ?_⟩
    have hsum : count.toNat = (selected rank).toNat + 1 := by
      rw [← Except.ok.inj hcount, UInt16.toNat_add, Nat.mod_eq_of_lt hstep, UInt16.toNat_one]
    by_cases hr : r = rank
    · subst hr
      rw [Function.update_self, hsum]
      omega
    · have hrest := h r
      rw [List.countP_cons] at hrest
      rw [Function.update_of_ne hr]
      omega

theorem checkGroups_isErr (selected : Rank → UInt16) (requirements : List GroupThresholdRequirement) :
    FaultsIn Fault.IsErr (checkGroups selected requirements) := by
  induction requirements with
  | nil => exact faultsIn_ok _
  | cons r rest ih =>
    rw [checkGroups, faultsIn_ite]
    exact ⟨fun _ => faultsIn_fail.mpr trivial, fun _ => ih⟩

theorem checkGroups_eq_ok {selected : Rank → UInt16}
    {requirements : List GroupThresholdRequirement} {u : Unit} :
    checkGroups selected requirements = .ok u ↔
      ∀ r ∈ requirements, r.required.toNat ≤ (selected r.rank).toNat := by
  induction requirements with
  | nil => simp [checkGroups]
  | cons r rest ih =>
    rw [checkGroups, List.forall_mem_cons]
    split_ifs with h
    · rw [UInt16.lt_iff_toNat_lt] at h
      simp only [fail_ne_ok, false_iff, not_and]
      omega
    · rw [UInt16.lt_iff_toNat_lt] at h
      rw [ih]
      exact ⟨fun hrest => ⟨by omega, hrest⟩, fun hall => hall.2⟩

namespace GroupedThresholdConfig

def selectedOfRank (config : GroupedThresholdConfig) (signers : List ParticipantId) (rank : Rank) : ℕ :=
  signers.countP fun s => config.rankOf s == some rank

structure SignerSet (config : GroupedThresholdConfig) (signers : List ParticipantId) : Prop where
  in_range : ∀ s ∈ signers, s.toNat ≤ config.participants.length
  distinct : signers.Nodup
  members : ∀ s ∈ signers, (config.rankOf s).isSome
  quorum : ∀ r ∈ config.requirements, r.required.toNat ≤ config.selectedOfRank signers r.rank

def totalRequired (config : GroupedThresholdConfig) : ℕ :=
  (config.requirements.map fun r => r.required.toNat).sum

theorem sumRequired_eq_ok {requirements : List GroupThresholdRequirement} {sum sum' : UInt16} :
    sumRequired requirements sum = .ok sum' ↔
      sum'.toNat = sum.toNat + (requirements.map fun r => r.required.toNat).sum := by
  induction requirements generalizing sum with
  | nil => simp [sumRequired, UInt16.toNat_inj, eq_comm]
  | cons r rest ih =>
    simp only [sumRequired, bind_eq_ok, checkedAdd_eq_ok, ih, List.map_cons, List.sum_cons]
    constructor
    · rintro ⟨a, ha, hsum⟩
      omega
    · intro hsum
      have hlt := sum'.toNat_lt
      have ha : (UInt16.ofNat (sum.toNat + r.required.toNat)).toNat = sum.toNat + r.required.toNat :=
        toNat_ofNat_u16 (by omega)
      exact ⟨_, ha, by omega⟩

theorem sum_selectedOfRank {config : GroupedThresholdConfig} (hc : config.Accepted)
    (signers : List ParticipantId) (p : GroupThresholdRequirement → Bool) :
    ((config.requirements.filter p).map fun r => config.selectedOfRank signers r.rank).sum =
      signers.countP fun s => config.rankOf s ∈
        (config.requirements.filter p).map fun r => some r.rank := by
  have hkeys : ((config.requirements.filter p).map fun r => some r.rank).Nodup := by
    have hsub := (List.filter_sublist (p := p) (l := config.requirements)).map
      GroupThresholdRequirement.rank
    have hmap := (hc.distinct_ranks.sublist hsub).map (Option.some_injective Rank)
    rwa [List.map_map] at hmap
  rw [← ListCounting.sum_countP_key config.rankOf hkeys, List.map_map]
  rfl

theorem SignerSet.totalRequired_le {config : GroupedThresholdConfig} (hc : config.Accepted)
    {signers : List ParticipantId} (h : config.SignerSet signers) :
    config.totalRequired ≤ signers.length := by
  have hall := sum_selectedOfRank hc signers fun _ => true
  rw [List.filter_true] at hall
  calc config.totalRequired
      ≤ (config.requirements.map fun r => config.selectedOfRank signers r.rank).sum :=
        List.sum_le_sum h.quorum
    _ = _ := hall
    _ ≤ signers.length := List.countP_le_length

theorem SignerSet.length_le {config : GroupedThresholdConfig} {signers : List ParticipantId}
    (h : config.SignerSet signers) : signers.length ≤ config.participants.length :=
  length_le_of_findRank h.distinct h.members

end GroupedThresholdConfig

theorem validateGroupedThresholdSignerSet_eq_ok {config : GroupedThresholdConfig}
    (hc : config.Accepted) {signers : List ParticipantId} {u : Unit} :
    validateGroupedThresholdSignerSet signers config = .ok u ↔
      config.participants.length < 65536 ∧ 0 < config.totalRequired ∧ config.SignerSet signers := by
  simp only [validateGroupedThresholdSignerSet, GroupedThresholdConfig.thresholdConfig,
    GroupedThresholdConfig.requiredSignerCount, bind_eq_ok, GroupedThresholdConfig.sumRequired_eq_ok,
    ThresholdConfig.new_eq_ok, validateSignerSet_eq_ok, countSelected_eq_ok, checkGroups_eq_ok,
    UInt16.toNat_zero, zero_add, UInt16.le_iff_toNat_le]
  constructor
  · rintro ⟨_, ⟨required, hsum, hpos, hle, rfl⟩, _, ⟨_, hrange, hnd⟩, selected, ⟨hmem, hsel⟩, hgroups⟩
    have hlen : config.participants.length < 65536 := by
      -- ids are distinct, so at 65536 participants the count wraps around to zero
      have hmax := nodup_length_le hc.distinct
      rw [List.length_map] at hmax
      by_contra hlen
      have heq : config.participants.length = 65536 := by omega
      rw [GroupedThresholdConfig.participantCount, heq] at hle
      simp at hle
      omega
    have hcount : config.participantCount.toNat = config.participants.length := toNat_ofNat_u16 hlen
    refine ⟨hlen, by simpa [GroupedThresholdConfig.totalRequired, ← hsum] using hpos,
      fun s hs => hcount ▸ hrange s hs, hnd, hmem, fun r hr => ?_⟩
    have hr' := hgroups r hr
    rwa [hsel] at hr'
  · rintro ⟨hlen, hpos, h⟩
    have hcount : config.participantCount.toNat = config.participants.length := toNat_ofNat_u16 hlen
    have hle := h.totalRequired_le hc
    have hle' := h.length_le
    have hsum : (UInt16.ofNat config.totalRequired).toNat = config.totalRequired :=
      toNat_ofNat_u16 (by omega)
    have hsel : ∀ rank, (UInt16.ofNat (config.selectedOfRank signers rank)).toNat =
        config.selectedOfRank signers rank := fun rank => by
      have hcount := List.countP_le_length (p := fun s => config.rankOf s == some rank) (l := signers)
      exact toNat_ofNat_u16 (by rw [GroupedThresholdConfig.selectedOfRank]; omega)
    refine ⟨_, ⟨UInt16.ofNat config.totalRequired, hsum, by omega, by omega, rfl⟩, (),
      ⟨by rw [hsum]; exact hle, fun s hs => hcount.symm ▸ h.in_range s hs, h.distinct⟩,
      fun rank => UInt16.ofNat (config.selectedOfRank signers rank), ⟨h.members, hsel⟩, fun r hr => ?_⟩
    rw [hsel]
    exact h.quorum r hr

end Grouped

end DkgKit
