import Mathlib.Data.List.Perm.Basic
import DkgKit.LoopRules

/-! Protocol-agnostic types of `dkgkit-core`: errors, identifiers, participants and
the three threshold policies with their constructors. -/

open LoopRules

namespace DkgKit

inductive DkgKitError
  | invalidThreshold (threshold participants : UInt16)
  | invalidParticipantId (id : UInt16)
  | participantCountMismatch (expected : UInt16) (actual : ℕ)
  | duplicateParticipantId (id : UInt16)
  | participantOutOfRange (participantId participants : UInt16)
  | missingRankedParticipant (id : UInt16)
  | emptySessionId
  | emptyMessageKind
  | serialization (message : String)
  | protocol (message : String)
  | transport (message : String)
  | notImplemented (feature : String)
  deriving DecidableEq, Repr

inductive Panic
  | overflow
  | indexOutOfBounds
  | expect (message : String)
  deriving DecidableEq, Repr

/-- A call that does not return `Ok` either returns an error or panics. -/
inductive Fault
  | err (error : DkgKitError)
  | panic (panic : Panic)
  deriving DecidableEq, Repr

abbrev Result (α : Type) := Except Fault α

section Results

variable {α β : Type}

def fail (e : DkgKitError) : Result α := .error (.err e)

def okOr (e : DkgKitError) : Option α → Result α
  | some a => .ok a
  | none => fail e

/-- A call that returns or panics. -/
def returned : Except Panic α → Result α
  | .ok a => .ok a
  | .error panic => .error (.panic panic)

theorem returned_eq_ok {x : Except Panic α} {a : α} : returned x = .ok a ↔ x = .ok a := by
  cases x <;> simp [returned]

theorem returned_eq_panic {x : Except Panic α} {fault : Fault} :
    returned x = .error fault ↔ ∃ panic, fault = .panic panic ∧ x = .error panic := by
  cases x <;> simp [returned, eq_comm]

/-- `u16` addition with overflow checks. -/
def checkedAdd (a b : UInt16) : Result UInt16 :=
  if a.toNat + b.toNat < 65536 then .ok (a + b) else .error (.panic .overflow)

theorem toNat_ofNat_u16 {n : ℕ} (h : n < 65536) : (UInt16.ofNat n).toNat = n :=
  UInt16.toNat_ofNat_of_lt' h

theorem checkedAdd_eq_ok {a b c : UInt16} :
    checkedAdd a b = .ok c ↔ c.toNat = a.toNat + b.toNat := by
  rw [checkedAdd]
  split_ifs with h
  · rw [Except.ok.injEq, ← UInt16.toNat_inj, UInt16.toNat_add, Nat.mod_eq_of_lt h, eq_comm]
  · have hc := c.toNat_lt
    simp only [false_iff]
    omega

theorem bind_eq_ok {x : Result α} {f : α → Result β} {b : β} :
    (x >>= f) = .ok b ↔ ∃ a, x = .ok a ∧ f a = .ok b := except_bind_eq_ok

@[simp] theorem ok_bind (a : α) (f : α → Result β) : ((.ok a : Result α) >>= f) = f a := rfl

@[simp] theorem error_bind (e : Fault) (f : α → Result β) :
    ((.error e : Result α) >>= f) = .error e := rfl

@[simp] theorem fail_ne_ok (e : DkgKitError) (a : α) : (fail e : Result α) ≠ .ok a := by
  simp [fail]

theorem check_eq_ok {p : Prop} [Decidable p] {e : DkgKitError} {u : Unit} :
    (if p then fail e else .ok () : Result Unit) = .ok u ↔ ¬p := by
  split_ifs with h <;> simp [h]

theorem ifFail_eq_ok {p : Prop} [Decidable p] {e : DkgKitError} {x : Result α} {a : α} :
    (if p then fail e else x) = .ok a ↔ ¬p ∧ x = .ok a := by
  by_cases h : p <;> simp [h]

@[simp] theorem okOr_eq_ok {e : DkgKitError} {o : Option α} {a : α} :
    okOr e o = .ok a ↔ o = some a := by
  cases o <;> simp [okOr, fail]

/-- `collect` of an iterator of results: the first fault wins. -/
def collectResults (f : α → Result β) : List α → Result (List β)
  | [] => .ok []
  | a :: rest => do
    let b ← f a
    let bs ← collectResults f rest
    .ok (b :: bs)

theorem collectResults_eq_ok {f : α → Result β} {l : List α} {bs : List β} :
    collectResults f l = .ok bs ↔ List.Forall₂ (fun a b => f a = .ok b) l bs := by
  induction l generalizing bs with
  | nil => simp [collectResults, eq_comm]
  | cons a rest ih =>
    simp only [collectResults, bind_eq_ok, ih, Except.ok.injEq, List.forall₂_cons_left_iff]
    constructor
    · rintro ⟨b, hb, bs', hbs, rfl⟩
      exact ⟨b, bs', hb, hbs, rfl⟩
    · rintro ⟨b, bs', hb, hbs, rfl⟩
      exact ⟨b, hb, bs', hbs, rfl⟩

theorem collectResults_eq_map {f : α → Result β} {g : α → β} {l : List α}
    (h : ∀ a ∈ l, f a = .ok (g a)) : collectResults f l = .ok (l.map g) := by
  rw [collectResults_eq_ok, List.forall₂_map_right_iff, List.forall₂_same]
  exact h

theorem exists_collectResults_eq_ok {f : α → Result β} {l : List α} :
    (∃ bs, collectResults f l = .ok bs) ↔ ∀ a ∈ l, ∃ b, f a = .ok b := by
  induction l with
  | nil => simp [collectResults]
  | cons a rest ih =>
    simp only [List.forall_mem_cons, ← ih, collectResults, bind_eq_ok, Except.ok.injEq]
    constructor
    · rintro ⟨_, b, hb, bs, hbs, -⟩
      exact ⟨⟨b, hb⟩, bs, hbs⟩
    · rintro ⟨⟨b, hb⟩, bs, hbs⟩
      exact ⟨b :: bs, b, hb, bs, hbs, rfl⟩

variable {P : Fault → Prop}

theorem faultsIn_fail {e : DkgKitError} : FaultsIn P (fail e : Result α) ↔ P (.err e) :=
  faultsIn_error

theorem faultsIn_okOr {e : DkgKitError} (h : P (.err e)) (o : Option α) : FaultsIn P (okOr e o) := by
  cases o with
  | none => exact faultsIn_fail.mpr h
  | some a => exact faultsIn_ok a

theorem faultsIn_collectResults {f : α → Result β} {l : List α} (h : ∀ a ∈ l, FaultsIn P (f a)) :
    FaultsIn P (collectResults f l) := by
  induction l with
  | nil => exact faultsIn_ok _
  | cons a rest ih =>
    rw [List.forall_mem_cons] at h
    simp only [collectResults, faultsIn_bind]
    exact ⟨h.1, fun _ _ => ⟨ih h.2, fun _ _ => faultsIn_ok _⟩⟩

def Fault.IsErr : Fault → Prop
  | .err _ => True
  | .panic _ => False

/-- The errors, and the panics of a kind. -/
def Fault.PanicsIn (P : Panic → Prop) : Fault → Prop
  | .err _ => True
  | .panic reason => P reason

theorem faultsIn_panicsIn {P : Panic → Prop} {x : Result α} (h : FaultsIn Fault.IsErr x) :
    FaultsIn (Fault.PanicsIn P) x := by
  intro fault hx
  cases fault with
  | err _ => exact trivial
  | panic _ => exact absurd (h _ hx) id

theorem faultsIn_isErr {x : Result α} :
    FaultsIn Fault.IsErr x ↔ ∀ panic, x ≠ .error (.panic panic) := by
  constructor
  · intro h panic hx
    exact h _ hx
  · intro h fault hx
    cases fault with
    | err _ => trivial
    | panic panic => exact h panic hx

end Results

section Identifiers

abbrev ParticipantId := UInt16

def ParticipantId.new (value : UInt16) : Result ParticipantId :=
  if value = 0 then fail (.invalidParticipantId value) else .ok value

abbrev SessionId := String

def isWhiteSpace (c : Char) : Bool :=
  (9 ≤ c.val && c.val ≤ 13) || c.val == 0x20 || c.val == 0x85 || c.val == 0xA0 ||
    c.val == 0x1680 || (0x2000 ≤ c.val && c.val ≤ 0x200A) || c.val == 0x2028 ||
    c.val == 0x2029 || c.val == 0x202F || c.val == 0x205F || c.val == 0x3000

def isBlank (value : String) : Bool := value.toList.all isWhiteSpace

def SessionId.new (value : String) : Result SessionId :=
  if isBlank value then fail .emptySessionId else .ok value

theorem sessionIdNew_eq_ok {value session : String} :
    SessionId.new value = .ok session ↔ isBlank value = false ∧ session = value := by
  rw [SessionId.new]
  cases isBlank value <;> simp [eq_comm]

theorem participantIdNew_eq_ok {value id : UInt16} :
    ParticipantId.new value = .ok id ↔ value ≠ 0 ∧ id = value := by
  rw [ParticipantId.new]
  by_cases h : value = 0
  · simp [h]
  · simp [h, eq_comm]

abbrev Rank := UInt16

structure RankedParticipant where
  id : ParticipantId
  rank : Rank
  label : Option String
  deriving DecidableEq, Repr

def RankedParticipant.new (id rank : UInt16) (label : Option String) : Result RankedParticipant := do
  let id ← ParticipantId.new id
  .ok ⟨id, rank, label⟩

end Identifiers

section Thresholds

structure ThresholdConfig where
  threshold : UInt16
  participants : UInt16
  deriving DecidableEq, Repr

def ThresholdConfig.new (threshold participants : UInt16) : Result ThresholdConfig :=
  if threshold = 0 ∨ participants = 0 ∨ threshold > participants then
    fail (.invalidThreshold threshold participants)
  else .ok ⟨threshold, participants⟩

theorem ThresholdConfig.new_eq_ok {threshold participants : UInt16} {c : ThresholdConfig} :
    ThresholdConfig.new threshold participants = .ok c ↔
      0 < threshold.toNat ∧ threshold.toNat ≤ participants.toNat ∧ c = ⟨threshold, participants⟩ := by
  have hz : threshold = 0 ↔ threshold.toNat = 0 := by
    rw [← UInt16.toNat_inj, UInt16.toNat_zero]
  have hz' : participants = 0 ↔ participants.toNat = 0 := by
    rw [← UInt16.toNat_inj, UInt16.toNat_zero]
  rw [ThresholdConfig.new]
  split_ifs with h
  · rw [hz, hz', gt_iff_lt, UInt16.lt_iff_toNat_lt] at h
    simp only [fail_ne_ok, false_iff]
    omega
  · rw [hz, hz', gt_iff_lt, UInt16.lt_iff_toNat_lt] at h
    simp only [Except.ok.injEq, eq_comm (b := c)]
    constructor
    · intro hc
      exact ⟨by omega, by omega, hc⟩
    · exact fun hc => hc.2.2

def checkDistinctIds (participants : List RankedParticipant) : Result (Finset UInt16) :=
  distinctLoop RankedParticipant.id (fun participant => .err (.duplicateParticipantId participant.id))
    (fun _ => .ok ()) (fun _ => .ok ()) participants ∅

theorem checkDistinctIds_eq_ok {participants : List RankedParticipant} {seen : Finset UInt16} :
    checkDistinctIds participants = .ok seen ↔
      (participants.map RankedParticipant.id).Nodup ∧
        seen = (participants.map RankedParticipant.id).toFinset := by
  simp [checkDistinctIds, distinctLoop_empty_eq_ok]

def findRank (participants : List RankedParticipant) (participantId : ParticipantId) : Option Rank :=
  (participants.find? fun participant => participant.id == participantId).map RankedParticipant.rank

theorem findRank_eq_some {participants : List RankedParticipant}
    (hnd : (participants.map RankedParticipant.id).Nodup) {id : ParticipantId} {rank : Rank} :
    findRank participants id = some rank ↔ ∃ p ∈ participants, p.id = id ∧ p.rank = rank := by
  induction participants with
  | nil => simp [findRank]
  | cons p rest ih =>
    rw [List.map_cons, List.nodup_cons] at hnd
    have hih := ih hnd.2
    simp only [findRank, List.find?_cons] at hih ⊢
    by_cases hp : p.id = id
    · have hno : ∀ r ∈ rest, r.id ≠ id := fun r hr he =>
        hnd.1 (List.mem_map.mpr ⟨r, hr, he.trans hp.symm⟩)
      simp only [hp, beq_self_eq_true, Option.map_some, Option.some.injEq, List.mem_cons,
        exists_eq_or_imp, true_and]
      exact ⟨Or.inl, fun h => h.elim (fun h => h) fun ⟨r, hr, he, _⟩ => absurd he (hno r hr)⟩
    · have hbeq : (p.id == id) = false := by simpa using hp
      simp only [hbeq, hih, List.mem_cons, exists_eq_or_imp, hp, false_and, false_or]

theorem findRank_of_mem {participants : List RankedParticipant}
    (hnd : (participants.map RankedParticipant.id).Nodup) {p : RankedParticipant}
    (hp : p ∈ participants) : findRank participants p.id = some p.rank :=
  (findRank_eq_some hnd).mpr ⟨p, hp, rfl, rfl⟩

theorem findRank_isSome_iff {participants : List RankedParticipant} {id : ParticipantId} :
    (findRank participants id).isSome ↔ id ∈ participants.map RankedParticipant.id := by
  simp [findRank, List.mem_map]

theorem length_le_of_findRank {participants : List RankedParticipant} {ids : List ParticipantId}
    (hnd : ids.Nodup) (h : ∀ id ∈ ids, (findRank participants id).isSome) :
    ids.length ≤ participants.length := by
  have hsub : ids ⊆ participants.map RankedParticipant.id :=
    fun id hid => findRank_isSome_iff.mp (h id hid)
  simpa using (hnd.subperm hsub).length_le

end Thresholds

section Hierarchical

structure HierarchicalThresholdConfig where
  threshold : UInt16
  participants : List RankedParticipant
  deriving DecidableEq, Repr

namespace HierarchicalThresholdConfig

def new (threshold : UInt16) (participants : List RankedParticipant) :
    Result HierarchicalThresholdConfig := do
  if participants.length < 65536 then
    let _ ← ThresholdConfig.new threshold (UInt16.ofNat participants.length)
    let _ ← checkDistinctIds participants
    .ok ⟨threshold, participants⟩
  else fail (.invalidThreshold threshold 65535)

def participantCount (config : HierarchicalThresholdConfig) : UInt16 :=
  UInt16.ofNat config.participants.length

def thresholdConfig (config : HierarchicalThresholdConfig) : Result ThresholdConfig :=
  ThresholdConfig.new config.threshold config.participantCount

def rankOf (config : HierarchicalThresholdConfig) (participantId : ParticipantId) : Option Rank :=
  findRank config.participants participantId

structure Accepted (config : HierarchicalThresholdConfig) : Prop where
  threshold_pos : 0 < config.threshold.toNat
  threshold_le : config.threshold.toNat ≤ config.participants.length
  length_lt : config.participants.length < 65536
  distinct : (config.participants.map RankedParticipant.id).Nodup

theorem new_eq_ok {threshold : UInt16} {participants : List RankedParticipant}
    {config : HierarchicalThresholdConfig} :
    new threshold participants = .ok config ↔ config = ⟨threshold, participants⟩ ∧ config.Accepted := by
  rw [new]
  split_ifs with hlen
  · have hcount : (UInt16.ofNat participants.length).toNat = participants.length :=
      toNat_ofNat_u16 hlen
    simp only [bind_eq_ok, ThresholdConfig.new_eq_ok, checkDistinctIds_eq_ok, hcount,
      Except.ok.injEq]
    constructor
    · rintro ⟨_, ⟨hpos, hle, _⟩, _, ⟨hnd, _⟩, rfl⟩
      exact ⟨rfl, hpos, hle, hlen, hnd⟩
    · rintro ⟨rfl, h⟩
      exact ⟨_, ⟨h.threshold_pos, h.threshold_le, rfl⟩, _, ⟨h.distinct, rfl⟩, rfl⟩
  · simp only [fail_ne_ok, false_iff]
    rintro ⟨rfl, h⟩
    exact hlen h.length_lt

theorem accepted_of_new {threshold : UInt16} {participants : List RankedParticipant}
    {config : HierarchicalThresholdConfig} (h : new threshold participants = .ok config) :
    config.Accepted := (new_eq_ok.mp h).2

theorem Accepted.participantCount_toNat {config : HierarchicalThresholdConfig}
    (h : config.Accepted) : config.participantCount.toNat = config.participants.length :=
  toNat_ofNat_u16 h.length_lt

theorem Accepted.thresholdConfig_eq {config : HierarchicalThresholdConfig} (h : config.Accepted) :
    config.thresholdConfig = .ok ⟨config.threshold, config.participantCount⟩ :=
  ThresholdConfig.new_eq_ok.mpr
    ⟨h.threshold_pos, h.participantCount_toNat.symm ▸ h.threshold_le, rfl⟩

theorem Accepted.rankOf_eq_some {config : HierarchicalThresholdConfig} (h : config.Accepted)
    {id : ParticipantId} {rank : Rank} :
    config.rankOf id = some rank ↔ ∃ p ∈ config.participants, p.id = id ∧ p.rank = rank :=
  findRank_eq_some h.distinct

theorem Accepted.rankOf_of_mem {config : HierarchicalThresholdConfig} (h : config.Accepted)
    {p : RankedParticipant} (hp : p ∈ config.participants) : config.rankOf p.id = some p.rank :=
  findRank_of_mem h.distinct hp

end HierarchicalThresholdConfig

end Hierarchical

section Grouped

structure GroupThresholdRequirement where
  rank : Rank
  required : UInt16
  total : UInt16
  deriving DecidableEq, Repr

def GroupThresholdRequirement.new (rank required total : UInt16) : Result GroupThresholdRequirement :=
  if required = 0 ∨ total = 0 ∨ required > total then fail (.invalidThreshold required total)
  else .ok ⟨rank, required, total⟩

theorem GroupThresholdRequirement.new_eq_ok {rank required total : UInt16}
    {r : GroupThresholdRequirement} :
    GroupThresholdRequirement.new rank required total = .ok r ↔
      0 < required.toNat ∧ required.toNat ≤ total.toNat ∧ r = ⟨rank, required, total⟩ := by
  have hiff := @ThresholdConfig.new_eq_ok required total ⟨required, total⟩
  simp only [and_true] at hiff
  rw [GroupThresholdRequirement.new]
  rw [ThresholdConfig.new] at hiff
  split_ifs at hiff ⊢ with h
  · simp only [fail_ne_ok, false_iff] at hiff ⊢
    exact fun hc => hiff ⟨hc.1, hc.2.1⟩
  · simp only [true_iff] at hiff
    simp [hiff.1, hiff.2, eq_comm]

structure GroupedThresholdConfig where
  participants : List RankedParticipant
  requirements : List GroupThresholdRequirement
  deriving DecidableEq, Repr

namespace GroupedThresholdConfig

def countOfRank (participants : List RankedParticipant) (rank : Rank) : ℕ :=
  participants.countP fun participant => participant.rank == rank

def checkTotal (participants : List RankedParticipant) (requirement : GroupThresholdRequirement) :
    Result Unit :=
  let actualTotal := countOfRank participants requirement.rank
  if actualTotal ≠ requirement.total.toNat then
    fail (.protocol s!"grouped threshold rank {requirement.rank} total mismatch: declared {requirement.total}, found {actualTotal}")
  else .ok ()

def checkRequirements (participants : List RankedParticipant)
    (requirements : List GroupThresholdRequirement) : Result (Finset UInt16) :=
  distinctLoop GroupThresholdRequirement.rank
    (fun requirement => .err (.protocol s!"duplicate grouped threshold rank: {requirement.rank}"))
    (fun _ => .ok ()) (checkTotal participants) requirements ∅

def checkCoverage (seenRanks : Finset UInt16) : List RankedParticipant → Result Unit
  | [] => .ok ()
  | participant :: rest =>
    if participant.rank ∈ seenRanks then checkCoverage seenRanks rest
    else fail (.protocol s!"missing grouped threshold requirement for rank {participant.rank}")

def new (participants : List RankedParticipant) (requirements : List GroupThresholdRequirement) :
    Result GroupedThresholdConfig := do
  if participants.isEmpty || requirements.isEmpty then
    fail (.invalidThreshold 0 (UInt16.ofNat participants.length))
  else
    let _ ← checkDistinctIds participants
    let seenRanks ← checkRequirements participants requirements
    checkCoverage seenRanks participants
    .ok ⟨participants, requirements⟩

def participantCount (config : GroupedThresholdConfig) : UInt16 :=
  UInt16.ofNat config.participants.length

def sumRequired : List GroupThresholdRequirement → UInt16 → Result UInt16
  | [], sum => .ok sum
  | requirement :: rest, sum => do
    let sum ← checkedAdd sum requirement.required
    sumRequired rest sum

def requiredSignerCount (config : GroupedThresholdConfig) : Result UInt16 :=
  sumRequired config.requirements 0

def thresholdConfig (config : GroupedThresholdConfig) : Result ThresholdConfig := do
  let required ← config.requiredSignerCount
  ThresholdConfig.new required config.participantCount

def rankOf (config : GroupedThresholdConfig) (participantId : ParticipantId) : Option Rank :=
  findRank config.participants participantId

structure Accepted (config : GroupedThresholdConfig) : Prop where
  participants_ne_nil : config.participants ≠ []
  requirements_ne_nil : config.requirements ≠ []
  distinct : (config.participants.map RankedParticipant.id).Nodup
  distinct_ranks : (config.requirements.map GroupThresholdRequirement.rank).Nodup
  total_eq : ∀ r ∈ config.requirements, countOfRank config.participants r.rank = r.total.toNat
  covered : ∀ p ∈ config.participants, ∃ r ∈ config.requirements, r.rank = p.rank

theorem checkRequirements_eq_ok {participants : List RankedParticipant}
    {requirements : List GroupThresholdRequirement} {seen : Finset UInt16} :
    checkRequirements participants requirements = .ok seen ↔
      (requirements.map GroupThresholdRequirement.rank).Nodup ∧
      (∀ r ∈ requirements, countOfRank participants r.rank = r.total.toNat) ∧
      seen = (requirements.map GroupThresholdRequirement.rank).toFinset := by
  have htotal : ∀ r, checkTotal participants r = .ok () ↔
      countOfRank participants r.rank = r.total.toNat := fun r => check_eq_ok.trans not_not
  rw [checkRequirements, distinctLoop_empty_eq_ok]
  simp only [htotal, true_and]
  exact ⟨fun h => ⟨h.2.1, h.1, h.2.2⟩, fun h => ⟨h.2.1, h.1, h.2.2⟩⟩

theorem checkCoverage_eq_ok {seenRanks : Finset UInt16} {participants : List RankedParticipant}
    {u : Unit} : checkCoverage seenRanks participants = .ok u ↔
      ∀ p ∈ participants, p.rank ∈ seenRanks := by
  induction participants with
  | nil => simp [checkCoverage]
  | cons p rest ih =>
    rw [checkCoverage, List.forall_mem_cons]
    split_ifs with h
    · simp [ih, h]
    · simp [h]

theorem new_eq_ok {participants : List RankedParticipant}
    {requirements : List GroupThresholdRequirement} {config : GroupedThresholdConfig} :
    new participants requirements = .ok config ↔
      config = ⟨participants, requirements⟩ ∧ config.Accepted := by
  rw [new]
  split_ifs with hempty
  · simp only [fail_ne_ok, false_iff]
    rintro ⟨rfl, h⟩
    simp only [Bool.or_eq_true, List.isEmpty_iff] at hempty
    exact hempty.elim h.participants_ne_nil h.requirements_ne_nil
  · simp only [Bool.or_eq_true, List.isEmpty_iff, not_or] at hempty
    simp only [bind_eq_ok, checkDistinctIds_eq_ok, checkRequirements_eq_ok, checkCoverage_eq_ok,
      Except.ok.injEq]
    constructor
    · rintro ⟨_, ⟨hnd, _⟩, _, ⟨hranks, htotal, rfl⟩, _, hcover, rfl⟩
      refine ⟨rfl, hempty.1, hempty.2, hnd, hranks, htotal, fun p hp => ?_⟩
      simpa [eq_comm] using hcover p hp
    · rintro ⟨rfl, h⟩
      refine ⟨_, ⟨h.distinct, rfl⟩, _, ⟨h.distinct_ranks, h.total_eq, rfl⟩, (), ?_, rfl⟩
      intro p hp
      simpa [eq_comm] using h.covered p hp

end GroupedThresholdConfig

end Grouped

end DkgKit
