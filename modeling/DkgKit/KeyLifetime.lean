import DkgKit.Ceremony
import DkgKit.Quorums

/-! Key sets over their whole lifetime: created by a dealer, by a ceremony or by a
reshare, then reshared any number of times under changing policies. -/

open Polynomial BigEndian BirkhoffMatrix

namespace DkgKit

section Epochs

/-- A key set with the policy it was dealt for; the constructor built the policy. -/
structure Epoch where
  keySet : HtssLocalKeySet
  config : HierarchicalThresholdConfig
  built : HierarchicalThresholdConfig.new config.threshold config.participants = .ok config

theorem Epoch.accepted (epoch : Epoch) : epoch.config.Accepted :=
  HierarchicalThresholdConfig.accepted_of_new epoch.built

def ReshareStep (old new : Epoch) : Prop :=
  ∃ reconstructSet rng,
    reshareHtss old.keySet old.config reconstructSet new.config rng = .ok new.keySet

abbrev ReshareReachable := Relation.ReflTransGen ReshareStep

structure Epoch.Holds (epoch : Epoch) (groupKey : GroupKey) (secret : Scalar) : Prop where
  groupKey_eq : epoch.keySet.groupKey = groupKey
  dealt : ∃ F : Scalar[X], epoch.keySet.Dealt epoch.config F ∧ F.eval 0 = secret

variable {old new : Epoch} {groupKey : GroupKey} {secret : Scalar}

theorem ReshareStep.holds (h : ReshareStep old new) (hold : old.Holds groupKey secret) :
    new.Holds groupKey secret := by
  obtain ⟨reconstructSet, rng, h⟩ := h
  obtain ⟨F, hF, rfl⟩ := hold.dealt
  obtain ⟨G, hG, hzero, hkey⟩ :=
    reshareHtss_keeps_secret old.accepted new.accepted hF.toConsistent h
  exact ⟨hkey.trans hold.groupKey_eq, G, hG, hzero⟩

theorem ReshareReachable.holds (h : ReshareReachable old new) (hold : old.Holds groupKey secret) :
    new.Holds groupKey secret := by
  induction h with
  | refl => exact hold
  | tail _ hstep ih => exact hstep.holds ih

theorem Epoch.Holds.reconstruct_eq {epoch : Epoch} (h : epoch.Holds groupKey secret)
    {signers : List ParticipantId} {secretBytes : Bytes 32}
    (hrec : reconstructHtssSecretScalar epoch.keySet.shares signers epoch.config = .ok secretBytes) :
    secretBytes = scalarToBytes secret := by
  obtain ⟨F, hF, rfl⟩ := h.dealt
  have hq := quorum_of_reconstruct epoch.accepted hrec
  rw [reconstructHtssSecretScalar_eq epoch.accepted hF.degree_lt hF.shares_perm hq,
    Except.ok.injEq] at hrec
  exact hrec.symm

/-- Key generation and the ceremony deal the shares of one polynomial, and no chain of
reshares changes the group key or the secret. -/
theorem keyLifetime_invariant :
    (∀ threshold participants config,
      HierarchicalThresholdConfig.new threshold participants = .ok config →
      (∀ initialSecret rng keySet, runLocalHtssKeygen config initialSecret rng = .ok keySet →
        ∃ F : Scalar[X], keySet.Dealt config F) ∧
      ∀ rng keySet, runDistributedHtssKeygen config rng = .ok keySet →
        ∃ F : Scalar[X], keySet.Dealt config F) ∧
    ∀ (first last : Epoch) (F : Scalar[X]), first.keySet.Dealt first.config F →
      ReshareReachable first last →
      last.keySet.groupKey = first.keySet.groupKey ∧
      (∃ G : Scalar[X], last.keySet.Dealt last.config G ∧ G.eval 0 = F.eval 0) ∧
      ∀ signers secretBytes,
        reconstructHtssSecretScalar last.keySet.shares signers last.config = .ok secretBytes →
          secretBytes = scalarToBytes (F.eval 0) := by
  constructor
  · intro threshold participants config hnew
    have hc := HierarchicalThresholdConfig.accepted_of_new hnew
    refine ⟨fun initialSecret rng keySet h => ?_, fun rng keySet h =>
      dealt_of_runDistributedHtssKeygen hc h⟩
    obtain ⟨keySet', F, hrun, hF⟩ := exists_runLocalHtssKeygen_dealt hc initialSecret rng
    rw [hrun, Except.ok.injEq] at h
    exact ⟨F, h ▸ hF⟩
  · intro first last F hF hchain
    have hfirst : first.Holds first.keySet.groupKey (F.eval 0) := ⟨rfl, F, hF, rfl⟩
    have hlast := hchain.holds hfirst
    exact ⟨hlast.groupKey_eq, hlast.dealt, fun _ _ hrec => hlast.reconstruct_eq hrec⟩

theorem exists_reshareHtss {keySet : HtssLocalKeySet} {config newConfig : HierarchicalThresholdConfig}
    (hc : config.Accepted) (hnew : newConfig.Accepted) {F : Scalar[X]}
    (hF : keySet.Consistent config F) {signers : List ParticipantId} (hq : config.Quorum signers)
    (rng : ℕ → NonZeroScalar) : ∃ new, reshareHtss keySet config signers newConfig rng = .ok new := by
  refine ⟨_, (reshareHtss_eq_ok hnew).mpr ⟨⟨F.eval 0, hF.secret_ne_zero⟩,
    reconstructHtssSecretScalar_eq hc hF.degree_lt hF.shares_perm hq, ?_, rfl⟩⟩
  have hpublic := (newKeypair ⟨F.eval 0, hF.secret_ne_zero⟩).publicKey_eq
  rw [newKeypair_of_even hF.even] at hpublic
  rw [hF.groupKey_eq, ← hpublic]

def trioConfig : HierarchicalThresholdConfig := ⟨2, [⟨1, 0, none⟩, ⟨2, 1, none⟩, ⟨3, 1, none⟩]⟩

theorem trioConfig_new :
    HierarchicalThresholdConfig.new 2 trioConfig.participants = .ok trioConfig := rfl

theorem keyLifetime_invariant_pair :
    (∃ keySet F, runLocalHtssKeygen pairConfig NonZeroScalar.one (fun _ => NonZeroScalar.one) =
      .ok keySet ∧ keySet.Dealt pairConfig F) ∧
    (∃ keySet F, runDistributedHtssKeygen pairConfig (fun _ _ => NonZeroScalar.one) =
      .ok keySet ∧ keySet.Dealt pairConfig F) ∧
    ∃ new, reshareHtss pairKeySet pairConfig [1, 2] trioConfig (fun _ => NonZeroScalar.one) = .ok new ∧
      new.groupKey = pairKeySet.groupKey ∧
      ∃ G : Scalar[X], new.Dealt trioConfig G ∧ G.eval 0 = pairPolynomial.eval 0 := by
  have hc := HierarchicalThresholdConfig.accepted_of_new pairConfig_new
  have htrio := HierarchicalThresholdConfig.accepted_of_new trioConfig_new
  obtain ⟨keySet, -, hrun, -⟩ := exists_runLocalHtssKeygen_dealt hc NonZeroScalar.one
    fun _ => NonZeroScalar.one
  obtain ⟨F, hF⟩ := (keyLifetime_invariant.1 _ _ _ pairConfig_new).1 _ _ _ hrun
  have hceremony := runDistributedHtssKeygen_honest hc honestSecret_pair_ne_zero
  obtain ⟨F', hF'⟩ := (keyLifetime_invariant.1 _ _ _ pairConfig_new).2 _ _ hceremony
  obtain ⟨new, hnew⟩ := exists_reshareHtss hc htrio pairKeySet_dealt.toConsistent pairConfig_quorum
    fun _ => NonZeroScalar.one
  have hchain : ReshareReachable ⟨pairKeySet, pairConfig, pairConfig_new⟩
      ⟨new, trioConfig, trioConfig_new⟩ := .single ⟨_, _, hnew⟩
  obtain ⟨hkey, hdealt, -⟩ := keyLifetime_invariant.2 _ _ _ pairKeySet_dealt hchain
  exact ⟨⟨keySet, F, hrun, hF⟩, ⟨_, F', hceremony, hF'⟩, new, hnew, hkey, hdealt⟩

end Epochs

section Creation

/-- The key sets that one of the three producers returns for a policy. -/
inductive Created (config : HierarchicalThresholdConfig) (keySet : HtssLocalKeySet) : Prop
  | dealer (initialSecret : NonZeroScalar) (rng : ℕ → NonZeroScalar)
      (h : runLocalHtssKeygen config initialSecret rng = .ok keySet)
  | ceremony (rng : ParticipantId → ℕ → NonZeroScalar)
      (h : runDistributedHtssKeygen config rng = .ok keySet)
  | reshare (old : HtssLocalKeySet) (oldConfig : HierarchicalThresholdConfig)
      (reconstructSet : List ParticipantId) (rng : ℕ → NonZeroScalar)
      (h : reshareHtss old oldConfig reconstructSet config rng = .ok keySet)

/-- Some accepted signer set reconstructs the secret of the group key. -/
def Usable (config : HierarchicalThresholdConfig) (keySet : HtssLocalKeySet) : Prop :=
  ∃ signers secret, validateHierarchicalSignerSet signers config = .ok () ∧
    reconstructHtssSecretScalar keySet.shares signers config = .ok (scalarToBytes secret) ∧
    isOddY (secret • generator) = false ∧
    pointToXonlyBytes (secret • generator) = keySet.groupKey.xonlyPublicKey

variable {config : HierarchicalThresholdConfig} {keySet : HtssLocalKeySet}

theorem Created.dealt (hc : config.Accepted) (h : Created config keySet) :
    ∃ F : Scalar[X], keySet.Dealt config F := by
  cases h with
  | dealer initialSecret rng h =>
    obtain ⟨keySet', F, hrun, hF⟩ := exists_runLocalHtssKeygen_dealt hc initialSecret rng
    rw [hrun, Except.ok.injEq] at h
    exact ⟨F, h ▸ hF⟩
  | ceremony rng h => exact dealt_of_runDistributedHtssKeygen hc h
  | reshare old oldConfig reconstructSet rng h => exact dealt_of_reshareHtss hc h

theorem HtssLocalKeySet.Dealt.usable_iff (hc : config.Accepted) {F : Scalar[X]}
    (hF : keySet.Dealt config F) : Usable config keySet ↔ ∃ signers, config.Quorum signers := by
  constructor
  · rintro ⟨signers, secret, -, hrec, -⟩
    exact ⟨signers, quorum_of_reconstruct hc hrec⟩
  · rintro ⟨signers, hq⟩
    exact ⟨signers, F.eval 0, (validateHierarchicalSignerSet_eq_ok hc).mpr hq.toSignerSet,
      reconstructHtssSecretScalar_eq hc hF.degree_lt hF.shares_perm hq, hF.even, hF.groupKey_eq.symm⟩

namespace HierarchicalThresholdConfig

def RosterRule (config : HierarchicalThresholdConfig) : Prop :=
  ∀ i < config.threshold.toNat, i < config.participants.countP fun p => p.rank.toNat ≤ i

instance (config : HierarchicalThresholdConfig) : Decidable config.RosterRule :=
  inferInstanceAs (Decidable (∀ i < config.threshold.toNat, _))

def lowestRanks (config : HierarchicalThresholdConfig) : List RankedParticipant :=
  (config.participants.insertionSort fun a b => a.rank.toNat ≤ b.rank.toNat).take
    config.threshold.toNat

theorem mem_of_mem_lowestRanks {p : RankedParticipant} (h : p ∈ config.lowestRanks) :
    p ∈ config.participants :=
  (List.perm_insertionSort _ _).mem_iff.mp (List.mem_of_mem_take h)

theorem Accepted.rankAtMost_of_mem (hc : config.Accepted) {p : RankedParticipant}
    (hp : p ∈ config.participants) (i : ℕ) : config.rankAtMost i p.id = decide (p.rank.toNat ≤ i) := by
  rw [rankAtMost, hc.rankOf_of_mem hp, Option.any_some]

theorem signerSet_lowestRanks (hc : config.Accepted)
    (hids : ∀ p ∈ config.participants, p.id.toNat ≤ config.participants.length)
    (hrule : config.RosterRule) :
    config.SignerSet (config.lowestRanks.map RankedParticipant.id) where
  enough := by
    rw [List.length_map, lowestRanks, List.length_take, List.length_insertionSort]
    exact le_min le_rfl hc.threshold_le
  in_range := by
    intro s hs
    obtain ⟨p, hp, rfl⟩ := List.mem_map.mp hs
    exact hids p (mem_of_mem_lowestRanks hp)
  distinct := by
    have hperm := (List.perm_insertionSort (fun a b : RankedParticipant =>
      a.rank.toNat ≤ b.rank.toNat) config.participants).map RankedParticipant.id
    exact (hperm.nodup_iff.mpr hc.distinct).sublist ((List.take_sublist _ _).map _)
  members := by
    intro s hs
    obtain ⟨p, hp, rfl⟩ := List.mem_map.mp hs
    rw [hc.rankOf_of_mem (mem_of_mem_lowestRanks hp), Option.isSome_some]
  rank_rule := by
    intro i hi
    have hcount : (config.lowestRanks.map RankedParticipant.id).countP (config.rankAtMost i) =
        config.lowestRanks.countP fun p => p.rank.toNat ≤ i := by
      rw [List.countP_map]
      refine List.countP_congr fun p hp => ?_
      rw [Function.comp_apply, hc.rankAtMost_of_mem (mem_of_mem_lowestRanks hp)]
    rw [hcount]
    exact ListCounting.lt_countP_take_insertionSort _ hi (hrule i hi)

theorem exists_signerSet_iff (hc : config.Accepted)
    (hids : ∀ p ∈ config.participants, p.id.toNat ≤ config.participants.length) :
    (∃ signers, config.SignerSet signers) ↔ config.RosterRule := by
  constructor
  · rintro ⟨signers, hset⟩ i hi
    have hsub : signers.filter (config.rankAtMost i) ⊆
        (config.participants.filter fun p => p.rank.toNat ≤ i).map RankedParticipant.id := by
      intro s hs
      obtain ⟨hs, hrank⟩ := List.mem_filter.mp hs
      obtain ⟨p, hp, rfl⟩ := List.mem_map.mp (findRank_isSome_iff.mp (hset.members s hs))
      rw [hc.rankAtMost_of_mem hp] at hrank
      exact List.mem_map.mpr ⟨p, List.mem_filter.mpr ⟨hp, hrank⟩, rfl⟩
    have hle := ((hset.distinct.filter (config.rankAtMost i)).subperm hsub).length_le
    rw [List.length_map, ← List.countP_eq_length_filter, ← List.countP_eq_length_filter] at hle
    exact (hset.rank_rule i hi).trans_le hle
  · intro hrule
    exact ⟨_, signerSet_lowestRanks hc hids hrule⟩

theorem quorum_lowestRanks (hc : config.Accepted)
    (hids : ∀ p ∈ config.participants, 1 ≤ p.id.toNat ∧ p.id.toNat ≤ config.participants.length)
    (hrule : config.RosterRule)
    (hordered : ∀ a ∈ config.participants, ∀ b ∈ config.participants, a.rank < b.rank → a.id < b.id)
    (hbound : WithinBound config.threshold.toNat config.participants.length) :
    config.Quorum (config.lowestRanks.map RankedParticipant.id) := by
  have hset := signerSet_lowestRanks hc (fun p hp => (hids p hp).2) hrule
  have hlen : (config.lowestRanks.map RankedParticipant.id).length = config.threshold.toNat := by
    refine le_antisymm ?_ hset.enough
    rw [List.length_map, lowestRanks]
    exact List.length_take_le _ _
  exact ⟨hset, ids_ne_zero_of_range hset hids, determinant_ne_zero_of_idsRespectRanks hset hlen
    (idsRespectRanks_of_participants hc hset.members fun a ha b hb _ _ => hordered a ha b hb)
    hset.in_range (hlen ▸ hbound)⟩

end HierarchicalThresholdConfig

/-- A created key set can be used exactly when some accepted signer set is nonsingular.
For that the roster has to satisfy the rank rule, and with ids that respect ranks
this is enough. -/
theorem created_usable_iff {threshold : UInt16} {participants : List RankedParticipant}
    (hnew : HierarchicalThresholdConfig.new threshold participants = .ok config)
    (hids : ∀ p ∈ config.participants,
      1 ≤ p.id.toNat ∧ p.id.toNat ≤ config.participants.length)
    (hcreated : Created config keySet) :
    (Usable config keySet ↔ ∃ signers, validateHierarchicalSignerSet signers config = .ok () ∧
      (matrix Scalar (conditions (config.points signers))).det ≠ 0) ∧
    ((∃ signers, validateHierarchicalSignerSet signers config = .ok ()) ↔
      ∀ i < config.threshold.toNat, i < config.participants.countP fun p => p.rank.toNat ≤ i) ∧
    ((∀ i < config.threshold.toNat, i < config.participants.countP fun p => p.rank.toNat ≤ i) →
      (∀ a ∈ config.participants, ∀ b ∈ config.participants, a.rank < b.rank → a.id < b.id) →
      WithinBound config.threshold.toNat config.participants.length → Usable config keySet) := by
  have hc := HierarchicalThresholdConfig.accepted_of_new hnew
  obtain ⟨F, hF⟩ := hcreated.dealt hc
  refine ⟨?_, ?_, fun hrule hordered hbound => (hF.usable_iff hc).mpr
    ⟨_, HierarchicalThresholdConfig.quorum_lowestRanks hc hids hrule hordered hbound⟩⟩
  · rw [hF.usable_iff hc]
    refine exists_congr fun signers => ?_
    rw [validateHierarchicalSignerSet_eq_ok hc]
    constructor
    · exact fun hq => ⟨hq.toSignerSet, hq.det_ne_zero⟩
    · rintro ⟨hset, hdet⟩
      exact ⟨hset, ids_ne_zero_of_range hset hids, hdet⟩
  · simp only [validateHierarchicalSignerSet_eq_ok hc]
    exact HierarchicalThresholdConfig.exists_signerSet_iff hc fun p hp => (hids p hp).2

theorem created_usable_iff_pair :
    ∃ keySet, Created pairConfig keySet ∧ Usable pairConfig keySet := by
  have hc := HierarchicalThresholdConfig.accepted_of_new pairConfig_new
  obtain ⟨keySet, -, hrun, -⟩ := exists_runLocalHtssKeygen_dealt hc NonZeroScalar.one
    fun _ => NonZeroScalar.one
  have hcreated : Created pairConfig keySet := .dealer _ _ hrun
  exact ⟨keySet, hcreated, (created_usable_iff pairConfig_new (by decide) hcreated).2.2 (by decide)
    (by decide) withinBound_pair⟩

def lonelyConfig : HierarchicalThresholdConfig := ⟨1, [⟨1, 5, none⟩]⟩

theorem lonelyConfig_unusable :
    HierarchicalThresholdConfig.new 1 lonelyConfig.participants = .ok lonelyConfig ∧
      (∀ p ∈ lonelyConfig.participants,
        1 ≤ p.id.toNat ∧ p.id.toNat ≤ lonelyConfig.participants.length) ∧
      ∃ keySet, runLocalHtssKeygen lonelyConfig NonZeroScalar.one (fun _ => NonZeroScalar.one) =
          .ok keySet ∧
        ∀ signers, validateHierarchicalSignerSet signers lonelyConfig ≠ .ok () := by
  have hnew : HierarchicalThresholdConfig.new 1 lonelyConfig.participants = .ok lonelyConfig := rfl
  have hc := HierarchicalThresholdConfig.accepted_of_new hnew
  obtain ⟨keySet, -, hrun, -⟩ := exists_runLocalHtssKeygen_dealt hc NonZeroScalar.one
    fun _ => NonZeroScalar.one
  refine ⟨hnew, by decide, keySet, hrun, fun signers hvalid => ?_⟩
  have hrule := (HierarchicalThresholdConfig.exists_signerSet_iff hc (by decide)).mp
    ⟨signers, (validateHierarchicalSignerSet_eq_ok hc).mp hvalid⟩
  exact absurd hrule (by decide)

end Creation

end DkgKit
