import DkgKit.Signing

/-! How the signer policies relate: what the range check on ids adds to them, and when
the hierarchical translation of a grouped policy accepts what the policy accepts. -/

open BigEndian LoopRules

namespace DkgKit

section Numbering

theorem length_lt_of_ids_ne_zero {participants : List RankedParticipant}
    (hnd : (participants.map RankedParticipant.id).Nodup)
    (hids : ∀ p ∈ participants, p.id ≠ 0) : participants.length < 65536 := by
  have hzero : (0 : UInt16) ∉ participants.map RankedParticipant.id := by
    intro h0
    obtain ⟨p, hp, hid⟩ := List.mem_map.mp h0
    exact hids p hp hid
  have hle := nodup_length_le (List.nodup_cons.mpr ⟨hzero, hnd⟩)
  rw [List.length_cons, List.length_map] at hle
  omega

/-- The validators accept a list that satisfies its policy exactly when its ids stay
within the number of participants and, for the grouped policy, somebody has to sign. -/
theorem signerPolicy_iff_in_range :
    (∀ threshold participants config,
      HierarchicalThresholdConfig.new threshold participants = .ok config →
      ∀ signers : List ParticipantId, signers.Nodup →
        signers ⊆ config.participants.map RankedParticipant.id →
        config.threshold.toNat ≤ signers.length →
        (∀ i < config.threshold.toNat, i + 1 ≤ signers.countP (config.rankAtMost i)) →
        (validateHierarchicalSignerSet signers config = .ok () ↔
          ∀ s ∈ signers, s.toNat ≤ config.participants.length)) ∧
    ∀ participants requirements config,
      GroupedThresholdConfig.new participants requirements = .ok config →
      (∀ p ∈ config.participants, p.id ≠ 0) →
      ∀ signers : List ParticipantId, signers.Nodup →
        signers ⊆ config.participants.map RankedParticipant.id →
        (∀ r ∈ config.requirements, r.required.toNat ≤ config.selectedOfRank signers r.rank) →
        (validateGroupedThresholdSignerSet signers config = .ok () ↔
          (∀ s ∈ signers, s.toNat ≤ config.participants.length) ∧
            ∃ r ∈ config.requirements, r.required ≠ 0) := by
  constructor
  · intro threshold participants config hnew signers hnd hmem henough hrule
    rw [validateHierarchicalSignerSet_eq_ok (HierarchicalThresholdConfig.accepted_of_new hnew)]
    exact ⟨fun hset => hset.in_range, fun hrange => ⟨henough, hrange, hnd,
      fun s hs => findRank_isSome_iff.mpr (hmem hs), hrule⟩⟩
  · intro participants requirements config hnew hids signers hnd hmem hquorum
    have hc := (GroupedThresholdConfig.new_eq_ok.mp hnew).2
    have hpos : 0 < config.totalRequired ↔ ∃ r ∈ config.requirements, r.required ≠ 0 := by
      rw [GroupedThresholdConfig.totalRequired, Nat.pos_iff_ne_zero, ne_eq, List.sum_eq_zero_iff]
      simp [← UInt16.toNat_inj]
    rw [validateGroupedThresholdSignerSet_eq_ok hc, hpos]
    constructor
    · rintro ⟨-, hsome, hset⟩
      exact ⟨hset.in_range, hsome⟩
    · rintro ⟨hrange, hsome⟩
      exact ⟨length_lt_of_ids_ne_zero hc.distinct hids, hsome, hrange, hnd,
        fun s hs => findRank_isSome_iff.mpr (hmem hs), hquorum⟩

def gapConfig : HierarchicalThresholdConfig := ⟨2, [⟨1, 0, none⟩, ⟨3, 0, none⟩]⟩

def gapGroups : GroupedThresholdConfig := ⟨gapConfig.participants, [⟨0, 2, 2⟩]⟩

theorem gapConfig_rejected :
    (HierarchicalThresholdConfig.new 2 gapConfig.participants = .ok gapConfig ∧
      (∀ i < gapConfig.threshold.toNat, i + 1 ≤ [1, 3].countP (gapConfig.rankAtMost i)) ∧
      validateHierarchicalSignerSet [1, 3] gapConfig = fail (.participantOutOfRange 3 2)) ∧
    GroupedThresholdConfig.new gapConfig.participants gapGroups.requirements = .ok gapGroups ∧
      (∀ r ∈ gapGroups.requirements, r.required.toNat ≤ gapGroups.selectedOfRank [1, 3] r.rank) ∧
      validateGroupedThresholdSignerSet [1, 3] gapGroups = fail (.participantOutOfRange 3 2) :=
  ⟨⟨rfl, by decide, rfl⟩, rfl, by decide, rfl⟩

def pairGroups : GroupedThresholdConfig := ⟨pairConfig.participants, [⟨0, 1, 1⟩, ⟨1, 1, 1⟩]⟩

theorem pairGroups_new :
    GroupedThresholdConfig.new pairGroups.participants pairGroups.requirements = .ok pairGroups := rfl

theorem signerPolicy_iff_in_range_pair :
    validateHierarchicalSignerSet [2, 1] pairConfig = .ok () ∧
      validateGroupedThresholdSignerSet [2, 1] pairGroups = .ok () := by
  have hrange : ∀ s ∈ ([2, 1] : List ParticipantId), s.toNat ≤ pairConfig.participants.length := by
    simp [pairConfig]
  exact ⟨(signerPolicy_iff_in_range.1 _ _ _ pairConfig_new [2, 1] (by decide) (by decide) (by decide)
      (by decide)).mpr hrange,
    (signerPolicy_iff_in_range.2 _ _ _ pairGroups_new (by decide) [2, 1] (by decide) (by decide)
      (by decide)).mpr ⟨hrange, by decide⟩⟩

end Numbering

section RankRuleFaults

/-- The faults other than a violation of the rank rule. -/
def NotRankRule (fault : Fault) : Prop :=
  ∀ (index : ℕ) (rank : UInt16), fault ≠ .err (.protocol s!"hierarchical signer set violates Birkhoff rank rule at position {index}: rank {rank} > {index}")

def Starts (c : Char) (message : String) : Prop := message.toList.head? = some c

theorem Starts.literal {c : Char} {rest : List Char} : Starts c (String.ofList (c :: rest)) := by
  simp [Starts]

theorem Starts.append {c : Char} {message rest : String} (h : Starts c message) :
    Starts c (message ++ rest) := by
  rw [Starts] at h
  simp [Starts, List.head?_append, h]

theorem notRankRule_protocol {c : Char} {message : String} (h : Starts c message)
    (hc : (c == 'h') = false) : NotRankRule (.err (.protocol message)) := by
  intro index rank heq
  rw [Fault.err.injEq, DkgKitError.protocol.injEq] at heq
  have hrule : Starts 'h' message := heq ▸ .append (.append (.append (.append (.append .literal))))
  exact ne_of_beq_false hc (Option.some.inj (h.symm.trans hrule))

theorem notRankRule_other {e : DkgKitError} (h : ∀ message, e ≠ .protocol message) :
    NotRankRule (.err e) := by
  intro index rank heq
  exact h _ (Fault.err.inj heq)

variable {config : HierarchicalThresholdConfig} {signerSet : List ParticipantId}

theorem birkhoffPoints_faultsIn (hc : config.Accepted) (hset : config.SignerSet signerSet) :
    FaultsIn NotRankRule (birkhoffPointsFromHierarchicalSignerSet signerSet config) := by
  have hvalid : validateHierarchicalSignerSet signerSet config = .ok () :=
    (validateHierarchicalSignerSet_eq_ok hc).mpr hset
  rw [birkhoffPointsFromHierarchicalSignerSet, hvalid, ok_bind]
  refine faultsIn_collectResults fun signer _ => ?_
  rw [faultsIn_bind]
  refine ⟨faultsIn_okOr (notRankRule_other (by simp)) _, fun rank _ => ?_⟩
  rw [BirkhoffPoint.new, faultsIn_ite]
  exact ⟨fun _ => faultsIn_fail.mpr (notRankRule_protocol .literal rfl), fun _ => faultsIn_ok _⟩

theorem birkhoffCoefficients_faultsIn (hc : config.Accepted) (hset : config.SignerSet signerSet)
    {points : List BirkhoffPoint}
    (hpoints : birkhoffPointsFromHierarchicalSignerSet signerSet config = .ok points) :
    FaultsIn NotRankRule (birkhoffInterpolationCoefficients points) := by
  obtain ⟨-, -, rfl⟩ := (birkhoffPointsFromHierarchicalSignerSet_eq_ok hc).mp hpoints
  rcases signerCoefficients_cases hc hset with ⟨-, w, -, hok⟩ | ⟨-, hfail⟩
  · rw [hok]
    exact faultsIn_ok _
  · rw [hfail]
    exact faultsIn_fail.mpr (notRankRule_protocol .literal rfl)

theorem sessionLoop_faultsIn {α : Type} {id : α → ParticipantId} {session : α → SessionId}
    {outside : α → DkgKitError} {mismatch : DkgKitError}
    (houtside : ∀ a, NotRankRule (.err (outside a))) (hmismatch : NotRankRule (.err mismatch))
    (items : List α) (seen : Finset ParticipantId) (sessionId : Option SessionId) :
    FaultsIn NotRankRule (sessionLoop id session outside mismatch signerSet items seen sessionId) := by
  induction items generalizing seen sessionId with
  | nil => exact faultsIn_ok _
  | cons a rest ih =>
    cases sessionId with
    | none =>
      simp only [sessionLoop, faultsIn_ite, faultsIn_fail]
      exact ⟨fun _ => houtside a, fun _ => ⟨fun _ => notRankRule_other (by simp), fun _ => ih _ _⟩⟩
    | some existing =>
      simp only [sessionLoop, faultsIn_ite, faultsIn_fail]
      exact ⟨fun _ => houtside a, fun _ => ⟨fun _ => notRankRule_other (by simp),
        fun _ => ⟨fun _ => hmismatch, fun _ => ih _ _⟩⟩⟩

theorem validateHtssNonceSet_faultsIn (nonces : List HtssNoncePackage) :
    FaultsIn NotRankRule (validateHtssNonceSet nonces signerSet) := by
  simp only [validateHtssNonceSet, faultsIn_bind, faultsIn_ite, faultsIn_fail]
  exact ⟨sessionLoop_faultsIn (fun _ => notRankRule_protocol (.append (.append .literal)) rfl)
    (notRankRule_protocol .literal rfl) _ _ _,
    fun _ _ => ⟨fun _ => notRankRule_protocol (.append (.append (.append .literal))) rfl,
      fun _ => faultsIn_ok _⟩⟩

theorem validateHtssSignatureShareSet_faultsIn (shares : List HtssSignatureSharePackage) :
    FaultsIn NotRankRule (validateHtssSignatureShareSet shares signerSet) := by
  simp only [validateHtssSignatureShareSet, faultsIn_bind, faultsIn_ite, faultsIn_fail]
  exact ⟨sessionLoop_faultsIn (fun _ => notRankRule_protocol (.append (.append .literal)) rfl)
    (notRankRule_protocol .literal rfl) _ _ _,
    fun _ _ => ⟨fun _ => notRankRule_protocol (.append (.append (.append .literal))) rfl,
      fun _ => faultsIn_ok _⟩⟩

theorem aggregateHtssPublicNonce_faultsIn (nonces : List HtssNoncePackage) :
    FaultsIn NotRankRule (aggregateHtssPublicNonce nonces signerSet) := by
  have hadd : ∀ aggregate, ∀ nonce ∈ nonces, FaultsIn NotRankRule (addPublicNonce aggregate nonce) := by
    intro aggregate nonce _
    simp only [addPublicNonce, noncePublicNonceBytes, faultsIn_bind]
    exact ⟨faultsIn_okOr (notRankRule_protocol (.append (.append .literal)) rfl) _, fun _ _ =>
      ⟨faultsIn_okOr (notRankRule_protocol (.append .literal) rfl) _, fun _ _ => faultsIn_ok _⟩⟩
  simp only [aggregateHtssPublicNonce, faultsIn_bind, faultsIn_ite, faultsIn_fail]
  exact ⟨validateHtssNonceSet_faultsIn nonces, fun _ _ =>
    ⟨faultsIn_okOr (notRankRule_protocol .literal rfl) _, fun _ _ =>
      ⟨faultsIn_foldlM hadd 0, fun _ _ =>
        ⟨fun _ => notRankRule_protocol .literal rfl, fun _ => faultsIn_ok _⟩⟩⟩⟩

variable (schnorr : Schnorr)

theorem signShareUnder_faultsIn (hc : config.Accepted) (hset : config.SignerSet signerSet)
    {xonlyKey : Bytes 32} {invalidKey : DkgKitError} (hkey : NotRankRule (.err invalidKey))
    (negateKey : Bool) (digest : Bytes 32) (localShare : HtssLocalKeyShare) (nonce : HtssLocalNonce)
    (nonces : List HtssNoncePackage) : FaultsIn NotRankRule (signShareUnder schnorr xonlyKey invalidKey
      negateKey digest localShare nonce nonces signerSet config) := by
  have hrank : ∀ id rank order : UInt16, Starts 'H'
      s!"HTSS share rank mismatch for participant {id}: share rank {rank}, coefficient rank {order}" :=
    fun _ _ _ => .append (.append (.append (.append (.append .literal))))
  simp only [signShareUnder, faultsIn_bind, faultsIn_ite, faultsIn_fail]
  refine ⟨fun _ => notRankRule_protocol (.append (.append (.append .literal))) rfl, fun _ =>
    ⟨fun _ => notRankRule_protocol (.append (.append .literal)) rfl, fun _ =>
    ⟨birkhoffPoints_faultsIn hc hset, fun points hpoints =>
    ⟨birkhoffCoefficients_faultsIn hc hset hpoints, fun _ _ =>
    ⟨faultsIn_okOr (notRankRule_other (by simp)) _, fun _ _ =>
    ⟨fun _ => notRankRule_protocol (hrank _ _ _) rfl, fun _ =>
    ⟨aggregateHtssPublicNonce_faultsIn nonces, fun _ _ =>
    ⟨fun _ => notRankRule_protocol .literal rfl, fun _ =>
    ⟨faultsIn_okOr hkey _, fun _ _ => ?_⟩⟩⟩⟩⟩⟩⟩⟩⟩
  exact ⟨faultsIn_okOr (notRankRule_protocol (.append .literal) rfl) _, fun _ _ =>
    ⟨faultsIn_okOr (notRankRule_protocol (.append .literal) rfl) _, fun _ _ =>
    ⟨faultsIn_okOr (notRankRule_protocol (.append .literal) rfl) _, fun _ _ => faultsIn_ok _⟩⟩⟩

theorem collectSignatureShares_faultsIn (hc : config.Accepted) (hset : config.SignerSet signerSet)
    (nonces : List HtssNoncePackage) (shares : List HtssSignatureSharePackage) :
    FaultsIn NotRankRule (collectSignatureShares nonces shares signerSet config) := by
  have hvalid : validateHierarchicalSignerSet signerSet config = .ok () :=
    (validateHierarchicalSignerSet_eq_ok hc).mpr hset
  have hadd : ∀ s, ∀ share ∈ shares, FaultsIn NotRankRule (addSignatureShare s share) := by
    intro s share _
    rw [addSignatureShare, faultsIn_bind]
    exact ⟨faultsIn_okOr (notRankRule_protocol (.append .literal) rfl) _,
      fun _ _ => faultsIn_ok _⟩
  simp only [collectSignatureShares, hvalid, ok_bind, faultsIn_bind]
  exact ⟨validateHtssNonceSet_faultsIn nonces, fun _ _ =>
    ⟨validateHtssSignatureShareSet_faultsIn shares, fun _ _ =>
    ⟨aggregateHtssPublicNonce_faultsIn nonces, fun _ _ =>
    ⟨faultsIn_foldlM hadd 0, fun _ _ => faultsIn_ok _⟩⟩⟩⟩

theorem aggregateSignature_faultsIn (signatureBytes : List UInt8) :
    FaultsIn NotRankRule (AggregateSignature.new signatureBytes) := by
  rw [AggregateSignature.new, faultsIn_ite]
  exact ⟨fun _ => faultsIn_fail.mpr (notRankRule_protocol .literal rfl), fun _ => faultsIn_ok _⟩

theorem aggregateHtssSignatureShares_faultsIn (hc : config.Accepted)
    (hset : config.SignerSet signerSet) (groupKey : GroupKey) (digest : Bytes 32)
    (nonces : List HtssNoncePackage) (shares : List HtssSignatureSharePackage) :
    FaultsIn NotRankRule (aggregateHtssSignatureShares schnorr groupKey digest nonces shares signerSet
      config) := by
  simp only [aggregateHtssSignatureShares, faultsIn_bind, faultsIn_ite, faultsIn_fail]
  exact ⟨collectSignatureShares_faultsIn hc hset nonces shares, fun _ _ =>
    ⟨faultsIn_okOr (notRankRule_protocol .literal rfl) _, fun _ _ =>
    ⟨fun _ => aggregateSignature_faultsIn _, fun _ => notRankRule_protocol .literal rfl⟩⟩⟩

theorem aggregateHtssSignatureSharesForOutput_faultsIn (hc : config.Accepted)
    (hset : config.SignerSet signerSet) (digest outputXonly tweak : Bytes 32)
    (nonces : List HtssNoncePackage) (shares : List HtssSignatureSharePackage) :
    FaultsIn NotRankRule (aggregateHtssSignatureSharesForOutput schnorr digest outputXonly tweak nonces
      shares signerSet config) := by
  simp only [aggregateHtssSignatureSharesForOutput, faultsIn_bind, faultsIn_ite, faultsIn_fail]
  exact ⟨collectSignatureShares_faultsIn hc hset nonces shares, fun _ _ =>
    ⟨faultsIn_okOr (notRankRule_protocol .literal rfl) _, fun _ _ =>
    ⟨faultsIn_okOr (notRankRule_protocol .literal rfl) _, fun _ _ =>
    ⟨fun _ => aggregateSignature_faultsIn _, fun _ => notRankRule_protocol .literal rfl⟩⟩⟩⟩

theorem signLocally_faultsIn {sessionName : String} {rng : ParticipantId → NonZeroScalar}
    {signShare : HtssLocalKeyShare → HtssLocalNonce → List HtssNoncePackage →
      Result HtssSignatureSharePackage}
    {aggregate : List HtssNoncePackage → List HtssSignatureSharePackage → Result AggregateSignature}
    (hsign : ∀ share nonce nonces, FaultsIn NotRankRule (signShare share nonce nonces))
    (haggregate : ∀ nonces shares, FaultsIn NotRankRule (aggregate nonces shares))
    (shares : List HtssLocalKeyShare) :
    FaultsIn NotRankRule (signLocally sessionName shares signerSet rng signShare aggregate) := by
  simp only [signLocally, faultsIn_bind, SessionId.new, faultsIn_ite, faultsIn_fail]
  exact ⟨faultsIn_collectResults fun _ _ => faultsIn_okOr (notRankRule_other (by simp)) _, fun _ _ =>
    ⟨⟨fun _ => notRankRule_other (by simp), fun _ => faultsIn_ok _⟩, fun _ _ =>
    ⟨faultsIn_collectResults fun _ _ => faultsIn_ok _, fun _ _ =>
    ⟨faultsIn_collectResults fun _ _ => hsign _ _ _, fun _ _ => haggregate _ _⟩⟩⟩⟩

end RankRuleFaults

section Translation

namespace GroupedThresholdConfig

/-- The signers that the requirements of rank at most `bound` ask for. -/
def requiredAtMost (config : GroupedThresholdConfig) (bound : ℕ) : ℕ :=
  ((config.requirements.filter fun r => r.rank.toNat ≤ bound).map fun r => r.required.toNat).sum

/-- The participants of a rank that pass the range check on ids. -/
def inRangeOfRank (config : GroupedThresholdConfig) (rank : Rank) : List RankedParticipant :=
  config.participants.filter fun p => p.rank == rank && p.id.toNat ≤ config.participants.length

def hierarchical (config : GroupedThresholdConfig) : HierarchicalThresholdConfig :=
  ⟨UInt16.ofNat config.totalRequired, config.participants⟩

variable {config : GroupedThresholdConfig} {signers : List ParticipantId}

theorem Accepted.totalRequired_le (hc : config.Accepted)
    (htotal : ∀ r ∈ config.requirements, r.required.toNat ≤ r.total.toNat) :
    config.totalRequired ≤ config.participants.length := by
  calc config.totalRequired
      ≤ (config.requirements.map fun r => countOfRank config.participants r.rank).sum :=
        List.sum_le_sum fun r hr => (htotal r hr).trans (hc.total_eq r hr).ge
    _ = config.participants.countP fun p =>
          p.rank ∈ config.requirements.map GroupThresholdRequirement.rank := by
        rw [← ListCounting.sum_countP_key RankedParticipant.rank hc.distinct_ranks, List.map_map]
        rfl
    _ ≤ config.participants.length := List.countP_le_length

theorem Accepted.totalRequired_pos (hc : config.Accepted)
    (hpos : ∀ r ∈ config.requirements, 0 < r.required.toNat) : 0 < config.totalRequired := by
  obtain ⟨r, hr⟩ := List.exists_mem_of_ne_nil _ hc.requirements_ne_nil
  exact (hpos r hr).trans_le (List.single_le_sum (fun _ _ => Nat.zero_le _) _
    (List.mem_map_of_mem hr))

end GroupedThresholdConfig

variable {config : GroupedThresholdConfig} {signers : List ParticipantId}

theorem required_bounds {requirements : List GroupThresholdRequirement}
    (h : ∀ r ∈ requirements, ∃ rank required total,
      GroupThresholdRequirement.new rank required total = .ok r) :
    ∀ r ∈ requirements, 0 < r.required.toNat ∧ r.required.toNat ≤ r.total.toNat := by
  intro r hr
  obtain ⟨rank, required, total, hr⟩ := h r hr
  obtain ⟨hpos, hle, rfl⟩ := GroupThresholdRequirement.new_eq_ok.mp hr
  exact ⟨hpos, hle⟩

theorem hierarchical_threshold (hlt : config.totalRequired < 65536) :
    config.hierarchical.threshold.toNat = config.totalRequired := toNat_ofNat_u16 hlt

theorem requiredSignerCount_eq (hlt : config.totalRequired < 65536) :
    config.requiredSignerCount = .ok config.hierarchical.threshold := by
  rw [GroupedThresholdConfig.requiredSignerCount, GroupedThresholdConfig.sumRequired_eq_ok,
    hierarchical_threshold hlt, UInt16.toNat_zero, Nat.zero_add]
  rfl

theorem hierarchicalConfigFromGroupedThreshold_eq (hc : config.Accepted)
    (hlen : config.participants.length < 65536) (hpos : 0 < config.totalRequired)
    (hle : config.totalRequired ≤ config.participants.length) :
    hierarchicalConfigFromGroupedThreshold config = .ok config.hierarchical ∧
      config.hierarchical.Accepted := by
  have hthreshold := hierarchical_threshold (hle.trans_lt hlen)
  have haccepted : config.hierarchical.Accepted :=
    ⟨hthreshold ▸ hpos, hthreshold ▸ hle, hlen, hc.distinct⟩
  refine ⟨?_, haccepted⟩
  rw [hierarchicalConfigFromGroupedThreshold, requiredSignerCount_eq (hle.trans_lt hlen), ok_bind]
  exact HierarchicalThresholdConfig.new_eq_ok.mpr ⟨rfl, haccepted⟩

theorem requiredAtMost_le_countP (hc : config.Accepted) (hset : config.SignerSet signers) (i : ℕ) :
    config.requiredAtMost i ≤ signers.countP (config.hierarchical.rankAtMost i) := by
  calc config.requiredAtMost i
      ≤ ((config.requirements.filter fun r => r.rank.toNat ≤ i).map fun r =>
          config.selectedOfRank signers r.rank).sum :=
        List.sum_le_sum fun r hr => hset.quorum r (List.mem_filter.mp hr).1
    _ = _ := GroupedThresholdConfig.sum_selectedOfRank hc signers _
    _ ≤ signers.countP (config.hierarchical.rankAtMost i) := by
        refine List.countP_mono_left fun s _ hs => ?_
        rw [decide_eq_true_eq] at hs
        obtain ⟨r, hr, hrank⟩ := List.mem_map.mp hs
        have hlow := (List.mem_filter.mp hr).2
        have hfind : config.hierarchical.rankOf s = some r.rank := hrank.symm
        rwa [HierarchicalThresholdConfig.rankAtMost, hfind, Option.any_some]

theorem hierarchical_signerSet (hc : config.Accepted) (hlt : config.totalRequired < 65536)
    (hset : config.SignerSet signers)
    (hrule : ∀ i < config.totalRequired, i < config.requiredAtMost i) :
    config.hierarchical.SignerSet signers where
  enough := by
    rw [hierarchical_threshold hlt]
    exact hset.totalRequired_le hc
  in_range := hset.in_range
  distinct := hset.distinct
  members := hset.members
  rank_rule := by
    intro i hi
    rw [hierarchical_threshold hlt] at hi
    exact (hrule i hi).trans_le (requiredAtMost_le_countP hc hset i)

def pickedFor (config : GroupedThresholdConfig) (requirement : GroupThresholdRequirement) :
    List ParticipantId :=
  ((config.inRangeOfRank requirement.rank).take requirement.required.toNat).map RankedParticipant.id

theorem mem_pickedFor {r : GroupThresholdRequirement} {s : ParticipantId}
    (hs : s ∈ pickedFor config r) :
    ∃ p ∈ config.participants, p.id = s ∧ p.rank = r.rank ∧ s.toNat ≤ config.participants.length := by
  obtain ⟨p, hp, rfl⟩ := List.mem_map.mp hs
  obtain ⟨hp, hin⟩ := List.mem_filter.mp (List.mem_of_mem_take hp)
  simp only [Bool.and_eq_true, beq_iff_eq, decide_eq_true_eq] at hin
  exact ⟨p, hp, rfl, hin⟩

theorem rankOf_of_mem_pickedFor (hc : config.Accepted) {r : GroupThresholdRequirement}
    {s : ParticipantId} (hs : s ∈ pickedFor config r) : config.rankOf s = some r.rank := by
  obtain ⟨p, hp, rfl, hrank, -⟩ := mem_pickedFor hs
  rw [← hrank]
  exact findRank_of_mem hc.distinct hp

theorem length_pickedFor {r : GroupThresholdRequirement}
    (h : r.required.toNat ≤ (config.inRangeOfRank r.rank).length) :
    (pickedFor config r).length = r.required.toNat := by
  rw [pickedFor, List.length_map, List.length_take, min_eq_left h]

/-- A list that meets every requirement with nobody to spare. -/
def picked (config : GroupedThresholdConfig) : List ParticipantId :=
  config.requirements.flatMap (pickedFor config)

theorem picked_nodup (hc : config.Accepted) : (picked config).Nodup := by
  rw [picked, List.nodup_flatMap]
  constructor
  · intro r _
    have hsub : (pickedFor config r).Sublist (config.participants.map RankedParticipant.id) :=
      ((List.take_sublist _ _).trans List.filter_sublist).map _
    exact hc.distinct.sublist hsub
  · -- two requirements pick participants of different ranks
    refine (List.pairwise_map.mp hc.distinct_ranks).imp fun hne s hs hs' => hne ?_
    have hsame := (rankOf_of_mem_pickedFor hc hs).symm.trans (rankOf_of_mem_pickedFor hc hs')
    exact Option.some.inj hsame

theorem picked_signerSet (hc : config.Accepted) (hpick : ∀ r ∈ config.requirements,
    r.required.toNat ≤ (config.inRangeOfRank r.rank).length) : config.SignerSet (picked config) where
  in_range := by
    intro s hs
    obtain ⟨r, -, hs⟩ := List.mem_flatMap.mp hs
    obtain ⟨-, -, -, -, hrange⟩ := mem_pickedFor hs
    exact hrange
  distinct := picked_nodup hc
  members := by
    intro s hs
    obtain ⟨r, -, hs⟩ := List.mem_flatMap.mp hs
    rw [rankOf_of_mem_pickedFor hc hs, Option.isSome_some]
  quorum := by
    intro r hr
    have hall : (pickedFor config r).countP (fun s => config.rankOf s == some r.rank) =
        (pickedFor config r).length := by
      rw [List.countP_eq_length]
      intro s hs
      rw [rankOf_of_mem_pickedFor hc hs, beq_self_eq_true]
    calc r.required.toNat = (pickedFor config r).length := (length_pickedFor (hpick r hr)).symm
      _ = (pickedFor config r).countP fun s => config.rankOf s == some r.rank := hall.symm
      _ ≤ config.selectedOfRank (picked config) r.rank :=
        (List.sublist_flatten_of_mem (List.mem_map_of_mem hr)).countP_le

theorem countP_picked (hc : config.Accepted) (hpick : ∀ r ∈ config.requirements,
    r.required.toNat ≤ (config.inRangeOfRank r.rank).length) (i : ℕ) :
    (picked config).countP (config.hierarchical.rankAtMost i) = config.requiredAtMost i := by
  have hchunk : ∀ r ∈ config.requirements,
      (pickedFor config r).countP (config.hierarchical.rankAtMost i) =
        if r.rank.toNat ≤ i then r.required.toNat else 0 := by
    intro r hr
    have hrank : ∀ s ∈ pickedFor config r,
        config.hierarchical.rankAtMost i s = decide (r.rank.toNat ≤ i) := by
      intro s hs
      have hfind : config.hierarchical.rankOf s = some r.rank := rankOf_of_mem_pickedFor hc hs
      rw [HierarchicalThresholdConfig.rankAtMost, hfind, Option.any_some]
    split_ifs with hle
    · rw [← length_pickedFor (hpick r hr), List.countP_eq_length]
      exact fun s hs => by rw [hrank s hs, decide_eq_true hle]
    · rw [List.countP_eq_zero]
      exact fun s hs => by simp [hrank s hs, hle]
  have hmap : config.requirements.map (List.countP (config.hierarchical.rankAtMost i) ∘
      pickedFor config) = config.requirements.map fun r =>
        if r.rank.toNat ≤ i then r.required.toNat else 0 := List.map_congr_left hchunk
  rw [picked, List.countP_flatMap, hmap, List.sum_map_ite]
  simp [GroupedThresholdConfig.requiredAtMost]

theorem selectedOfRank_le (hc : config.Accepted) (hset : config.SignerSet signers) (rank : Rank) :
    config.selectedOfRank signers rank ≤ (config.inRangeOfRank rank).length := by
  have hsub : signers.filter (fun s => config.rankOf s == some rank) ⊆
      (config.inRangeOfRank rank).map RankedParticipant.id := by
    intro s hs
    obtain ⟨hmem, hrank⟩ := List.mem_filter.mp hs
    obtain ⟨p, hp, rfl, rfl⟩ := (findRank_eq_some hc.distinct).mp (beq_iff_eq.mp hrank)
    refine List.mem_map.mpr ⟨p, List.mem_filter.mpr ⟨hp, ?_⟩, rfl⟩
    simpa using hset.in_range _ hmem
  have hle := ((hset.distinct.filter _).subperm hsub).length_le
  rwa [List.length_map, ← List.countP_eq_length_filter] at hle

/-- Every list of the grouped policy is one of its translation exactly when the
requirements of low ranks ask for enough signers, or nobody can meet them at all. -/
theorem forall_signerSet_iff (hc : config.Accepted) (hlt : config.totalRequired < 65536) :
    (∀ signers, config.SignerSet signers → config.hierarchical.SignerSet signers) ↔
      (∃ r ∈ config.requirements, (config.inRangeOfRank r.rank).length < r.required.toNat) ∨
        ∀ i < config.totalRequired, i < config.requiredAtMost i := by
  constructor
  · intro hall
    by_contra hno
    push Not at hno
    obtain ⟨hpick, i, hi, hshort⟩ := hno
    have hset := hall _ (picked_signerSet hc hpick)
    have hrule := hset.rank_rule i (by rwa [hierarchical_threshold hlt])
    rw [countP_picked hc hpick] at hrule
    omega
  · rintro (⟨r, hr, hshort⟩ | hrule) signers hset
    · have hmany := hset.quorum r hr
      have hfew := selectedOfRank_le hc hset r.rank
      omega
    · exact hierarchical_signerSet hc hlt hset hrule

theorem signDigestGrouped_faultsIn (schnorr : Schnorr)
    (htranslate : hierarchicalConfigFromGroupedThreshold config = .ok config.hierarchical)
    (haccepted : config.hierarchical.Accepted)
    (hgrouped : validateGroupedThresholdSignerSet signers config = .ok ())
    (hset : config.hierarchical.SignerSet signers) (groupKey : GroupKey) (digest : Bytes 32)
    (shares : List HtssLocalKeyShare) (rng : ParticipantId → NonZeroScalar) :
    FaultsIn NotRankRule (signDigestWithLocalGroupedHtssThresholdShares schnorr groupKey digest shares
      signers config rng) ∧
    ∀ outputXonly tweak negateKey, FaultsIn NotRankRule
      (signDigestWithLocalGroupedHtssThresholdSharesForOutput schnorr groupKey digest outputXonly tweak
        negateKey shares signers config rng) := by
  rw [signDigestWithLocalGroupedHtssThresholdShares, hgrouped, ok_bind, htranslate, ok_bind]
  refine ⟨signLocally_faultsIn (fun share nonce nonces => ?_) (fun nonces shares =>
    aggregateHtssSignatureShares_faultsIn schnorr haccepted hset groupKey digest nonces shares) shares,
    fun outputXonly tweak negateKey => ?_⟩
  · exact signShareUnder_faultsIn schnorr haccepted hset (notRankRule_protocol .literal rfl) _ _ _ _ _
  · rw [signDigestWithLocalGroupedHtssThresholdSharesForOutput, hgrouped, ok_bind, htranslate, ok_bind]
    refine signLocally_faultsIn (fun share nonce nonces => ?_) (fun nonces shares =>
      aggregateHtssSignatureSharesForOutput_faultsIn schnorr haccepted hset digest outputXonly tweak
        nonces shares) shares
    exact signShareUnder_faultsIn schnorr haccepted hset (notRankRule_protocol .literal rfl) _ _ _ _ _

/-- A grouped policy and its translation agree exactly when for every `i` below the
number of required signers the ranks up to `i` ask for more than `i` of them, unless
nobody can meet the policy. Then no grouped signer fails on the rank rule. -/
theorem groupedPolicy_translates_iff {participants : List RankedParticipant}
    {requirements : List GroupThresholdRequirement}
    (hnew : GroupedThresholdConfig.new participants requirements = .ok config)
    (hids : ∀ p ∈ config.participants, p.id ≠ 0)
    (hrequirements : ∀ r ∈ config.requirements, ∃ rank required total,
      GroupThresholdRequirement.new rank required total = .ok r) :
    ∃ hierarchical, hierarchicalConfigFromGroupedThreshold config = .ok hierarchical ∧
    ((∀ signers, validateGroupedThresholdSignerSet signers config = .ok () →
        validateHierarchicalSignerSet signers hierarchical = .ok ()) ↔
      (∃ r ∈ config.requirements, (config.inRangeOfRank r.rank).length < r.required.toNat) ∨
        ∀ i < config.totalRequired, i < config.requiredAtMost i) ∧
    ((∃ r ∈ config.requirements, (config.inRangeOfRank r.rank).length < r.required.toNat) ∨
        (∀ i < config.totalRequired, i < config.requiredAtMost i) →
      ∀ signers, validateGroupedThresholdSignerSet signers config = .ok () →
        ∀ schnorr groupKey digest shares rng,
          FaultsIn NotRankRule (signDigestWithLocalGroupedHtssThresholdShares schnorr groupKey digest
            shares signers config rng) ∧
          ∀ outputXonly tweak negateKey, FaultsIn NotRankRule
            (signDigestWithLocalGroupedHtssThresholdSharesForOutput schnorr groupKey digest outputXonly
              tweak negateKey shares signers config rng)) := by
  have hc := (GroupedThresholdConfig.new_eq_ok.mp hnew).2
  have hlen := length_lt_of_ids_ne_zero hc.distinct hids
  have hbounds := required_bounds hrequirements
  have hpos := hc.totalRequired_pos fun r hr => (hbounds r hr).1
  have hle := hc.totalRequired_le fun r hr => (hbounds r hr).2
  obtain ⟨htranslate, haccepted⟩ := hierarchicalConfigFromGroupedThreshold_eq hc hlen hpos hle
  have hgrouped : ∀ signers, validateGroupedThresholdSignerSet signers config = .ok () ↔
      config.SignerSet signers := by
    intro signers
    rw [validateGroupedThresholdSignerSet_eq_ok hc]
    exact ⟨fun h => h.2.2, fun h => ⟨hlen, hpos, h⟩⟩
  have hiff := forall_signerSet_iff hc (hle.trans_lt hlen)
  refine ⟨config.hierarchical, htranslate, ?_, fun hcond signers hvalid schnorr groupKey digest shares
    rng => signDigestGrouped_faultsIn schnorr htranslate haccepted hvalid
      (hiff.mpr hcond signers ((hgrouped signers).mp hvalid)) groupKey digest shares rng⟩
  simp only [hgrouped, validateHierarchicalSignerSet_eq_ok haccepted]
  exact hiff

def skipGroups : GroupedThresholdConfig :=
  ⟨[⟨1, 0, none⟩, ⟨2, 2, none⟩], [⟨0, 1, 1⟩, ⟨2, 1, 1⟩]⟩

theorem skipGroups_disagree :
    GroupedThresholdConfig.new skipGroups.participants skipGroups.requirements = .ok skipGroups ∧
      (∀ r ∈ skipGroups.requirements,
        GroupThresholdRequirement.new r.rank r.required r.total = .ok r) ∧
      validateGroupedThresholdSignerSet [1, 2] skipGroups = .ok () ∧
      (hierarchicalConfigFromGroupedThreshold skipGroups >>= validateHierarchicalSignerSet [1, 2]) =
        fail (.protocol "hierarchical signer set violates Birkhoff rank rule at position 1: rank 2 > 1") ∧
      ∀ schnorr groupKey digest rng, signDigestWithLocalGroupedHtssThresholdShares schnorr groupKey
          digest [⟨1, 0, scalarToBytes 0⟩, ⟨2, 2, scalarToBytes 0⟩] [1, 2] skipGroups rng =
        fail (.protocol "hierarchical signer set violates Birkhoff rank rule at position 1: rank 2 > 1") :=
  ⟨rfl, by decide, rfl, rfl, fun _ _ _ _ => rfl⟩

theorem groupedPolicy_translates_iff_pair :
    ∃ hierarchical, hierarchicalConfigFromGroupedThreshold pairGroups = .ok hierarchical ∧
      validateHierarchicalSignerSet [1, 2] hierarchical = .ok () := by
  have hrequirements : ∀ r ∈ pairGroups.requirements,
      GroupThresholdRequirement.new r.rank r.required r.total = .ok r := by decide
  obtain ⟨hierarchical, htranslate, hiff, -⟩ := groupedPolicy_translates_iff pairGroups_new (by decide)
    fun r hr => ⟨_, _, _, hrequirements r hr⟩
  exact ⟨hierarchical, htranslate, hiff.mpr (.inr (by decide)) [1, 2] rfl⟩

end Translation

section Arithmetic

variable {config : GroupedThresholdConfig}

theorem id_ne_zero_of_new {p : RankedParticipant}
    (h : ∃ id rank label, RankedParticipant.new id rank label = .ok p) : p.id ≠ 0 := by
  obtain ⟨id, rank, label, h⟩ := h
  rw [RankedParticipant.new, ParticipantId.new] at h
  split_ifs at h with hzero
  · exact absurd h (fail_ne_ok _ _)
  · rw [ok_bind, Except.ok.injEq] at h
    rw [← h]
    exact hzero

theorem selectedOfRank_all (hc : config.Accepted) (rank : Rank) :
    config.selectedOfRank (config.participants.map RankedParticipant.id) rank =
      GroupedThresholdConfig.countOfRank config.participants rank := by
  rw [GroupedThresholdConfig.selectedOfRank, List.countP_map, GroupedThresholdConfig.countOfRank]
  refine List.countP_congr fun p hp => ?_
  have hrank : config.rankOf p.id = some p.rank := findRank_of_mem hc.distinct hp
  simp [hrank]

theorem selectedOfRank_le_length {signers : List ParticipantId} (hnd : signers.Nodup) (rank : Rank) :
    config.selectedOfRank signers rank ≤ config.participants.length := by
  rw [GroupedThresholdConfig.selectedOfRank, List.countP_eq_length_filter]
  apply length_le_of_findRank (hnd.filter _)
  intro s hs
  have hrank : config.rankOf s = some rank := beq_iff_eq.mp (List.mem_filter.mp hs).2
  exact Option.isSome_of_eq_some hrank

theorem countSelected_isErr_of_nodup (hlen : config.participants.length < 65536)
    {signers : List ParticipantId} (hnd : signers.Nodup) :
    FaultsIn Fault.IsErr (countSelected config.rankOf signers fun _ => 0) := by
  apply countSelected_isErr
  intro rank
  have hle := @selectedOfRank_le_length config signers hnd rank
  rw [GroupedThresholdConfig.selectedOfRank] at hle
  rw [UInt16.toNat_zero]
  omega

/-- The unchecked sums, casts and counters of an accepted grouped policy stay within `u16`:
its participants are counted rank by rank, and their ids are distinct and not zero. -/
theorem groupedThresholdConfig_arithmetic {participants : List RankedParticipant}
    {requirements : List GroupThresholdRequirement}
    (hparticipants : ∀ p ∈ participants, ∃ id rank label, RankedParticipant.new id rank label = .ok p)
    (hrequirements : ∀ r ∈ requirements, ∃ rank required total,
      GroupThresholdRequirement.new rank required total = .ok r)
    (hnew : GroupedThresholdConfig.new participants requirements = .ok config) :
    ∃ required, config.requiredSignerCount = .ok required ∧
      required.toNat = (requirements.map fun r => r.required.toNat).sum ∧
      config.participantCount.toNat = participants.length ∧
      1 ≤ required.toNat ∧ required.toNat ≤ config.participantCount.toNat ∧
      config.thresholdConfig = .ok ⟨required, config.participantCount⟩ ∧
      hierarchicalConfigFromGroupedThreshold config = .ok ⟨required, participants⟩ ∧
      (∀ r ∈ requirements, r.required.toNat ≤
        config.selectedOfRank (participants.map RankedParticipant.id) r.rank) ∧
      ∀ signers : List ParticipantId, signers.Nodup → ∀ panic,
        countSelected config.rankOf signers (fun _ => 0) ≠ .error (.panic panic) ∧
        validateGroupedThresholdSignerSet signers config ≠ .error (.panic panic) := by
  obtain ⟨hconfig, hc⟩ := GroupedThresholdConfig.new_eq_ok.mp hnew
  obtain rfl : participants = config.participants := by rw [hconfig]
  obtain rfl : requirements = config.requirements := by rw [hconfig]
  have hlen := length_lt_of_ids_ne_zero hc.distinct fun p hp => id_ne_zero_of_new (hparticipants p hp)
  have hbounds := required_bounds hrequirements
  have hpos := hc.totalRequired_pos fun r hr => (hbounds r hr).1
  have hle := hc.totalRequired_le fun r hr => (hbounds r hr).2
  obtain ⟨htranslate, haccepted⟩ := hierarchicalConfigFromGroupedThreshold_eq hc hlen hpos hle
  have hthreshold := hierarchical_threshold (hle.trans_lt hlen)
  have hcount : config.participantCount.toNat = config.participants.length := toNat_ofNat_u16 hlen
  have hatMost : config.hierarchical.threshold.toNat ≤ config.participantCount.toNat := by omega
  have hrequired := requiredSignerCount_eq (hle.trans_lt hlen)
  have hconfig : config.thresholdConfig =
      .ok ⟨config.hierarchical.threshold, config.participantCount⟩ := by
    rw [GroupedThresholdConfig.thresholdConfig, hrequired, ok_bind]
    exact ThresholdConfig.new_eq_ok.mpr ⟨by omega, hatMost, rfl⟩
  refine ⟨config.hierarchical.threshold, hrequired, hthreshold, hcount, by omega, hatMost, hconfig,
    htranslate, fun r hr => ?_, fun signers hnd panic => ⟨?_, ?_⟩⟩
  · calc r.required.toNat ≤ r.total.toNat := (hbounds r hr).2
      _ = GroupedThresholdConfig.countOfRank config.participants r.rank := (hc.total_eq r hr).symm
      _ = _ := (selectedOfRank_all hc r.rank).symm
  · exact faultsIn_isErr.mp (countSelected_isErr_of_nodup hlen hnd) panic
  · refine faultsIn_isErr.mp ?_ panic
    rw [validateGroupedThresholdSignerSet, hconfig, ok_bind, faultsIn_bind]
    refine ⟨validateSignerSet_isErr _ _, fun _ _ => ?_⟩
    rw [faultsIn_bind]
    exact ⟨countSelected_isErr_of_nodup hlen hnd, fun selected _ => checkGroups_isErr _ _⟩

theorem groupedThresholdConfig_arithmetic_pair : ∃ required,
    pairGroups.requiredSignerCount = .ok required ∧ required.toNat = 2 ∧
      ∀ signers : List ParticipantId, signers.Nodup → ∀ panic,
        validateGroupedThresholdSignerSet signers pairGroups ≠ .error (.panic panic) := by
  have hparticipants : ∀ p ∈ pairGroups.participants,
      RankedParticipant.new p.id p.rank p.label = .ok p := by decide
  have hrequirements : ∀ r ∈ pairGroups.requirements,
      GroupThresholdRequirement.new r.rank r.required r.total = .ok r := by decide
  obtain ⟨required, hok, hsum, -, -, -, -, -, -, hsafe⟩ := groupedThresholdConfig_arithmetic
    (fun p hp => ⟨_, _, _, hparticipants p hp⟩) (fun r hr => ⟨_, _, _, hrequirements r hr⟩)
    pairGroups_new
  exact ⟨required, hok, hsum, fun signers hnd panic => (hsafe signers hnd panic).2⟩

end Arithmetic

end DkgKit
