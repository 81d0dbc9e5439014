import DkgKit.FrostCeremony

/-! The FROST key generation of all parties in one process, as the SDK runs it over sessions,
and the same ceremony with neither sessions nor packages. -/

open BigEndian LoopRules

namespace DkgKit

open DkgSessionConfig FrostDkgSession

section Ceremony

def createFrostSession (sessionId : String) (threshold participants participantId : UInt16) :
    Result FrostDkgSession := do
  let sessionId ← SessionId.new sessionId
  let threshold ← ThresholdConfig.new threshold participants
  let participantId ← ParticipantId.new participantId
  .ok (FrostDkgSession.new ⟨sessionId, threshold, participantId⟩)

/-- The call of one session in a pass over all of them, which ends at the first fault. -/
def advance {α : Type} (call : FrostDkgSession → Result α × FrostDkgSession)
    (session : FrostDkgSession) : Result (α × FrostDkgSession) :=
  match call session with
  | (.ok a, session) => .ok (a, session)
  | (.error fault, _) => .error fault

variable (pedPop : SimplePedPop) (receiver : ShareReceiver pedPop)

def runLocalFrostDkg (sessionId : String) (threshold participants : UInt16)
    (rng : ParticipantId → pedPop.Rng) : Result (List LocalKeyShare) := do
  let sessions ← collectResults (createFrostSession sessionId threshold participants)
    (partyIds participants)
  let round1 ← collectResults
    (advance fun session => session.round1 pedPop (rng session.config.participantId)) sessions
  let round2 ← collectResults
    (advance fun session => session.round2 pedPop (round1.map Prod.fst)) (round1.map Prod.snd)
  collectResults (fun session => session.finalize pedPop receiver (round2.map Prod.fst).flatten)
    (round2.map Prod.snd)

/-- The input of a party and its shares for all parties. -/
def drawnInput (threshold : ThresholdConfig) (rng : ParticipantId → pedPop.Rng) (id : ParticipantId) :
    pedPop.KeygenInput × List (Scalar × Scalar) :=
  pedPop.genKeygenInput threshold.threshold.toUInt32
    ((partyIds threshold.participants).map fun id => (id.toNat : Scalar)) (id.toUInt32 - 1) (rng id)

def addDrawnInput (threshold : ThresholdConfig) (rng : ParticipantId → pedPop.Rng)
    (coordinator : pedPop.Coordinator) (id : ParticipantId) : Result pedPop.Coordinator :=
  match pedPop.addInput coordinator (id.toUInt32 - 1) (drawnInput pedPop threshold rng id).1 with
  | .ok coordinator => .ok coordinator
  | .error err => fail (.protocol s!"invalid round1 input: {err}")

/-- The shares that the parties have drawn for one of them. -/
def drawnShares (threshold : ThresholdConfig) (rng : ParticipantId → pedPop.Rng) (id : ParticipantId) :
    List Scalar :=
  (partyIds threshold.participants).flatMap fun sender =>
    ((drawnInput pedPop threshold rng sender).2.filter fun entry =>
      entry.1 == (id.toNat : Scalar)).map Prod.snd

def drawnAggInput (threshold : ThresholdConfig) (rng : ParticipantId → pedPop.Rng) :
    Result pedPop.AggKeygenInput := do
  let coordinator ← (partyIds threshold.participants).foldlM (addDrawnInput pedPop threshold rng)
    (pedPop.newCoordinator threshold.threshold.toUInt32 threshold.participants.toUInt32)
  okOr (.protocol "coordinator missing round1 inputs") (pedPop.finish coordinator)

/-- Inputs are drawn and aggregated once, and every party receives the shares drawn for it. -/
def directFrostDkg (threshold : ThresholdConfig) (rng : ParticipantId → pedPop.Rng) :
    Result (List LocalKeyShare) := do
  let aggInput ← drawnAggInput pedPop threshold rng
  collectResults (fun id => receiver.localShare aggInput id (drawnShares pedPop threshold rng id))
    (partyIds threshold.participants)

end Ceremony

section Transmission

def Binary.RoundTrips {α : Type} (binary : Binary α) : Prop :=
  ∀ a, ∃ bytes, binary.serialize a = .ok bytes ∧ binary.deserialize bytes = .ok a

/-- What is encoded is decoded again, and a party draws one share for each index. -/
structure SimplePedPop.Transmits (pedPop : SimplePedPop) : Prop where
  inputs : pedPop.keygenInputs.RoundTrips
  shares : pedPop.secretShares.RoundTrips
  indices : ∀ threshold indices index rng, indices.Nodup →
    ((pedPop.genKeygenInput threshold indices index rng).2.map Prod.fst).Perm indices

theorem advance_eq_ok {α : Type} {call : FrostDkgSession → Result α × FrostDkgSession}
    {session session' : FrostDkgSession} {a : α} :
    advance call session = .ok (a, session') ↔ call session = (.ok a, session') := by
  rw [advance]
  cases hcall : call session with
  | mk result next =>
    cases result with
    | error fault => simp
    | ok b => simp

theorem collectResults_map {α β γ : Type} (f : β → Result γ) (g : α → β) (l : List α) :
    collectResults f (l.map g) = collectResults (fun a => f (g a)) l := by
  induction l with
  | nil => rfl
  | cons a rest ih => rw [List.map_cons, collectResults, collectResults, ih]

theorem collectResults_congr {α β : Type} {f g : α → Result β} {l : List α} (h : ∀ a ∈ l, f a = g a) :
    collectResults f l = collectResults g l := by
  induction l with
  | nil => rfl
  | cons a rest ih =>
    rw [List.forall_mem_cons] at h
    rw [collectResults, collectResults, h.1, ih h.2]

theorem exists_of_mem_collectResults {α β : Type} {f : α → Result β} {l : List α} {bs : List β}
    (h : collectResults f l = .ok bs) {b : β} (hb : b ∈ bs) : ∃ a ∈ l, f a = .ok b := by
  induction collectResults_eq_ok.mp h with
  | nil => exact absurd hb List.not_mem_nil
  | @cons a c rest cs hac hrest ih =>
    rcases List.mem_cons.mp hb with rfl | hmem
    · exact ⟨a, List.mem_cons_self, hac⟩
    · obtain ⟨a', ha', hfa'⟩ := ih (collectResults_eq_ok.mpr hrest) hmem
      exact ⟨a', List.mem_cons_of_mem a ha', hfa'⟩

theorem collectResults_eq_error {α β : Type} {f : α → Result β} {l : List α} {fault : Fault}
    (hne : l ≠ []) (h : ∀ a ∈ l, f a = .error fault) : collectResults f l = .error fault := by
  obtain ⟨a, rest, rfl⟩ := List.exists_cons_of_ne_nil hne
  rw [collectResults, h a List.mem_cons_self, error_bind]

theorem participantId_of_index {id : ParticipantId} (hid : id ≠ 0) :
    participantIdFromScalarBytes (scalarToBytes (id.toNat : Scalar)) = .ok id := by
  have hlt := id.toNat_lt
  have hval : ((id.toNat : ℕ) : Scalar).val = id.toNat :=
    ZMod.val_natCast_of_lt (by rw [groupOrder]; omega)
  have hnumber : value ((scalarToBytes (id.toNat : Scalar)).toList.drop 28).reverse = id.toNat := by
    have hbytes : (scalarToBytes (id.toNat : Scalar)).toList = (digits 32 id.toNat).reverse := by
      rw [scalarToBytes, hval]
      rfl
    have hdrop : ((digits 32 id.toNat).reverse.drop 28).reverse = (digits (4 + 28) id.toNat).take 4 := by
      rw [List.drop_reverse, List.reverse_reverse, length_digits]
    rw [hbytes, hdrop, take_digits, value_digits, Nat.mod_eq_of_lt (by omega)]
  rw [participantIdFromScalarBytes, hnumber, if_neg (by omega), UInt16.ofNat_toNat,
    ParticipantId.new, if_neg hid]

theorem partyIds_sorted (n : UInt16) : (partyIds n).Pairwise fun i j => i.toNat < j.toNat := by
  have hlt := n.toNat_lt
  rw [partyIds, List.pairwise_map]
  refine List.Pairwise.imp_of_mem (fun hi hj hij => ?_) List.pairwise_lt_range'
  rw [List.mem_range'_1] at hi hj
  rwa [toNat_ofNat_u16 (by omega), toNat_ofNat_u16 (by omega)]

theorem nodup_partyIds (n : UInt16) : (partyIds n).Nodup :=
  (partyIds_sorted n).imp fun hlt heq => by rw [heq] at hlt; omega

theorem length_partyIds (n : UInt16) : (partyIds n).length = n.toNat := by simp [partyIds]

theorem nodup_indices (n : UInt16) : ((partyIds n).map fun id => (id.toNat : Scalar)).Nodup := by
  refine List.Nodup.map (fun id id' h => ?_) (nodup_partyIds n)
  exact UInt16.toNat_inj.mp ((scalar_natCast_inj id.toNat_lt id'.toNat_lt).mp h)

theorem mapValues_lastWith_pairwise {α : Type} {key : α → ParticipantId} {l : List α}
    (hnd : (l.map key).Nodup) :
    (mapValues (lastWith key l)).Pairwise fun a b => (key a).toNat < (key b).toNat := by
  rw [mapValues]
  refine List.Pairwise.filterMap _ (fun i j hij a ha b hb => ?_) (List.sortedLT_finRange _).pairwise
  rw [((lastWith_eq_some hnd).mp ha).2, ((lastWith_eq_some hnd).mp hb).2]
  exact hij

/-- A list in the order of its ids is what the map collected from it lists. -/
theorem mapValues_lastWith_sorted {α : Type} {key : α → ParticipantId} {l : List α}
    (hsorted : l.Pairwise fun a b => (key a).toNat < (key b).toNat) :
    mapValues (lastWith key l) = l := by
  have hnd : (l.map key).Nodup := by
    rw [List.Nodup, List.pairwise_map]
    exact hsorted.imp fun hlt heq => by rw [heq] at hlt; omega
  refine List.Perm.eq_of_pairwise (fun a b _ _ hab hba => ?_) (mapValues_lastWith_pairwise hnd) hsorted
    (mapValues_lastWith_perm hnd)
  omega

end Transmission

section Passes

variable {pedPop : SimplePedPop} {receiver : ShareReceiver pedPop}

/-- The texts under which inputs and shares are sent. -/
structure SimplePedPop.Encoding (pedPop : SimplePedPop) where
  inputBytes : pedPop.KeygenInput → List UInt8
  shareBytes : Scalar → List UInt8
  serialize_input : ∀ input, pedPop.keygenInputs.serialize input = .ok (inputBytes input)
  deserialize_input : ∀ input, pedPop.keygenInputs.deserialize (inputBytes input) = .ok input
  serialize_share : ∀ share, pedPop.secretShares.serialize share = .ok (shareBytes share)
  deserialize_share : ∀ share, pedPop.secretShares.deserialize (shareBytes share) = .ok share

theorem SimplePedPop.Transmits.exists_encoding (h : pedPop.Transmits) : Nonempty pedPop.Encoding := by
  choose inputBytes hinput using h.inputs
  choose shareBytes hshare using h.shares
  exact ⟨inputBytes, shareBytes, fun input => (hinput input).1, fun input => (hinput input).2,
    fun share => (hshare share).1, fun share => (hshare share).2⟩

variable (encoding : pedPop.Encoding) (threshold : ThresholdConfig) (rng : ParticipantId → pedPop.Rng)

def publishedInput (id : ParticipantId) : Round1Package :=
  ⟨id, encoding.inputBytes (drawnInput pedPop threshold rng id).1⟩

def pendingShare (entry : Scalar × Scalar) : PendingSecretShare :=
  ⟨UInt16.ofNat entry.1.val, encoding.shareBytes entry.2⟩

def pendingShares (id : ParticipantId) : List PendingSecretShare :=
  (drawnInput pedPop threshold rng id).2.map (pendingShare encoding)

def publishedShares (id : ParticipantId) : List Round2Package :=
  (pendingShares encoding threshold rng id).map fun share => ⟨id, share.recipient, share.bytes⟩

def publishedInputs : List Round1Package :=
  (partyIds threshold.participants).map (publishedInput encoding threshold rng)

theorem shareIndices_eq (config : DkgSessionConfig) : config.shareIndices =
    .ok ((partyIds config.threshold.participants).map fun id => (id.toNat : Scalar)) := by
  have hlt := config.threshold.participants.toNat_lt
  have hmap : (partyIds config.threshold.participants).map (fun id => (id.toNat : Scalar)) =
      (List.range' 1 config.threshold.participants.toNat).map fun i : ℕ => (i : Scalar) := by
    rw [partyIds, List.map_map]
    refine List.map_congr_left fun i hi => ?_
    rw [List.mem_range'_1] at hi
    rw [Function.comp_apply, toNat_ofNat_u16 (by omega)]
  rw [shareIndices, hmap]
  refine collectResults_eq_map fun i hi => ?_
  rw [List.mem_range'_1] at hi
  rw [if_neg (scalar_natCast_ne_zero (by omega) (by omega))]

theorem val_index (id : ParticipantId) : ((id.toNat : ℕ) : Scalar).val = id.toNat := by
  have hlt := id.toNat_lt
  exact ZMod.val_natCast_of_lt (by rw [groupOrder]; omega)

/-- Every share that a party draws is for the index of a party. -/
theorem exists_recipient (h : pedPop.Transmits) {sender : ParticipantId} {entry : Scalar × Scalar}
    (hentry : entry ∈ (drawnInput pedPop threshold rng sender).2) :
    ∃ id ∈ partyIds threshold.participants, entry.1 = (id.toNat : Scalar) := by
  have hperm := h.indices threshold.threshold.toUInt32 _ (sender.toUInt32 - 1) (rng sender)
    (nodup_indices threshold.participants)
  obtain ⟨id, hid, heq⟩ := List.mem_map.mp (hperm.mem_iff.mp (List.mem_map_of_mem hentry))
  exact ⟨id, hid, heq.symm⟩

theorem contribute_eq (h : pedPop.Transmits) (sessionId : SessionId) {id : ParticipantId} (hid : id ≠ 0) :
    (⟨sessionId, threshold, id⟩ : DkgSessionConfig).contribute pedPop (rng id) =
      .ok (publishedInput encoding threshold rng id, ⟨pendingShares encoding threshold rng id,
        lastWith Round1Package.participantId [publishedInput encoding threshold rng id]⟩) := by
  have hpending : collectResults (pendingSecretShare pedPop) (drawnInput pedPop threshold rng id).2 =
      .ok (pendingShares encoding threshold rng id) := by
    refine collectResults_eq_map fun entry hentry => ?_
    obtain ⟨recipient, hmem, heq⟩ := exists_recipient threshold rng h hentry
    rw [pendingSecretShare, pendingShare, heq, participantId_of_index (mem_partyIds.mp hmem).1,
      encoding.serialize_share, val_index, UInt16.ofNat_toNat]
    rfl
  rw [contribute, shareIndices_eq, ok_bind, partyIndex, if_neg hid, ok_bind]
  change (serialized (pedPop.keygenInputs.serialize (drawnInput pedPop threshold rng id).1) >>= _) = _
  rw [encoding.serialize_input, serialized, ok_bind]
  change (collectResults (pendingSecretShare pedPop) (drawnInput pedPop threshold rng id).2 >>= _) = _
  rw [hpending]
  rfl

variable (sessionId : SessionId)

theorem advance_round1 (h : pedPop.Transmits) {id : ParticipantId} (hid : id ≠ 0) :
    advance (fun session => session.round1 pedPop (rng session.config.participantId))
      (FrostDkgSession.new ⟨sessionId, threshold, id⟩) =
        .ok (publishedInput encoding threshold rng id, ⟨⟨sessionId, threshold, id⟩,
          some ⟨pendingShares encoding threshold rng id,
            lastWith Round1Package.participantId [publishedInput encoding threshold rng id]⟩⟩) := by
  have hcontribute := contribute_eq encoding threshold rng h sessionId hid
  rw [advance, FrostDkgSession.round1]
  simp only [FrostDkgSession.new, hcontribute]

theorem validate_publishedInputs (id : ParticipantId) :
    (⟨sessionId, threshold, id⟩ : DkgSessionConfig).validateRound1Set
      (publishedInputs encoding threshold rng) = .ok () := by
  refine validateRound1Set_eq_ok.mpr ⟨?_, fun package hpackage => ?_, ?_⟩
  · rw [publishedInputs, List.length_map, length_partyIds]
  · obtain ⟨sender, hsender, rfl⟩ := List.mem_map.mp hpackage
    exact (mem_partyIds.mp hsender).2
  · rw [publishedInputs, List.map_map]
    exact (List.map_id _).symm ▸ nodup_partyIds threshold.participants

theorem foldlM_publishedInput {ids : List ParticipantId} (hne : ∀ id ∈ ids, id ≠ 0)
    (coordinator : pedPop.Coordinator) :
    (ids.map (publishedInput encoding threshold rng)).foldlM (addKeygenInput pedPop) coordinator =
      ids.foldlM (addDrawnInput pedPop threshold rng) coordinator := by
  induction ids generalizing coordinator with
  | nil => rfl
  | cons id rest ih =>
    rw [List.forall_mem_cons] at hne
    have hadd : addKeygenInput pedPop coordinator (publishedInput encoding threshold rng id) =
        addDrawnInput pedPop threshold rng coordinator id := by
      rw [addKeygenInput, publishedInput]
      simp only [encoding.deserialize_input, serialized, ok_bind, partyIndex, if_neg hne.1]
      rfl
    rw [List.map_cons, List.foldlM_cons, List.foldlM_cons, hadd]
    cases addDrawnInput pedPop threshold rng coordinator id with
    | error fault => rfl
    | ok coordinator => exact ih hne.2 coordinator

theorem aggregate_publishedInputs (id : ParticipantId) :
    (⟨sessionId, threshold, id⟩ : DkgSessionConfig).aggregateKeygenInputs pedPop
      (publishedInputs encoding threshold rng) = drawnAggInput pedPop threshold rng := by
  rw [aggregateKeygenInputs, publishedInputs, foldlM_publishedInput encoding threshold rng fun id hid =>
    (mem_partyIds.mp hid).1, drawnAggInput]

theorem advance_round2 (id : ParticipantId) (stored : ParticipantId → Option Round1Package) :
    advance (fun session => session.round2 pedPop (publishedInputs encoding threshold rng))
      ⟨⟨sessionId, threshold, id⟩, some ⟨pendingShares encoding threshold rng id, stored⟩⟩ =
        (drawnAggInput pedPop threshold rng >>= fun _ =>
          .ok (publishedShares encoding threshold rng id, ⟨⟨sessionId, threshold, id⟩,
            some ⟨pendingShares encoding threshold rng id,
              lastWith Round1Package.participantId (publishedInputs encoding threshold rng)⟩⟩)) := by
  have hvalid := validate_publishedInputs encoding threshold rng sessionId id
  have haggregate := aggregate_publishedInputs encoding threshold rng sessionId id
  rw [advance, FrostDkgSession.round2]
  simp only [hvalid, haggregate]
  cases drawnAggInput pedPop threshold rng with
  | error fault => rfl
  | ok aggInput => rfl

/-- The shares sent to one participant: one of every party. -/
theorem exists_sent (h : pedPop.Transmits) {id : ParticipantId}
    (hid : id ∈ partyIds threshold.participants) (sender : ParticipantId) : ∃ share : Scalar,
      ((drawnInput pedPop threshold rng sender).2.filter fun entry => entry.1 == (id.toNat : Scalar)) =
        [((id.toNat : Scalar), share)] := by
  set entries := (drawnInput pedPop threshold rng sender).2
  have hnd := nodup_indices threshold.participants
  have hperm := h.indices threshold.threshold.toUInt32 _ (sender.toUInt32 - 1) (rng sender) hnd
  have hcount : (entries.map Prod.fst).count (id.toNat : Scalar) = 1 := by
    refine List.count_eq_one_of_mem (hperm.nodup_iff.mpr hnd) (hperm.mem_iff.mpr ?_)
    exact List.mem_map.mpr ⟨id, hid, rfl⟩
  have hlen : (entries.filter fun entry => entry.1 == (id.toNat : Scalar)).length = 1 := by
    rw [← hcount, List.count, List.countP_map, List.countP_eq_length_filter]
    rfl
  obtain ⟨⟨index, share⟩, hone⟩ := List.length_eq_one_iff.mp hlen
  have hmem : (index, share) ∈ entries.filter fun entry => entry.1 == (id.toNat : Scalar) := by
    rw [hone]
    exact List.mem_singleton_self _
  have hindex : index = (id.toNat : Scalar) := by simpa using (List.mem_filter.mp hmem).2
  exact ⟨share, hindex ▸ hone⟩

theorem filter_publishedShares (h : pedPop.Transmits) {id sender : ParticipantId} {share : Scalar}
    (hone : ((drawnInput pedPop threshold rng sender).2.filter fun entry =>
      entry.1 == (id.toNat : Scalar)) = [((id.toNat : Scalar), share)]) :
    ((publishedShares encoding threshold rng sender).filter fun package => package.recipient == id) =
      [⟨sender, id, encoding.shareBytes share⟩] := by
  have hsame : ∀ entry ∈ (drawnInput pedPop threshold rng sender).2,
      (UInt16.ofNat entry.1.val == id) = (entry.1 == (id.toNat : Scalar)) := by
    intro entry hentry
    obtain ⟨recipient, -, heq⟩ := exists_recipient threshold rng h hentry
    have hinj : recipient = id ↔ (recipient.toNat : Scalar) = (id.toNat : Scalar) := by
      rw [scalar_natCast_inj recipient.toNat_lt id.toNat_lt, UInt16.toNat_inj]
    rw [heq, val_index, UInt16.ofNat_toNat, Bool.eq_iff_iff, beq_iff_eq, beq_iff_eq, hinj]
  have hfilter : ((drawnInput pedPop threshold rng sender).2.filter fun entry =>
      UInt16.ofNat entry.1.val == id) = [((id.toNat : Scalar), share)] := by
    rw [← hone]
    exact List.filter_congr hsame
  rw [publishedShares, pendingShares, List.map_map, List.filter_map]
  change ((drawnInput pedPop threshold rng sender).2.filter fun entry =>
    UInt16.ofNat entry.1.val == id).map _ = _
  rw [hfilter, List.map_singleton, Function.comp_apply, pendingShare, val_index, UInt16.ofNat_toNat]

theorem receiveLoop_eq_ok {packages : List Round2Package} {shares : List Scalar}
    (hshares : List.Forall₂ (fun package share =>
      pedPop.secretShares.deserialize package.bytes = .ok share) packages shares)
    (hnd : (packages.map Round2Package.sender).Nodup) {seen : Finset ParticipantId}
    (hnew : ∀ package ∈ packages, package.sender ∉ seen) :
    receiveLoop pedPop packages seen = .ok shares := by
  induction hshares generalizing seen with
  | nil => rfl
  | @cons package share packages shares hshare _ ih =>
    rw [List.map_cons, List.nodup_cons] at hnd
    rw [List.forall_mem_cons] at hnew
    have hrest : ∀ other ∈ packages, other.sender ∉ insert package.sender seen := by
      intro other hother hmem
      rcases Finset.mem_insert.mp hmem with heq | hmem
      · exact hnd.1 (heq ▸ List.mem_map_of_mem hother)
      · exact hnew.2 other hother hmem
    rw [receiveLoop, if_neg hnew.1, hshare, serialized, ok_bind, ih hnd.2 hrest, ok_bind]

/-- From the shares that all parties send, each one receives those drawn for it. -/
theorem receive_publishedShares (h : pedPop.Transmits) {id : ParticipantId}
    (hid : id ∈ partyIds threshold.participants) :
    receiveLoop pedPop ((((partyIds threshold.participants).map
      (publishedShares encoding threshold rng)).flatten).filter fun package => package.recipient == id) ∅ =
        .ok (drawnShares pedPop threshold rng id) ∧
      (drawnShares pedPop threshold rng id).length = threshold.participants.toNat := by
  choose share hone using exists_sent threshold rng h hid
  have hpackages : (((partyIds threshold.participants).map
      (publishedShares encoding threshold rng)).flatten).filter (fun package => package.recipient == id) =
        (partyIds threshold.participants).map fun sender =>
          (⟨sender, id, encoding.shareBytes (share sender)⟩ : Round2Package) := by
    rw [← List.flatMap_def, List.filter_flatMap, List.map_eq_flatMap]
    exact List.flatMap_congr fun sender _ => filter_publishedShares encoding threshold rng h (hone sender)
  have hshares : drawnShares pedPop threshold rng id = (partyIds threshold.participants).map share := by
    rw [drawnShares, List.map_eq_flatMap]
    exact List.flatMap_congr fun sender _ => by rw [hone sender, List.map_singleton]
  rw [hpackages, hshares, List.length_map, length_partyIds]
  refine ⟨receiveLoop_eq_ok ?_ ?_ fun _ _ => Finset.notMem_empty _, rfl⟩
  · rw [List.forall₂_map_left_iff, List.forall₂_map_right_iff, List.forall₂_same]
    exact fun sender _ => encoding.deserialize_share (share sender)
  · rw [List.map_map]
    exact (List.map_id _).symm ▸ nodup_partyIds threshold.participants

theorem finalize_published (h : pedPop.Transmits) {id : ParticipantId}
    (hid : id ∈ partyIds threshold.participants) :
    FrostDkgSession.finalize pedPop receiver ⟨⟨sessionId, threshold, id⟩,
      some ⟨pendingShares encoding threshold rng id,
        lastWith Round1Package.participantId (publishedInputs encoding threshold rng)⟩⟩
      (((partyIds threshold.participants).map (publishedShares encoding threshold rng)).flatten) =
        (drawnAggInput pedPop threshold rng >>= fun aggInput =>
          receiver.localShare aggInput id (drawnShares pedPop threshold rng id)) := by
  have hvalues : mapValues (lastWith Round1Package.participantId
      (publishedInputs encoding threshold rng)) = publishedInputs encoding threshold rng := by
    refine mapValues_lastWith_sorted ?_
    rw [publishedInputs, List.pairwise_map]
    exact partyIds_sorted threshold.participants
  have hlen : (publishedInputs encoding threshold rng).length = threshold.participants.toNat := by
    rw [publishedInputs, List.length_map, length_partyIds]
  obtain ⟨hreceive, hcount⟩ := receive_publishedShares encoding threshold rng h hid
  have haggregate := aggregate_publishedInputs encoding threshold rng sessionId id
  rw [finalize, okOr, ok_bind]
  simp only [hvalues, hlen, hreceive, hcount, haggregate, ok_bind, ne_eq, not_true_eq_false, if_false]
  rfl

theorem sessions_eq_direct (h : pedPop.Transmits) (hpositive : partyIds threshold.participants ≠ []) :
    (do
      let round1 ← collectResults
        (advance fun session => session.round1 pedPop (rng session.config.participantId))
        ((partyIds threshold.participants).map fun id => FrostDkgSession.new ⟨sessionId, threshold, id⟩)
      let round2 ← collectResults
        (advance fun session => session.round2 pedPop (round1.map Prod.fst)) (round1.map Prod.snd)
      collectResults (fun session => session.finalize pedPop receiver (round2.map Prod.fst).flatten)
        (round2.map Prod.snd)) = directFrostDkg pedPop receiver threshold rng := by
  obtain ⟨encoding⟩ := h.exists_encoding
  have hround1 := collectResults_eq_map fun id (hid : id ∈ partyIds threshold.participants) =>
    advance_round1 encoding threshold rng sessionId h (mem_partyIds.mp hid).1
  rw [collectResults_map, hround1, ok_bind, List.map_map, List.map_map, collectResults_map]
  have hround2 := advance_round2 encoding threshold rng sessionId
  change (collectResults (fun id => advance (fun session =>
    session.round2 pedPop (publishedInputs encoding threshold rng)) _) _ >>= _) = _
  simp only [Function.comp_apply]
  rw [directFrostDkg]
  cases hinput : drawnAggInput pedPop threshold rng with
  | error fault =>
    simp only [hinput, error_bind] at hround2
    rw [collectResults_eq_error hpositive fun id _ => hround2 id _]
    rfl
  | ok aggInput =>
    simp only [hinput, ok_bind] at hround2
    rw [collectResults_eq_map fun id _ => hround2 id _, ok_bind, ok_bind, List.map_map, List.map_map,
      collectResults_map]
    refine collectResults_congr fun id hid => ?_
    have hfinal := @finalize_published pedPop receiver encoding threshold rng sessionId h id hid
    rw [hinput, ok_bind] at hfinal
    exact hfinal

end Passes

section Ceremony

variable {pedPop : SimplePedPop} {receiver : ShareReceiver pedPop}

theorem partyIds_ne_nil {participants : UInt16} (h : participants ≠ 0) : partyIds participants ≠ [] := by
  have hpos : participants.toNat ≠ 0 := fun hnat => h (UInt16.toNat_inj.mp hnat)
  rw [ne_eq, ← List.length_eq_zero_iff, length_partyIds]
  exact hpos

theorem collectResults_createFrostSession (sessionId : String) (threshold : UInt16)
    {participants : UInt16} (hpositive : partyIds participants ≠ []) :
    collectResults (createFrostSession sessionId threshold participants) (partyIds participants) = (do
      let name ← SessionId.new sessionId
      let config ← ThresholdConfig.new threshold participants
      .ok ((partyIds participants).map fun id => FrostDkgSession.new ⟨name, config, id⟩)) := by
  cases hsession : SessionId.new sessionId with
  | error fault =>
    rw [collectResults_eq_error hpositive fun id _ => by rw [createFrostSession, hsession, error_bind]]
    rfl
  | ok name =>
    cases hconfig : ThresholdConfig.new threshold participants with
    | error fault =>
      rw [collectResults_eq_error hpositive fun id _ => by
        rw [createFrostSession, hsession, ok_bind, hconfig, error_bind]]
      rfl
    | ok config =>
      rw [ok_bind, ok_bind]
      refine collectResults_eq_map fun id hid => ?_
      rw [createFrostSession, hsession, ok_bind, hconfig, ok_bind, ParticipantId.new,
        if_neg (mem_partyIds.mp hid).1, ok_bind]

theorem runLocalFrostDkg_positive (h : pedPop.Transmits) (sessionId : String) (threshold : UInt16)
    {participants : UInt16} (hpositive : partyIds participants ≠ []) (rng : ParticipantId → pedPop.Rng) :
    runLocalFrostDkg pedPop receiver sessionId threshold participants rng = (do
      let _ ← SessionId.new sessionId
      let config ← ThresholdConfig.new threshold participants
      directFrostDkg pedPop receiver config rng) := by
  rw [runLocalFrostDkg, collectResults_createFrostSession sessionId threshold hpositive]
  cases SessionId.new sessionId with
  | error fault => rfl
  | ok name =>
    cases hconfig : ThresholdConfig.new threshold participants with
    | error fault => rfl
    | ok config =>
      obtain ⟨-, -, rfl⟩ := ThresholdConfig.new_eq_ok.mp hconfig
      rw [ok_bind, ok_bind, ok_bind, ok_bind, ok_bind]
      exact sessions_eq_direct ⟨threshold, participants⟩ rng name h hpositive

/-- For a positive number of parties the ceremony over sessions and packages is the one without
them, errors included. No party at all is a success, whatever the threshold and the session id. -/
theorem runLocalFrostDkg_eq_direct (h : pedPop.Transmits) (sessionId : String)
    (threshold participants : UInt16) (rng : ParticipantId → pedPop.Rng) :
    runLocalFrostDkg pedPop receiver sessionId threshold participants rng =
      if participants = 0 then .ok [] else (do
        let _ ← SessionId.new sessionId
        let config ← ThresholdConfig.new threshold participants
        directFrostDkg pedPop receiver config rng) := by
  by_cases hzero : participants = 0
  · subst hzero
    rfl
  · rw [if_neg hzero]
    exact runLocalFrostDkg_positive h sessionId threshold (partyIds_ne_nil hzero) rng

end Ceremony

section Witness

noncomputable def Binary.ofText {α : Type} (textOf : α → String) : Binary α :=
  ⟨(Json.ofText textOf).toVec, (Json.ofText textOf).fromSlice⟩

theorem Binary.ofText_roundTrips {α : Type} {textOf : α → String} (hinj : Function.Injective textOf) :
    (Binary.ofText textOf).RoundTrips := by
  intro a
  obtain ⟨text, hserialize, hdeserialize⟩ := Json.ofText_roundTrips hinj a
  exact ⟨asBytes text, hserialize, hdeserialize⟩

/-- The value of a polynomial, from its coefficients. -/
def horner (coefficients : List Scalar) (x : Scalar) : Scalar :=
  coefficients.foldr (fun coefficient rest => coefficient + x * rest) 0

instance countable_scalar : Countable Scalar := Finite.to_countable

/-- Every party shares a polynomial; its coefficients stand for the commitments to them. -/
noncomputable abbrev shamirPedPop : SimplePedPop where
  Rng := ℕ → Scalar
  KeygenInput := List Scalar
  Coordinator := ℕ × List Scalar
  AggKeygenInput := List Scalar
  genKeygenInput := fun threshold indices _ rng =>
    let coefficients := (List.range threshold.toNat).map rng
    (coefficients, indices.map fun x => (x, horner coefficients x))
  newCoordinator := fun threshold n => (n.toNat, List.replicate threshold.toNat 0)
  addInput := fun coordinator _ input =>
    .ok (coordinator.1 - 1, List.zipWith (fun a b => a + b) coordinator.2 input)
  finish := fun coordinator => if coordinator.1 = 0 then some coordinator.2 else none
  keygenInputs := Binary.ofText unaryText
  secretShares := Binary.ofText unaryText

noncomputable abbrev shamirReceiver : ShareReceiver shamirPedPop where
  SecretShare := Scalar × Scalar
  PairedSecretShare := Scalar × Scalar
  XonlyPairedShare := Scalar
  SharedKey := Scalar
  XonlySharedKey := Scalar
  collectSecretInputs := fun index shares => (index, shares.sum)
  receiveSecretShare := fun coefficients share =>
    if share.2 = horner coefficients share.1 then .ok (coefficients.headI, share.2)
    else .error "InvalidSecretShare"
  sharedKey := List.headI
  xonlyPairedShare := fun paired =>
    if paired.1 = 0 then none else some (conditionalNegate (isOddY (paired.1 • generator)) paired.2)
  xonlySharedKey := fun secret =>
    if secret = 0 then none else some (conditionalNegate (isOddY (secret • generator)) secret)
  publicKey := fun secret => secret • generator
  sharedKeys := Binary.ofText unaryText
  pairedShares := Binary.ofText unaryText

theorem exists_localShare {pedPop : SimplePedPop} {receiver : ShareReceiver pedPop}
    {aggInput : pedPop.AggKeygenInput} {id : ParticipantId} {shares : List Scalar}
    {paired : receiver.PairedSecretShare} {xonlyPaired : receiver.XonlyPairedShare}
    {xonlyShared : receiver.XonlySharedKey} {keyBytes shareBytes : List UInt8} (hid : id ≠ 0)
    (hreceive : receiver.receiveSecretShare aggInput
      (receiver.collectSecretInputs id.toNat shares) = .ok paired)
    (hpaired : receiver.xonlyPairedShare paired = some xonlyPaired)
    (hkey : receiver.xonlySharedKey (receiver.sharedKey aggInput) = some xonlyShared)
    (hkeyBytes : receiver.sharedKeys.serialize xonlyShared = .ok keyBytes)
    (hshareBytes : receiver.pairedShares.serialize xonlyPaired = .ok shareBytes) :
    ∃ share, receiver.localShare aggInput id shares = .ok share := by
  rw [ShareReceiver.localShare, participantShareIndex_eq hid, ok_bind, hreceive]
  simp only [ok_bind, hpaired, hkey, okOr, hkeyBytes, hshareBytes, serialized]
  exact ⟨_, rfl⟩

theorem shamirPedPop_transmits : shamirPedPop.Transmits where
  inputs := Binary.ofText_roundTrips unaryText_injective
  shares := Binary.ofText_roundTrips unaryText_injective
  indices := fun threshold indices _ rng _ => by
    rw [List.map_map]
    exact (List.map_id _).symm ▸ List.Perm.refl _

theorem drawnShares_shamir {threshold : ThresholdConfig} (rng : ParticipantId → ℕ → Scalar)
    {id : ParticipantId} (hid : id ∈ partyIds threshold.participants) :
    drawnShares shamirPedPop threshold rng id = (partyIds threshold.participants).map fun sender =>
      horner ((List.range threshold.threshold.toUInt32.toNat).map (rng sender)) id.toNat := by
  rw [drawnShares, List.map_eq_flatMap]
  refine List.flatMap_congr fun sender _ => ?_
  have hcount := List.count_eq_one_of_mem (nodup_indices threshold.participants)
    (List.mem_map.mpr ⟨id, hid, rfl⟩)
  rw [drawnInput, List.filter_map]
  change (List.map _ (List.map _ (List.filter (fun x => x == (id.toNat : Scalar)) _))) = _
  rw [List.filter_beq, hcount]
  rfl

/-- Two parties whose polynomials are `1 + x`. -/
theorem directFrostDkg_pair : ∃ shares,
    directFrostDkg shamirPedPop shamirReceiver ⟨2, 2⟩ (fun _ _ => 1) = .ok shares ∧
      shares.map LocalKeyShare.participantId = [1, 2] := by
  have hids : partyIds 2 = [1, 2] := by decide
  have hagg : drawnAggInput shamirPedPop ⟨2, 2⟩ (fun _ _ => 1) = .ok [1 + 1, 1 + 1] := by
    simp [drawnAggInput, hids, addDrawnInput, drawnInput, horner]
  have hshare : ∀ id : ParticipantId, id = 1 ∨ id = 2 → ∃ share, shamirReceiver.localShare
      [1 + 1, 1 + 1] id (drawnShares shamirPedPop ⟨2, 2⟩ (fun _ _ => 1) id) = .ok share := by
    intro id hid
    have hne : id ≠ 0 := by
      rcases hid with rfl | rfl
      · decide
      · decide
    have hdrawn : drawnShares shamirPedPop ⟨2, 2⟩ (fun _ _ => 1) id =
        [horner [1, 1] id.toNat, horner [1, 1] id.toNat] := by
      rw [drawnShares_shamir _ (by rw [hids]; simpa using hid), hids]
      rfl
    have htwo : (1 + 1 : Scalar) ≠ 0 := by
      rw [one_add_one_eq_two]
      exact two_ne_zero_scalar
    have hverify : (horner [1, 1] (id.toNat : Scalar) + (horner [1, 1] (id.toNat : Scalar) + 0)) =
        horner [1 + 1, 1 + 1] (id.toNat : Scalar) := by
      simp only [horner, List.foldr_cons, List.foldr_nil]
      ring
    have hreceive : shamirReceiver.receiveSecretShare [1 + 1, 1 + 1]
        (id.toNat, [horner [1, 1] (id.toNat : Scalar), horner [1, 1] id.toNat].sum) =
          .ok (1 + 1, horner [1, 1] (id.toNat : Scalar) + (horner [1, 1] (id.toNat : Scalar) + 0)) :=
      if_pos hverify
    have hpaired (share : Scalar) : shamirReceiver.xonlyPairedShare (1 + 1, share) = some _ := if_neg htwo
    have hkey : shamirReceiver.xonlySharedKey (shamirReceiver.sharedKey [1 + 1, 1 + 1]) = some _ :=
      if_neg htwo
    rw [hdrawn]
    exact exists_localShare hne hreceive (hpaired _) hkey rfl rfl
  rw [directFrostDkg, hagg, ok_bind, hids]
  obtain ⟨first, hfirst⟩ := hshare 1 (.inl rfl)
  obtain ⟨second, hsecond⟩ := hshare 2 (.inr rfl)
  refine ⟨[first, second], ?_, ?_⟩
  · rw [collectResults_eq_ok]
    exact .cons hfirst (.cons hsecond .nil)
  · rw [List.map_cons, List.map_singleton, (ShareReceiver.localShare_key hfirst).1,
      (ShareReceiver.localShare_key hsecond).1]

end Witness

theorem runLocalFrostDkg_eq_direct_pair : ∃ shares,
    runLocalFrostDkg shamirPedPop shamirReceiver "dkg-demo" 2 2 (fun _ _ => 1) = .ok shares ∧
      shares.map LocalKeyShare.participantId = [1, 2] := by
  obtain ⟨shares, hdirect, hids⟩ := directFrostDkg_pair
  have hname : SessionId.new "dkg-demo" = .ok "dkg-demo" := by decide
  have hconfig : ThresholdConfig.new 2 2 = .ok ⟨2, 2⟩ := by decide
  refine ⟨shares, ?_, hids⟩
  rw [runLocalFrostDkg_eq_direct shamirPedPop_transmits, if_neg (by decide), hname, ok_bind, hconfig,
    ok_bind, hdirect]

end DkgKit
