import DkgKit.BitcoinKeys
import DkgKit.OutputSigning
import DkgKit.SignedTweaks

/-! The tweaks `A • P + B • G` under which a quorum of the group key `P` signs for Taproot
output keys: those of child addresses and of silent payments. -/

open BigEndian LoopRules SignedTweaks

namespace DkgKit

section Tweaks

structure TaprootKeyTweak where
  outputXonly : Bytes 32
  tweak : Bytes 32
  negateKey : Bool
  deriving DecidableEq

variable (library : BitcoinLibrary)

/-- The second pass over the path: the chain code, the parent and the sum of the tweaks. -/
structure Bip32Accumulator where
  chainCode : Bytes 32
  parent : SecpPublicKey
  bip32Tweak : Option SecpSecretKey

def addBip32Tweak (il : Bytes 32) (ilScalar : Scalar) : Option SecpSecretKey → AnyhowResult SecpSecretKey
  | none => mapErr library "invalid BIP32 tweak" (SecpSecretKey.fromSlice il)
  | some acc => mapErr library "BIP32 tweak accumulation failed" (acc.addTweak ilScalar)

def accumulateIndex (acc : Bip32Accumulator) (index : UInt32) : AnyhowResult Bip32Accumulator := do
  let i := childHmac library acc.chainCode acc.parent index
  let il := leftHalf i
  let ilScalar ← mapErr library "invalid BIP32 tweak" (SecpScalar.fromBeBytes il)
  let parent ← mapErr library "BIP32 point derivation failed" (acc.parent.addExpTweak ilScalar)
  let chainCode := rightHalf i
  let bip32Tweak ← addBip32Tweak library il ilScalar acc.bip32Tweak
  .ok ⟨chainCode, parent, some bip32Tweak⟩

/-- The end of `taproot_child_key_tweak` and `silent_payment_output_tweak`: the key-path
output key of `internalPoint`, which is the group point plus `innerTweak` times the generator. -/
def keyPathTweak (internalPoint : SecpPublicKey) (innerTweak : SecpSecretKey) :
    AnyhowResult TaprootKeyTweak := do
  let (internalXonly, internalParity) := internalPoint.xOnlyPublicKey
  let internalWasOdd := internalParity == .odd
  let tapTweak ← internalXonly.tapTweakScalar library
  let (outputKey, outputParity) ← internalXonly.tapTweak library
  let outputWasOdd := outputParity == .odd
  let inner := if internalWasOdd then innerTweak.negate else innerTweak
  let inner ← mapErr library "taproot tweak accumulation failed" (inner.addTweak tapTweak)
  let tweakSecret := if outputWasOdd then inner.negate else inner
  .ok
    { outputXonly := outputKey.serialize
      tweak := tweakSecret.secretBytes
      negateKey := internalWasOdd ^^ outputWasOdd }

def taprootChildKeyTweak (accountKey : BitcoinAccountKey) (network : String)
    (path : BitcoinDerivationPath) : AnyhowResult TaprootKeyTweak := do
  let network ← parseNetwork network
  let (accountPublicKey, xpub) ← childXpub library accountKey network path
  let childPublicKey := xpub.publicKey
  let acc ← [path.change, path.addressIndex].foldlM (accumulateIndex library)
    ⟨accountKey.chainCode, accountPublicKey, none⟩
  let bip32Tweak ← okOrElse "empty derivation path" acc.bip32Tweak
  if acc.parent ≠ childPublicKey then
    .error (.err "recomputed BIP32 child does not match the Xpub derivation")
  else keyPathTweak library childPublicKey bip32Tweak

/-- The start of the two silent-payment tweaks: `B_spend + k • G` and `k`. -/
def silentPaymentPoint (groupKey : GroupKey) (k : Bytes 32) :
    AnyhowResult (SecpPublicKey × SecpSecretKey) := do
  let accountXonly ← mapErr library "invalid group x-only public key"
    (SecpXOnlyPublicKey.fromSlice groupKey.xonlyPublicKey)
  let pEven := accountXonly.publicKeyEven
  let kSecret ← mapErr library "invalid silent-payment tweak scalar" (SecpSecretKey.fromSlice k)
  let kScalar ← mapErr library "invalid silent-payment tweak scalar" (SecpScalar.fromBeBytes k)
  let point ← mapErr library "silent-payment point derivation failed" (pEven.addExpTweak kScalar)
  .ok (point, kSecret)

def silentPaymentOutputTweak (groupKey : GroupKey) (k : Bytes 32) : AnyhowResult TaprootKeyTweak := do
  let (internalPoint, kSecret) ← silentPaymentPoint library groupKey k
  keyPathTweak library internalPoint kSecret

def silentPaymentLeafTweak (groupKey : GroupKey) (k : Bytes 32) : AnyhowResult TaprootKeyTweak := do
  let (pPoint, kSecret) ← silentPaymentPoint library groupKey k
  let (pXonly, pParity) := pPoint.xOnlyPublicKey
  let pWasOdd := pParity == .odd
  let tweakSecret := if pWasOdd then kSecret.negate else kSecret
  .ok ⟨pXonly.serialize, tweakSecret.secretBytes, pWasOdd⟩

end Tweaks

section Standards

/-- The key-path output key of BIP341 for an internal key without scripts: the x-only lift
of the key, moved by the tagged hash of its x-coordinate. -/
def bip341OutputKey (tapTweakHash : List UInt8 → Bytes 32) (P : Point) : Option (Bytes 32) :=
  (pointFromXonlyBytes (pointToXonlyBytes P)).bind fun lift =>
    (scalarFromBytes (tapTweakHash (pointToXonlyBytes P).toList)).bind fun t =>
      if lift + t • generator ≠ 0 then some (pointToXonlyBytes (lift + t • generator)) else none

/-- `A • P + B • G` is the even point above `outputXonly`. -/
def TaprootKeyTweak.Describes (t : TaprootKeyTweak) (P : Point) : Prop :=
  ∃ B, scalarFromBytes t.tweak = some B ∧ pointFromXonlyBytes t.outputXonly =
    some (conditionalNegate t.negateKey 1 • P + B • generator)

variable {library : BitcoinLibrary}

theorem pointFromXonlyBytes_toXonlyBytes {P : Point} (hP : P ≠ 0) :
    pointFromXonlyBytes (pointToXonlyBytes P) = some (intoPointWithEvenY P).1 :=
  pointFromXonlyBytes_eq_some.mpr ⟨intoPointWithEvenY_ne_zero hP,
    pointToXonlyBytes_intoPointWithEvenY P, isOddY_intoPointWithEvenY hP⟩

def bip32Offset : Option SecpSecretKey → Scalar
  | none => 0
  | some sum => sum.val

theorem addBip32Tweak_eq_ok {il : Bytes 32} {ilScalar : Scalar} (hil : scalarFromBytes il = some ilScalar)
    {old : Option SecpSecretKey} {sum : SecpSecretKey} :
    addBip32Tweak library il ilScalar old = .ok sum ↔ bip32Offset old + ilScalar = sum.val := by
  cases old with
  | none =>
    rw [addBip32Tweak, mapErr_eq_ok, SecpSecretKey.fromSlice_eq_ok, hil, Option.some_inj, bip32Offset,
      zero_add]
  | some acc => rw [addBip32Tweak, mapErr_eq_ok, SecpSecretKey.addTweak_eq_ok, bip32Offset]

theorem accumulateIndex_eq_ok {acc acc' : Bip32Accumulator} {index : UInt32} :
    accumulateIndex library acc index = .ok acc' ↔ ∃ ilScalar,
      scalarFromBytes (leftHalf (childHmac library acc.chainCode acc.parent index)) = some ilScalar ∧
      ∃ parent : SecpPublicKey, acc.parent.val + ilScalar • generator = parent.val ∧
      ∃ sum : SecpSecretKey, bip32Offset acc.bip32Tweak + ilScalar = sum.val ∧
        ⟨rightHalf (childHmac library acc.chainCode acc.parent index), parent, some sum⟩ = acc' := by
  simp only [accumulateIndex, except_bind_eq_ok, mapErr_eq_ok, SecpScalar.fromBeBytes_eq_ok,
    SecpPublicKey.addExpTweak_eq_ok, Except.ok.injEq]
  refine exists_congr fun ilScalar => and_congr_right fun hil => ?_
  simp only [addBip32Tweak_eq_ok hil]

/-- The second pass keeps its parent at the account key plus the sum of the tweaks so far. -/
theorem accumulateIndex_parent {P : Point} (acc : Bip32Accumulator) (index : UInt32)
    (acc' : Bip32Accumulator) (hacc : acc.parent.val = P + bip32Offset acc.bip32Tweak • generator)
    (h : accumulateIndex library acc index = .ok acc') :
    acc'.parent.val = P + bip32Offset acc'.bip32Tweak • generator := by
  obtain ⟨ilScalar, -, parent, hparent, sum, hsum, rfl⟩ := accumulateIndex_eq_ok.mp h
  change parent.val = P + sum.val • generator
  rw [← hparent, hacc, ← hsum, add_smul, add_assoc]

end Standards

section Signs

variable {library : BitcoinLibrary}

def TaprootKeyTweak.ofSigned (T : SignedTweak Scalar) (Q : Point) : TaprootKeyTweak :=
  ⟨pointToXonlyBytes Q, scalarToBytes T.offset, T.negate⟩

theorem intoPointWithEvenY_fst (P : Point) :
    (intoPointWithEvenY P).1 = if isOddY P then -P else P := by
  rw [intoPointWithEvenY]
  split_ifs <;> rfl

theorem TaprootKeyTweak.describes_ofSigned {T : SignedTweak Scalar} {P Q : Point} (hQ : Q ≠ 0)
    (hT : T.apply generator P = (intoPointWithEvenY Q).1) : (ofSigned T Q).Describes P := by
  refine ⟨T.offset, scalarFromBytes_toBytes T.offset, ?_⟩
  have hsign : conditionalNegate T.negate 1 • P = if T.negate then -P else P := by
    cases T.negate <;> simp [conditionalNegate]
  change pointFromXonlyBytes (pointToXonlyBytes Q) =
    some (conditionalNegate T.negate 1 • P + T.offset • generator)
  rw [pointFromXonlyBytes_toXonlyBytes hQ, ← hT, SignedTweak.apply, hsign]

/-- The group key moved by `k` and lifted to its even point. -/
def leafSigned (k : Scalar) (odd : Bool) : SignedTweak Scalar := (SignedTweak.identity.add k).negateIf odd

/-- The lifted key moved by the output tweak and lifted once more. -/
def keyPathSigned (k : Scalar) (internalOdd : Bool) (tapTweak : Scalar) (outputOdd : Bool) :
    SignedTweak Scalar :=
  ((leafSigned k internalOdd).add tapTweak).negateIf outputOdd

theorem apply_leafSigned {P Q : Point} {k : Scalar} (h : P + k • generator = Q) :
    (leafSigned k (isOddY Q)).apply generator P = (intoPointWithEvenY Q).1 := by
  rw [leafSigned, SignedTweak.apply_negateIf, SignedTweak.apply_add, SignedTweak.apply_identity, h,
    intoPointWithEvenY_fst]

theorem apply_keyPathSigned {P internal Q : Point} {k tapTweak : Scalar}
    (hinternal : P + k • generator = internal)
    (hQ : (intoPointWithEvenY internal).1 + tapTweak • generator = Q) :
    (keyPathSigned k (isOddY internal) tapTweak (isOddY Q)).apply generator P =
      (intoPointWithEvenY Q).1 := by
  rw [keyPathSigned, SignedTweak.apply_negateIf, SignedTweak.apply_add, apply_leafSigned hinternal, hQ,
    intoPointWithEvenY_fst]

theorem SecpSecretKey.val_negate (key : SecpSecretKey) (negate : Bool) :
    (if negate then key.negate else key).val = if negate then -key.val else key.val := by
  cases negate <;> rfl

/-- The last lift: the encoding negates the scalar and the sign with the parity of the key. -/
theorem TaprootKeyTweak.ofSigned_negateIf {T : SignedTweak Scalar} {sum : SecpSecretKey}
    (hsum : T.offset = sum.val) (Q : SecpPublicKey) :
    ofSigned (T.negateIf (isOddY Q.val)) Q.val =
      ⟨Q.xOnlyPublicKey.1.serialize, (if isOddY Q.val then sum.negate else sum).secretBytes,
        T.negate ^^ isOddY Q.val⟩ := by
  rw [SecpPublicKey.serialize_xOnlyPublicKey, SecpSecretKey.secretBytes, SecpSecretKey.val_negate,
    ← hsum]
  rfl

theorem keyPathTweak_eq_ok {internal : SecpPublicKey} {inner : SecpSecretKey} {t : TaprootKeyTweak} :
    keyPathTweak library internal inner = .ok t ↔ ∃ tapTweak,
      scalarFromBytes (library.tapTweakHash (pointToXonlyBytes internal.val).toList) = some tapTweak ∧
      (leafSigned inner.val (isOddY internal.val)).offset + tapTweak ≠ 0 ∧
      ∃ Q : SecpPublicKey, (intoPointWithEvenY internal.val).1 + tapTweak • generator = Q.val ∧
        t = .ofSigned (keyPathSigned inner.val (isOddY internal.val) tapTweak (isOddY Q.val)) Q.val := by
  have hlift : internal.xOnlyPublicKey.1.point = (intoPointWithEvenY internal.val).1 := rfl
  have hoffset : (if isOddY internal.val then inner.negate else inner).val =
      (leafSigned inner.val (isOddY internal.val)).offset := by
    simp [SecpSecretKey.val_negate, leafSigned, SignedTweak.negateIf, SignedTweak.add,
      SignedTweak.identity]
  have hnegate : ∀ tapTweak, ((leafSigned inner.val (isOddY internal.val)).add tapTweak).negate =
      isOddY internal.val := fun _ => Bool.false_xor _
  simp only [keyPathTweak, except_bind_eq_ok, mapErr_eq_ok, SecpXOnlyPublicKey.tapTweakScalar_eq_ok,
    SecpXOnlyPublicKey.tapTweak_eq_ok, SecpSecretKey.addTweak_eq_ok, SecpPublicKey.xOnlyPublicKey_wasOdd,
    SecpPublicKey.serialize_xOnlyPublicKey, Except.ok.injEq, hlift, hoffset]
  constructor
  -- the tagged hash is read twice, for the scalar and inside `tap_tweak`
  · rintro ⟨tapTweak, htap, _, ⟨tapTweak', htap', Q, hQ, rfl⟩, sum, hsum, rfl⟩
    obtain rfl := Option.some.inj (htap.symm.trans htap')
    refine ⟨tapTweak, htap, hsum ▸ sum.property, Q, hQ, ?_⟩
    rw [keyPathSigned, TaprootKeyTweak.ofSigned_negateIf hsum, hnegate, Q.xOnlyPublicKey_wasOdd]
  · rintro ⟨tapTweak, htap, hne, Q, hQ, rfl⟩
    refine ⟨tapTweak, htap, _, ⟨tapTweak, htap, Q, hQ, rfl⟩, ⟨_, hne⟩, rfl, ?_⟩
    rw [keyPathSigned, @TaprootKeyTweak.ofSigned_negateIf _ ⟨_, hne⟩ rfl, hnegate, Q.xOnlyPublicKey_wasOdd]

theorem keyPathTweak_describes {P : Point} {internal : SecpPublicKey} {inner : SecpSecretKey}
    (hinternal : P + inner.val • generator = internal.val) {t : TaprootKeyTweak}
    (h : keyPathTweak library internal inner = .ok t) :
    t.Describes P ∧ bip341OutputKey library.tapTweakHash internal.val = some t.outputXonly := by
  obtain ⟨tapTweak, htap, -, Q, hQ, rfl⟩ := keyPathTweak_eq_ok.mp h
  refine ⟨TaprootKeyTweak.describes_ofSigned Q.property (apply_keyPathSigned hinternal hQ), ?_⟩
  have hne : (intoPointWithEvenY internal.val).1 + tapTweak • generator ≠ 0 := hQ ▸ Q.property
  rw [bip341OutputKey, pointFromXonlyBytes_toXonlyBytes internal.property, Option.bind_some, htap,
    Option.bind_some, if_pos hne, hQ]
  rfl

theorem silentPaymentPoint_eq_ok {groupKey : GroupKey} {k : Bytes 32} {point : SecpPublicKey}
    {kSecret : SecpSecretKey} :
    silentPaymentPoint library groupKey k = .ok (point, kSecret) ↔
      ∃ P, pointFromXonlyBytes groupKey.xonlyPublicKey = some P ∧
        scalarFromBytes k = some kSecret.val ∧ P + kSecret.val • generator = point.val := by
  simp only [silentPaymentPoint, except_bind_eq_ok, mapErr_eq_ok, SecpXOnlyPublicKey.fromSlice_eq_ok,
    SecpSecretKey.fromSlice_eq_ok, SecpScalar.fromBeBytes_eq_ok, SecpPublicKey.addExpTweak_eq_ok,
    Except.ok.injEq, Prod.mk.injEq]
  constructor
  · rintro ⟨xonly, hxonly, _, hsecret, scalar, hscalar, _, hpoint, rfl, rfl⟩
    obtain rfl := Option.some.inj (hsecret.symm.trans hscalar)
    exact ⟨xonly.point, hxonly, hsecret, hpoint⟩
  · rintro ⟨P, hP, hk, hpoint⟩
    obtain ⟨hne, -, heven⟩ := pointFromXonlyBytes_eq_some.mp hP
    exact ⟨⟨P, hne, heven⟩, hP, kSecret, hk, kSecret.val, hk, point, hpoint, rfl, rfl⟩

theorem taprootChildKeyTweak_eq_ok {accountKey : BitcoinAccountKey} {network : String}
    {path : BitcoinDerivationPath} {t : TaprootKeyTweak}
    (h : taprootChildKeyTweak library accountKey network path = .ok t) :
    ∃ parsed account xpub inner, parseNetwork network = .ok parsed ∧
      childXpub library accountKey parsed path = .ok (account, xpub) ∧
      account.val + inner.val • generator = xpub.publicKey.val ∧
      keyPathTweak library xpub.publicKey inner = .ok t := by
  rw [taprootChildKeyTweak, except_bind_eq_ok] at h
  obtain ⟨parsed, hparsed, h⟩ := h
  rw [except_bind_eq_ok] at h
  obtain ⟨⟨account, xpub⟩, hchild, h⟩ := h
  simp only [except_bind_eq_ok] at h
  obtain ⟨acc, hloop, inner, hinner, h⟩ := h
  split_ifs at h with hparent
  rw [not_not] at hparent
  have hsum : acc.bip32Tweak = some inner := by
    cases hacc : acc.bip32Tweak with
    | none => simp [hacc, okOrElse] at hinner
    | some sum => simpa [hacc, okOrElse] using hinner
  -- the two passes need not be compared step by step: the code checks that they end in one point
  have hpoint := foldlM_invariant (@accumulateIndex_parent library account.val) (by simp [bip32Offset]) hloop
  rw [hparent, hsum] at hpoint
  exact ⟨parsed, account, xpub, inner, hparsed, hchild, hpoint.symm, h⟩

theorem taprootChildAddressDescriptor_of_tweak {accountKey : BitcoinAccountKey} {network : Network}
    {path : BitcoinDerivationPath} {account : SecpPublicKey} {xpub : Xpub} {inner : SecpSecretKey}
    {t : TaprootKeyTweak} (hchild : childXpub library accountKey network path = .ok (account, xpub))
    (h : keyPathTweak library xpub.publicKey inner = .ok t) :
    ∃ descriptor, taprootChildAddressDescriptor library accountKey network path = .ok descriptor ∧
      descriptor.xonlyPublicKeyHex = hexText t.outputXonly.toList ∧
      descriptor.address = library.p2trTweaked t.outputXonly network := by
  obtain ⟨tapTweak, htap, -, Q, hQ, rfl⟩ := keyPathTweak_eq_ok.mp h
  rw [← SecpPublicKey.serialize_xOnlyPublicKey] at htap
  have houtput : xpub.publicKey.xOnlyPublicKey.1.tapTweak library = .ok Q.xOnlyPublicKey :=
    SecpXOnlyPublicKey.tapTweak_eq_ok.mpr ⟨tapTweak, htap, Q, hQ, rfl⟩
  have hkey : Q.xOnlyPublicKey.1.serialize = pointToXonlyBytes Q.val := Q.serialize_xOnlyPublicKey
  simp only [taprootChildAddressDescriptor, hchild, houtput, bind, Except.bind]
  exact ⟨_, rfl, congrArg (fun key => hexText (List.Vector.toList key)) hkey,
    congrArg (fun key => library.p2trTweaked key network) hkey⟩

end Signs

section OutputKeys

variable {library : BitcoinLibrary} {groupKey : GroupKey} {P : Point}

theorem taprootChildKeyTweak_describes (hP : pointFromXonlyBytes groupKey.xonlyPublicKey = some P)
    {chainCode : Bytes 32} {network : String} {path : BitcoinDerivationPath} {t : TaprootKeyTweak}
    (h : taprootChildKeyTweak library ⟨groupKey, chainCode⟩ network path = .ok t) :
    t.Describes P ∧ ∃ child, [path.change, path.addressIndex].foldlM (bip32Child library.hmacSha512)
      (P, chainCode) = some child ∧ bip341OutputKey library.tapTweakHash child.1 = some t.outputXonly := by
  obtain ⟨parsed, account, xpub, inner, -, hchild, hinner, htweak⟩ := taprootChildKeyTweak_eq_ok h
  obtain ⟨haccount, hpath⟩ := childXpub_bip32 hchild
  obtain rfl : account.val = P := Option.some.inj (haccount.symm.trans hP)
  obtain ⟨hdescribes, houtput⟩ := keyPathTweak_describes hinner htweak
  exact ⟨hdescribes, _, hpath, houtput⟩

theorem taprootChildKeyTweak_address {accountKey : BitcoinAccountKey} {network : String}
    {path : BitcoinDerivationPath} {t : TaprootKeyTweak}
    (h : taprootChildKeyTweak library accountKey network path = .ok t) :
    ∃ descriptor parsed, parseNetwork network = .ok parsed ∧
      taprootChildAddressDescriptorForNetwork library accountKey network path = .ok descriptor ∧
      descriptor.xonlyPublicKeyHex = hexText t.outputXonly.toList ∧
      descriptor.address = library.p2trTweaked t.outputXonly parsed := by
  obtain ⟨parsed, account, xpub, inner, hparsed, hchild, -, htweak⟩ := taprootChildKeyTweak_eq_ok h
  obtain ⟨descriptor, hdescriptor, hkey, haddress⟩ :=
    taprootChildAddressDescriptor_of_tweak hchild htweak
  refine ⟨descriptor, parsed, hparsed, ?_, hkey, haddress⟩
  rw [taprootChildAddressDescriptorForNetwork, hparsed]
  exact hdescriptor

theorem silentPaymentOutputTweak_describes (hP : pointFromXonlyBytes groupKey.xonlyPublicKey = some P)
    {k : Bytes 32} {t : TaprootKeyTweak} (h : silentPaymentOutputTweak library groupKey k = .ok t) :
    t.Describes P ∧ ∃ kScalar, scalarFromBytes k = some kScalar ∧
      bip341OutputKey library.tapTweakHash (P + kScalar • generator) = some t.outputXonly := by
  rw [silentPaymentOutputTweak, except_bind_eq_ok] at h
  obtain ⟨⟨point, kSecret⟩, hpoint, htweak⟩ := h
  obtain ⟨P', hP', hk, hpoint⟩ := silentPaymentPoint_eq_ok.mp hpoint
  obtain rfl : P' = P := Option.some.inj (hP'.symm.trans hP)
  obtain ⟨hdescribes, houtput⟩ := keyPathTweak_describes hpoint htweak
  exact ⟨hdescribes, kSecret.val, hk, hpoint.symm ▸ houtput⟩

theorem silentPaymentLeafTweak_eq_ok {k : Bytes 32} {t : TaprootKeyTweak} :
    silentPaymentLeafTweak library groupKey k = .ok t ↔ ∃ point kSecret,
      silentPaymentPoint library groupKey k = .ok (point, kSecret) ∧
      t = .ofSigned (leafSigned kSecret.val (isOddY point.val)) point.val := by
  rw [silentPaymentLeafTweak, except_bind_eq_ok, Prod.exists]
  refine exists_congr fun point => exists_congr fun kSecret => and_congr_right fun _ => ?_
  have hsigned := TaprootKeyTweak.ofSigned_negateIf (T := SignedTweak.identity.add kSecret.val)
    (zero_add kSecret.val) point
  simp only [SecpPublicKey.xOnlyPublicKey_wasOdd, Except.ok.injEq]
  rw [leafSigned, hsigned, eq_comm]
  simp [SignedTweak.identity, SignedTweak.add]

theorem silentPaymentLeafTweak_describes (hP : pointFromXonlyBytes groupKey.xonlyPublicKey = some P)
    {k : Bytes 32} {t : TaprootKeyTweak} (h : silentPaymentLeafTweak library groupKey k = .ok t) :
    t.Describes P ∧ ∃ kScalar, scalarFromBytes k = some kScalar ∧
      t.outputXonly = pointToXonlyBytes (P + kScalar • generator) := by
  obtain ⟨point, kSecret, hpoint, rfl⟩ := silentPaymentLeafTweak_eq_ok.mp h
  obtain ⟨P', hP', hk, hpoint⟩ := silentPaymentPoint_eq_ok.mp hpoint
  obtain rfl : P' = P := Option.some.inj (hP'.symm.trans hP)
  refine ⟨TaprootKeyTweak.describes_ofSigned point.property (apply_leafSigned hpoint), kSecret.val, hk, ?_⟩
  rw [hpoint]
  rfl

end OutputKeys

section Instances

/-- Hash functions with constant values: every child tweak is `1` and every output tweak `5`. -/
def plainLibrary : BitcoinLibrary where
  hmacSha512 _ _ := ⟨(scalarToBytes 1).toList ++ List.replicate 32 0, by simp⟩
  hash160 _ := List.Vector.replicate 20 0
  tapTweakHash _ := scalarToBytes 5
  p2trTweaked _ _ := ""
  errorText _ := ""

def generatorKey : GroupKey := ⟨pointToXonlyBytes generator, []⟩

theorem isOddY_generator : isOddY generator = false := by
  have hy : ((generatorCoords.2 : ℕ) : Coordinate).val = generatorCoords.2 :=
    ZMod.val_natCast_of_lt (by norm_num [generatorCoords, fieldPrime])
  change (((generatorCoords.2 : ℕ) : Coordinate).val % 2 == 1) = false
  rw [hy]
  norm_num [generatorCoords]

theorem pointFromXonlyBytes_generatorKey :
    pointFromXonlyBytes generatorKey.xonlyPublicKey = some generator :=
  pointFromXonlyBytes_eq_some.mpr ⟨generator_ne_zero, rfl, isOddY_generator⟩

theorem childHmac_plain (chainCode : Bytes 32) (parent : SecpPublicKey) (index : UInt32) :
    scalarFromBytes (leftHalf (childHmac plainLibrary chainCode parent index)) = some 1 :=
  scalarFromBytes_eq_some.mpr (Subtype.ext (List.take_left' (scalarToBytes 1).toList_length).symm)

def generatorMultiple (m : ℕ) (h : 0 < m ∧ m < 65536) : SecpPublicKey :=
  ⟨(m : Scalar) • generator, fun h0 => scalar_natCast_ne_zero h.1 h.2 (smul_generator_eq_zero.mp h0)⟩

theorem natCast_succ_smul_generator (m : ℕ) :
    (m : Scalar) • generator + (1 : Scalar) • generator = ((m + 1 : ℕ) : Scalar) • generator := by
  rw [← add_smul, Nat.cast_succ]

theorem deriveIndex_plain {xpub : Xpub} {m : ℕ} (hkey : xpub.publicKey.val = (m : Scalar) • generator)
    (hm : m + 1 < 65536) : ∃ child, deriveIndex plainLibrary xpub 0 = .ok child ∧
      child.publicKey.val = ((m + 1 : ℕ) : Scalar) • generator := by
  refine ⟨_, deriveIndex_eq_ok.mpr ⟨by decide, .one, childHmac_plain _ _ _,
    generatorMultiple (m + 1) ⟨m.succ_pos, hm⟩, ?_, rfl⟩, rfl⟩
  rw [hkey]
  exact natCast_succ_smul_generator m

theorem accumulateIndex_plain {acc : Bip32Accumulator} {m n : ℕ}
    (hparent : acc.parent.val = (m : Scalar) • generator) (hsum : bip32Offset acc.bip32Tweak = n)
    (hm : m + 1 < 65536) (hn : n + 1 < 65536) :
    ∃ acc', accumulateIndex plainLibrary acc 0 = .ok acc' ∧
      acc'.parent.val = ((m + 1 : ℕ) : Scalar) • generator ∧
      ∃ sum, acc'.bip32Tweak = some sum ∧ sum.val = (n + 1 : ℕ) := by
  refine ⟨_, accumulateIndex_eq_ok.mpr ⟨1, childHmac_plain _ _ _,
    generatorMultiple (m + 1) ⟨m.succ_pos, hm⟩, ?_, ⟨(n + 1 : ℕ), scalar_natCast_ne_zero n.succ_pos hn⟩, ?_,
    rfl⟩, rfl, _, rfl, rfl⟩
  · rw [hparent]
    exact natCast_succ_smul_generator m
  · rw [hsum]
    exact (Nat.cast_succ n).symm

theorem conditionalNegate_add_ne_zero {m n : ℕ} (hlt : m < n) (hn : m + n < 65536) (negate : Bool) :
    conditionalNegate negate (m : Scalar) + (n : Scalar) ≠ 0 := by
  cases negate with
  | false =>
    have hne := scalar_natCast_ne_zero (show 0 < m + n by omega) hn
    rwa [Nat.cast_add] at hne
  | true =>
    have hne := scalar_natCast_ne_zero (show 0 < n - m by omega) (show n - m < 65536 by omega)
    rwa [Nat.cast_sub hlt.le, sub_eq_neg_add] at hne

theorem keyPathTweak_plain {internal : SecpPublicKey} {inner : SecpSecretKey} {m n : ℕ}
    (hinternal : internal.val = (m : Scalar) • generator) (hinner : inner.val = n) (hm : m < 5)
    (hn : n < 5) : ∃ t, keyPathTweak plainLibrary internal inner = .ok t := by
  have hpoint : (intoPointWithEvenY internal.val).1 + (5 : Scalar) • generator ≠ 0 := by
    rw [hinternal, ← conditionalNegate_smul_generator, ← add_smul]
    exact fun h => conditionalNegate_add_ne_zero hm (by omega) _ (smul_generator_eq_zero.mp h)
  have hsum : (leafSigned inner.val (isOddY internal.val)).offset + 5 ≠ 0 := by
    have hoffset : (leafSigned (n : Scalar) (isOddY internal.val)).offset =
        conditionalNegate (isOddY internal.val) n := by
      simp [leafSigned, SignedTweak.negateIf, SignedTweak.add, SignedTweak.identity, conditionalNegate]
    rw [hinner, hoffset]
    exact conditionalNegate_add_ne_zero hn (by omega) _
  exact ⟨_, keyPathTweak_eq_ok.mpr ⟨5, scalarFromBytes_toBytes 5, hsum, ⟨_, hpoint⟩, rfl, rfl⟩⟩

theorem childXpub_plain (chainCode : Bytes 32) : ∃ xpub,
    childXpub plainLibrary ⟨generatorKey, chainCode⟩ .bitcoin (.bip86 0 0 0) =
      .ok (⟨generator, generator_ne_zero⟩, xpub) ∧
    xpub.publicKey.val = ((3 : ℕ) : Scalar) • generator := by
  have hone : generator = ((1 : ℕ) : Scalar) • generator := by rw [Nat.cast_one, one_smul]
  let account : Xpub :=
    ⟨.main, 3, List.Vector.replicate 4 0, .hardened 0, ⟨generator, generator_ne_zero⟩, chainCode⟩
  obtain ⟨first, hfirst, hfirstKey⟩ := @deriveIndex_plain account 1 hone (by decide)
  obtain ⟨second, hsecond, hsecondKey⟩ := deriveIndex_plain hfirstKey (by decide)
  refine ⟨second, ?_, hsecondKey⟩
  simp only [childXpub, except_bind_eq_ok, mapErr_eq_ok, SecpXOnlyPublicKey.fromSlice_eq_ok]
  refine ⟨⟨generator, generator_ne_zero, isOddY_generator⟩, pointFromXonlyBytes_generatorKey, account, rfl,
    second, ?_, rfl⟩
  exact except_bind_eq_ok.mpr ⟨first, hfirst, except_bind_eq_ok.mpr ⟨second, hsecond, rfl⟩⟩

theorem taprootChildKeyTweak_plain (chainCode : Bytes 32) : ∃ t,
    taprootChildKeyTweak plainLibrary ⟨generatorKey, chainCode⟩ "bitcoin" (.bip86 0 0 0) = .ok t := by
  have hone : generator = ((1 : ℕ) : Scalar) • generator := by rw [Nat.cast_one, one_smul]
  obtain ⟨xpub, hxpub, hkey⟩ := childXpub_plain chainCode
  obtain ⟨first, hfirst, hfirstParent, firstSum, hfirstSum, hfirstVal⟩ :=
    @accumulateIndex_plain ⟨chainCode, ⟨generator, generator_ne_zero⟩, none⟩ 1 0 hone Nat.cast_zero.symm
      (by decide) (by decide)
  obtain ⟨second, hsecond, hsecondParent, sum, hsum, hval⟩ :=
    @accumulateIndex_plain first 2 1 hfirstParent (by rw [hfirstSum]; exact hfirstVal)
      (by decide) (by decide)
  obtain ⟨t, ht⟩ := keyPathTweak_plain hkey hval (by decide) (by decide)
  have hparsed : parseNetwork "bitcoin" = .ok .bitcoin := rfl
  have hloop : [(0 : UInt32), 0].foldlM (accumulateIndex plainLibrary)
      ⟨chainCode, ⟨generator, generator_ne_zero⟩, none⟩ = .ok second :=
    except_bind_eq_ok.mpr ⟨first, hfirst, except_bind_eq_ok.mpr ⟨second, hsecond, rfl⟩⟩
  have hparent : second.parent = xpub.publicKey := Subtype.ext (hsecondParent.trans hkey.symm)
  refine ⟨t, ?_⟩
  rw [taprootChildKeyTweak, hparsed]
  refine except_bind_eq_ok.mpr ⟨.bitcoin, rfl, except_bind_eq_ok.mpr ⟨_, hxpub, ?_⟩⟩
  refine except_bind_eq_ok.mpr ⟨second, hloop, except_bind_eq_ok.mpr ⟨sum, by rw [hsum]; rfl, ?_⟩⟩
  rw [if_neg (not_not.mpr hparent)]
  exact ht

theorem silentPaymentPoint_plain : silentPaymentPoint plainLibrary generatorKey (scalarToBytes 1) =
    .ok (generatorMultiple 2 (by decide), .one) := by
  refine silentPaymentPoint_eq_ok.mpr ⟨generator, pointFromXonlyBytes_generatorKey,
    scalarFromBytes_toBytes 1, ?_⟩
  have htwo := natCast_succ_smul_generator 1
  rw [Nat.cast_one, one_smul] at htwo
  exact (congrArg (generator + ·) (one_smul Scalar generator)).trans htwo

end Instances

section Spending

/-- The tweaks of a group key that lifts to `P` describe the real output keys: `A • P + B • G`
is the even point above the key that the child address commits to, that BIP341 derives from
`P + k • G`, or that is `P + k • G` itself. -/
theorem taproot_tweaks_describe_output_keys (library : BitcoinLibrary) (groupKey : GroupKey) {P : Point}
    (hP : pointFromXonlyBytes groupKey.xonlyPublicKey = some P) :
    (∀ chainCode network path t,
      taprootChildKeyTweak library ⟨groupKey, chainCode⟩ network path = .ok t →
      t.Describes P ∧
      (∃ child, [path.change, path.addressIndex].foldlM (bip32Child library.hmacSha512) (P, chainCode) =
        some child ∧ bip341OutputKey library.tapTweakHash child.1 = some t.outputXonly) ∧
      ∃ descriptor parsed, parseNetwork network = .ok parsed ∧
        taprootChildAddressDescriptorForNetwork library ⟨groupKey, chainCode⟩ network path =
          .ok descriptor ∧
        descriptor.xonlyPublicKeyHex = hexText t.outputXonly.toList ∧
        descriptor.address = library.p2trTweaked t.outputXonly parsed) ∧
    (∀ k t, silentPaymentOutputTweak library groupKey k = .ok t →
      t.Describes P ∧ ∃ kScalar, scalarFromBytes k = some kScalar ∧
        bip341OutputKey library.tapTweakHash (P + kScalar • generator) = some t.outputXonly) ∧
    ∀ k t, silentPaymentLeafTweak library groupKey k = .ok t →
      t.Describes P ∧ ∃ kScalar, scalarFromBytes k = some kScalar ∧
        t.outputXonly = pointToXonlyBytes (P + kScalar • generator) := by
  refine ⟨fun chainCode network path t h => ?_, fun k t h => silentPaymentOutputTweak_describes hP h,
    fun k t h => silentPaymentLeafTweak_describes hP h⟩
  obtain ⟨hdescribes, hchild⟩ := taprootChildKeyTweak_describes hP h
  exact ⟨hdescribes, hchild, taprootChildKeyTweak_address h⟩

theorem taproot_tweaks_describe_output_keys_generator :
    ∃ child output leaf,
      taprootChildKeyTweak plainLibrary ⟨generatorKey, List.Vector.replicate 32 0⟩ "bitcoin"
        (.bip86 0 0 0) = .ok child ∧
      silentPaymentOutputTweak plainLibrary generatorKey (scalarToBytes 1) = .ok output ∧
      silentPaymentLeafTweak plainLibrary generatorKey (scalarToBytes 1) = .ok leaf ∧
      child.Describes generator ∧ output.Describes generator ∧ leaf.Describes generator := by
  obtain ⟨hchild, houtput, hleaf⟩ := taproot_tweaks_describe_output_keys plainLibrary generatorKey
    pointFromXonlyBytes_generatorKey
  obtain ⟨child, hc⟩ := taprootChildKeyTweak_plain (List.Vector.replicate 32 0)
  obtain ⟨output, ho⟩ : ∃ t, silentPaymentOutputTweak plainLibrary generatorKey (scalarToBytes 1) =
      .ok t := by
    rw [silentPaymentOutputTweak, silentPaymentPoint_plain]
    exact keyPathTweak_plain rfl Nat.cast_one.symm (by decide) (by decide)
  have hl := silentPaymentLeafTweak_eq_ok.mpr ⟨_, _, silentPaymentPoint_plain, rfl⟩
  exact ⟨child, output, _, hc, ho, hl, (hchild _ _ _ _ hc).1, (houtput _ _ ho).1, (hleaf _ _ hl).1⟩

end Spending

end DkgKit
