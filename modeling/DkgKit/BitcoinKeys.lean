import DkgKit.Keygen

/-! The keys of `dkgkit-bitcoin`: public, x-only and secret keys, and the derivation of child
addresses below a group key. The hash functions are parameters; keys, scalars and child
derivation follow the documentation of `secp256k1` and `bitcoin`. -/

open BigEndian LoopRules

namespace DkgKit

/-- A call into `dkgkit-bitcoin` that does not return `Ok`. -/
inductive AnyhowFault
  | err (message : String)
  | panic (panic : Panic)
  deriving DecidableEq, Repr

abbrev AnyhowResult (α : Type) := Except AnyhowFault α

/-- The errors of `secp256k1` and `bip32`; the latter wrap the former. -/
inductive LibraryError
  | invalidPublicKey
  | invalidSecretKey
  | invalidTweak
  | outOfRange
  | cannotDeriveFromHardenedKey
  | invalidChildNumber (index : UInt32)
  | secp256k1 (error : LibraryError)
  deriving DecidableEq, Repr

inductive Network
  | bitcoin
  | testnet
  | testnet4
  | signet
  | regtest
  deriving DecidableEq, Repr

inductive NetworkKind
  | main
  | test
  deriving DecidableEq, Repr

def Network.kind : Network → NetworkKind
  | .bitcoin => .main
  | _ => .test

/-- The text of `format!("{network:?}")`. -/
def Network.debugText : Network → String
  | .bitcoin => "Bitcoin"
  | .testnet => "Testnet"
  | .testnet4 => "Testnet4"
  | .signet => "Signet"
  | .regtest => "Regtest"

def parseNetwork (network : String) : AnyhowResult Network :=
  if network = "bitcoin" ∨ network = "mainnet" then .ok .bitcoin
  else if network = "testnet" then .ok .testnet
  else if network = "testnet4" then .ok .testnet4
  else if network = "signet" then .ok .signet
  else if network = "regtest" then .ok .regtest
  else .error (.err ("unsupported Bitcoin network: " ++ network))

/-- What the derivations use of `bitcoin` besides keys: hash functions and texts. -/
structure BitcoinLibrary where
  hmacSha512 : Bytes 32 → List UInt8 → Bytes 64
  hash160 : List UInt8 → Bytes 20
  tapTweakHash : List UInt8 → Bytes 32
  p2trTweaked : Bytes 32 → Network → String
  errorText : LibraryError → String

section Keys

abbrev SecpPublicKey := {P : Point // P ≠ 0}

/-- An x-only key is held as its point with even ordinate. -/
structure SecpXOnlyPublicKey where
  point : Point
  ne_zero : point ≠ 0
  even : isOddY point = false

abbrev SecpSecretKey := NonZeroScalar

inductive Parity
  | even
  | odd
  deriving DecidableEq, Repr

namespace SecpPublicKey

def serialize (key : SecpPublicKey) : Bytes 33 := pointToBytes key.val

def xOnlyPublicKey (key : SecpPublicKey) : SecpXOnlyPublicKey × Parity :=
  (⟨(intoPointWithEvenY key.val).1, intoPointWithEvenY_ne_zero key.property,
    isOddY_intoPointWithEvenY key.property⟩, if isOddY key.val then .odd else .even)

def addExpTweak (key : SecpPublicKey) (tweak : Scalar) : Except LibraryError SecpPublicKey :=
  if h : key.val + tweak • generator ≠ 0 then .ok ⟨key.val + tweak • generator, h⟩
  else .error .invalidTweak

end SecpPublicKey

namespace SecpXOnlyPublicKey

def fromSlice (bytes : Bytes 32) : Except LibraryError SecpXOnlyPublicKey :=
  match h : pointFromXonlyBytes bytes with
  | some P => .ok ⟨P, (pointFromXonlyBytes_eq_some.mp h).1, (pointFromXonlyBytes_eq_some.mp h).2.2⟩
  | none => .error .invalidPublicKey

def serialize (key : SecpXOnlyPublicKey) : Bytes 32 := pointToXonlyBytes key.point

/-- `public_key(Parity::Even)`. -/
def publicKeyEven (key : SecpXOnlyPublicKey) : SecpPublicKey := ⟨key.point, key.ne_zero⟩

end SecpXOnlyPublicKey

def SecpScalar.fromBeBytes (bytes : Bytes 32) : Except LibraryError Scalar :=
  match scalarFromBytes bytes with
  | some s => .ok s
  | none => .error .outOfRange

namespace SecpSecretKey

def fromSlice (bytes : Bytes 32) : Except LibraryError SecpSecretKey :=
  match scalarFromBytes bytes with
  | some s => if h : s ≠ 0 then .ok ⟨s, h⟩ else .error .invalidSecretKey
  | none => .error .invalidSecretKey

def negate (key : SecpSecretKey) : SecpSecretKey := ⟨-key.val, neg_ne_zero.mpr key.property⟩

def addTweak (key : SecpSecretKey) (tweak : Scalar) : Except LibraryError SecpSecretKey :=
  if h : key.val + tweak ≠ 0 then .ok ⟨key.val + tweak, h⟩ else .error .invalidTweak

def secretBytes (key : SecpSecretKey) : Bytes 32 := scalarToBytes key.val

end SecpSecretKey

variable (library : BitcoinLibrary)

/-- `TapTweakHash::from_key_and_tweak(key, None).to_scalar()`. -/
def SecpXOnlyPublicKey.tapTweakScalar (key : SecpXOnlyPublicKey) : AnyhowResult Scalar :=
  match SecpScalar.fromBeBytes (library.tapTweakHash key.serialize.toList) with
  | .ok s => .ok s
  | .error _ => .error (.panic (.expect "hash value greater than curve order"))

/-- `tap_tweak(&secp, None)`. -/
def SecpXOnlyPublicKey.tapTweak (key : SecpXOnlyPublicKey) :
    AnyhowResult (SecpXOnlyPublicKey × Parity) := do
  let tweak ← key.tapTweakScalar library
  match key.publicKeyEven.addExpTweak tweak with
  | .ok output => .ok output.xOnlyPublicKey
  | .error _ => .error (.panic (.expect "Tap tweak failed"))

end Keys

section Derivation

structure BitcoinDerivationPath where
  purpose : UInt32
  coinType : UInt32
  account : UInt32
  change : UInt32
  addressIndex : UInt32
  deriving DecidableEq

/-- BIP86-style receive path for Bitcoin mainnet. -/
def BitcoinDerivationPath.bip86 (account change addressIndex : UInt32) : BitcoinDerivationPath :=
  ⟨86, 0, account, change, addressIndex⟩

structure BitcoinAccountKey where
  groupKey : GroupKey
  chainCode : Bytes 32
  deriving DecidableEq

structure BitcoinAddressDescriptor where
  path : BitcoinDerivationPath
  network : String
  address : String
  accountXonlyPublicKeyHex : String
  internalXonlyPublicKeyHex : String
  xonlyPublicKeyHex : String
  chainCodeHex : String
  deriving DecidableEq

inductive ChildNumber
  | normal (index : UInt32)
  | hardened (index : UInt32)
  deriving DecidableEq

def ChildNumber.fromNormalIdx (index : UInt32) : Except LibraryError ChildNumber :=
  if index.toNat < 2 ^ 31 then .ok (.normal index) else .error (.invalidChildNumber index)

def ChildNumber.fromHardenedIdx (index : UInt32) : Except LibraryError ChildNumber :=
  if index.toNat < 2 ^ 31 then .ok (.hardened index) else .error (.invalidChildNumber index)

structure Xpub where
  network : NetworkKind
  depth : UInt8
  parentFingerprint : Bytes 4
  childNumber : ChildNumber
  publicKey : SecpPublicKey
  chainCode : Bytes 32

def leftHalf (bytes : Bytes 64) : Bytes 32 := ⟨bytes.toList.take 32, by simp⟩

def rightHalf (bytes : Bytes 64) : Bytes 32 := ⟨bytes.toList.drop 32, by simp⟩

variable (library : BitcoinLibrary)

/-- The HMAC of a compressed parent key and a big-endian index under the chain code. -/
def childHmac (chainCode : Bytes 32) (parent : SecpPublicKey) (index : UInt32) : Bytes 64 :=
  library.hmacSha512 chainCode (parent.serialize.toList ++ (encode 4 index.toNat).toList)

def Xpub.fingerprint (xpub : Xpub) : Bytes 4 :=
  ⟨(library.hash160 xpub.publicKey.serialize.toList).toList.take 4, by simp⟩

def wrapSecp {α : Type} : Except LibraryError α → Except LibraryError α :=
  Except.mapError .secp256k1

def Xpub.ckdPub (xpub : Xpub) : ChildNumber → Except LibraryError Xpub
  | .hardened _ => .error .cannotDeriveFromHardenedKey
  | .normal index => do
    let hmac := childHmac library xpub.chainCode xpub.publicKey index
    let tweak ← wrapSecp (SecpSecretKey.fromSlice (leftHalf hmac))
    let publicKey ← wrapSecp (xpub.publicKey.addExpTweak tweak.val)
    .ok
      { network := xpub.network
        depth := xpub.depth + 1
        parentFingerprint := xpub.fingerprint library
        childNumber := .normal index
        publicKey
        chainCode := rightHalf hmac }

/-- `map_err(|err| anyhow!("{context}: {err}"))`. -/
def mapErr {α : Type} (context : String) : Except LibraryError α → AnyhowResult α :=
  Except.mapError fun error => .err (context ++ ": " ++ library.errorText error)

def okOrElse {α : Type} (message : String) : Option α → AnyhowResult α
  | some a => .ok a
  | none => .error (.err message)

/-- The account-level key of a path, above its two unhardened indices. -/
def accountXpub (accountKey : BitcoinAccountKey) (accountPublicKey : SecpPublicKey)
    (network : Network) (path : BitcoinDerivationPath) : AnyhowResult Xpub := do
  let childNumber ← mapErr library "invalid account index" (ChildNumber.fromHardenedIdx path.account)
  .ok
    { network := network.kind
      depth := 3
      parentFingerprint := List.Vector.replicate 4 0
      childNumber
      publicKey := accountPublicKey
      chainCode := accountKey.chainCode }

def deriveIndex (xpub : Xpub) (index : UInt32) : AnyhowResult Xpub := do
  let childNumber ← mapErr library "invalid child index" (ChildNumber.fromNormalIdx index)
  mapErr library "failed to derive public child key" (xpub.ckdPub library childNumber)

/-- The child key of an account key and a path, as the address and the tweak derive it. -/
def childXpub (accountKey : BitcoinAccountKey) (network : Network) (path : BitcoinDerivationPath) :
    AnyhowResult (SecpPublicKey × Xpub) := do
  let accountXonly ← mapErr library "invalid account x-only public key"
    (SecpXOnlyPublicKey.fromSlice accountKey.groupKey.xonlyPublicKey)
  let accountPublicKey := accountXonly.publicKeyEven
  let xpub ← accountXpub library accountKey accountPublicKey network path
  let xpub ← [path.change, path.addressIndex].foldlM (deriveIndex library) xpub
  .ok (accountPublicKey, xpub)

def taprootChildAddressDescriptor (accountKey : BitcoinAccountKey) (network : Network)
    (path : BitcoinDerivationPath) : AnyhowResult BitcoinAddressDescriptor := do
  let (_, xpub) ← childXpub library accountKey network path
  let (internalXonly, _) := xpub.publicKey.xOnlyPublicKey
  let (outputKey, _) ← internalXonly.tapTweak library
  .ok
    { path
      network := network.debugText
      address := library.p2trTweaked outputKey.serialize network
      accountXonlyPublicKeyHex := hexText accountKey.groupKey.xonlyPublicKey.toList
      internalXonlyPublicKeyHex := hexText internalXonly.serialize.toList
      xonlyPublicKeyHex := hexText outputKey.serialize.toList
      chainCodeHex := hexText xpub.chainCode.toList }

def taprootChildAddressDescriptorForNetwork (accountKey : BitcoinAccountKey) (network : String)
    (path : BitcoinDerivationPath) : AnyhowResult BitcoinAddressDescriptor := do
  let network ← parseNetwork network
  taprootChildAddressDescriptor library accountKey network path

end Derivation

section Calls

variable {library : BitcoinLibrary}

@[simp] theorem mapErr_eq_ok {α : Type} {context : String} {x : Except LibraryError α} {a : α} :
    mapErr library context x = .ok a ↔ x = .ok a := by
  cases x <;> simp [mapErr, Except.mapError]

@[simp] theorem wrapSecp_eq_ok {α : Type} {x : Except LibraryError α} {a : α} :
    wrapSecp x = .ok a ↔ x = .ok a := by
  cases x <;> simp [wrapSecp, Except.mapError]

theorem SecpPublicKey.addExpTweak_eq_ok {key key' : SecpPublicKey} {tweak : Scalar} :
    key.addExpTweak tweak = .ok key' ↔ key.val + tweak • generator = key'.val := by
  rw [SecpPublicKey.addExpTweak]
  split_ifs with h
  · rw [Except.ok.injEq, Subtype.ext_iff]
  · simp only [false_iff]
    exact fun heq => h (heq ▸ key'.property)

theorem SecpXOnlyPublicKey.fromSlice_eq_ok {bytes : Bytes 32} {key : SecpXOnlyPublicKey} :
    SecpXOnlyPublicKey.fromSlice bytes = .ok key ↔ pointFromXonlyBytes bytes = some key.point := by
  obtain ⟨P, hne, heven⟩ := key
  rw [SecpXOnlyPublicKey.fromSlice]
  split
  · next Q hQ => simp [hQ]
  · next hnone => simp [hnone]

@[simp] theorem SecpScalar.fromBeBytes_eq_ok {bytes : Bytes 32} {s : Scalar} :
    SecpScalar.fromBeBytes bytes = .ok s ↔ scalarFromBytes bytes = some s := by
  rw [SecpScalar.fromBeBytes]
  cases scalarFromBytes bytes <;> simp

theorem SecpSecretKey.fromSlice_eq_ok {bytes : Bytes 32} {key : SecpSecretKey} :
    SecpSecretKey.fromSlice bytes = .ok key ↔ scalarFromBytes bytes = some key.val := by
  rw [SecpSecretKey.fromSlice]
  cases scalarFromBytes bytes with
  | none => simp
  | some s =>
    by_cases h : s = 0
    · simp [h, key.property.symm]
    · simp [h, Subtype.ext_iff]

theorem SecpSecretKey.addTweak_eq_ok {key key' : SecpSecretKey} {tweak : Scalar} :
    key.addTweak tweak = .ok key' ↔ key.val + tweak = key'.val := by
  rw [SecpSecretKey.addTweak]
  split_ifs with h
  · rw [Except.ok.injEq, Subtype.ext_iff]
  · simp only [false_iff]
    exact fun heq => h (heq ▸ key'.property)

theorem ChildNumber.fromNormalIdx_eq_ok {index : UInt32} {child : ChildNumber} :
    ChildNumber.fromNormalIdx index = .ok child ↔ index.toNat < 2 ^ 31 ∧ child = .normal index := by
  rw [ChildNumber.fromNormalIdx]
  split_ifs with h
  · rw [Except.ok.injEq, eq_comm, and_iff_right h]
  · simp only [false_iff, not_and]
    exact fun hlt => absurd hlt h

theorem SecpPublicKey.xOnlyPublicKey_wasOdd (key : SecpPublicKey) :
    (key.xOnlyPublicKey.2 == .odd) = isOddY key.val := by
  cases h : isOddY key.val <;> simp [SecpPublicKey.xOnlyPublicKey, h]

theorem SecpPublicKey.serialize_xOnlyPublicKey (key : SecpPublicKey) :
    key.xOnlyPublicKey.1.serialize = pointToXonlyBytes key.val :=
  pointToXonlyBytes_intoPointWithEvenY key.val

theorem SecpXOnlyPublicKey.tapTweakScalar_eq_ok {key : SecpXOnlyPublicKey} {s : Scalar} :
    key.tapTweakScalar library = .ok s ↔
      scalarFromBytes (library.tapTweakHash key.serialize.toList) = some s := by
  rw [SecpXOnlyPublicKey.tapTweakScalar, ← SecpScalar.fromBeBytes_eq_ok]
  cases SecpScalar.fromBeBytes (library.tapTweakHash key.serialize.toList) <;> simp

theorem SecpXOnlyPublicKey.tapTweak_eq_ok {key : SecpXOnlyPublicKey}
    {output : SecpXOnlyPublicKey × Parity} :
    key.tapTweak library = .ok output ↔ ∃ s,
      scalarFromBytes (library.tapTweakHash key.serialize.toList) = some s ∧
      ∃ Q : SecpPublicKey, key.point + s • generator = Q.val ∧ Q.xOnlyPublicKey = output := by
  rw [SecpXOnlyPublicKey.tapTweak, except_bind_eq_ok]
  refine exists_congr fun s => and_congr SecpXOnlyPublicKey.tapTweakScalar_eq_ok ?_
  cases hadd : key.publicKeyEven.addExpTweak s with
  | ok Q =>
    have hQ : key.point + s • generator = Q.val := SecpPublicKey.addExpTweak_eq_ok.mp hadd
    simp [hQ, Subtype.val_inj]
  | error e =>
    constructor
    · intro h
      cases h
    · rintro ⟨Q, hQ, -⟩
      cases hadd.symm.trans (SecpPublicKey.addExpTweak_eq_ok.mpr hQ)

end Calls

section ChildKeys

variable {library : BitcoinLibrary}

/-- Public child derivation as BIP32 has it: a hardened index, a left half that is no scalar
and the point at infinity have no child. -/
def bip32Child (hmacSha512 : Bytes 32 → List UInt8 → Bytes 64) (parent : Point × Bytes 32)
    (index : UInt32) : Option (Point × Bytes 32) :=
  let i := hmacSha512 parent.2 ((pointToBytes parent.1).toList ++ (encode 4 index.toNat).toList)
  (scalarFromBytes (leftHalf i)).bind fun t =>
    if index.toNat < 2 ^ 31 ∧ parent.1 + t • generator ≠ 0 then
      some (parent.1 + t • generator, rightHalf i)
    else none

theorem deriveIndex_eq_ok {xpub child : Xpub} {index : UInt32} :
    deriveIndex library xpub index = .ok child ↔ index.toNat < 2 ^ 31 ∧ ∃ tweak : SecpSecretKey,
      scalarFromBytes (leftHalf (childHmac library xpub.chainCode xpub.publicKey index)) = some tweak.val ∧
      ∃ publicKey : SecpPublicKey, xpub.publicKey.val + tweak.val • generator = publicKey.val ∧
        ⟨xpub.network, xpub.depth + 1, xpub.fingerprint library, .normal index, publicKey,
          rightHalf (childHmac library xpub.chainCode xpub.publicKey index)⟩ = child := by
  simp only [deriveIndex, except_bind_eq_ok, mapErr_eq_ok, ChildNumber.fromNormalIdx_eq_ok]
  simp only [and_assoc, exists_and_left, exists_eq_left]
  simp only [Xpub.ckdPub, except_bind_eq_ok, wrapSecp_eq_ok, SecpSecretKey.fromSlice_eq_ok,
    SecpPublicKey.addExpTweak_eq_ok, Except.ok.injEq]

theorem deriveIndex_bip32 (xpub : Xpub) (index : UInt32) (child : Xpub)
    (h : deriveIndex library xpub index = .ok child) :
    bip32Child library.hmacSha512 (xpub.publicKey.val, xpub.chainCode) index =
      some (child.publicKey.val, child.chainCode) := by
  obtain ⟨hindex, tweak, htweak, publicKey, hkey, rfl⟩ := deriveIndex_eq_ok.mp h
  have hne := publicKey.property
  rw [← hkey] at hne ⊢
  simp only [childHmac, SecpPublicKey.serialize] at htweak
  simp only [bip32Child, htweak, Option.bind_some]
  exact if_pos ⟨hindex, hne⟩

theorem childXpub_bip32 {accountKey : BitcoinAccountKey} {network : Network}
    {path : BitcoinDerivationPath} {accountPublicKey : SecpPublicKey} {xpub : Xpub}
    (h : childXpub library accountKey network path = .ok (accountPublicKey, xpub)) :
    pointFromXonlyBytes accountKey.groupKey.xonlyPublicKey = some accountPublicKey.val ∧
      [path.change, path.addressIndex].foldlM (bip32Child library.hmacSha512)
        (accountPublicKey.val, accountKey.chainCode) = some (xpub.publicKey.val, xpub.chainCode) := by
  simp only [childXpub, accountXpub, except_bind_eq_ok, mapErr_eq_ok,
    SecpXOnlyPublicKey.fromSlice_eq_ok, Except.ok.injEq, Prod.mk.injEq] at h
  obtain ⟨accountXonly, hxonly, account, ⟨childNumber, -, rfl⟩, child, hloop, rfl, rfl⟩ := h
  exact ⟨hxonly, foldlM_simulation deriveIndex_bip32 hloop⟩

end ChildKeys

end DkgKit
