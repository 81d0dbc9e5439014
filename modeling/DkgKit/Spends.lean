import DkgKit.Messages
import DkgKit.VaultSigning

/-! Taproot key-path spends of `dkgkit-bitcoin`: the unsigned transaction with a sighash for
every input, and the transaction with a signature in every witness. What `bitcoin` parses,
hashes and encodes is a parameter. -/

open BigEndian LoopRules

namespace DkgKit

section Transactions

structure OutPoint where
  txid : Bytes 32
  vout : UInt32
  deriving DecidableEq

structure TxIn where
  previousOutput : OutPoint
  scriptSig : List UInt8
  sequence : UInt32
  witness : List (List UInt8)
  deriving DecidableEq

structure TxOut where
  value : UInt64
  scriptPubkey : List UInt8
  deriving DecidableEq

structure Transaction where
  version : Int32
  lockTime : UInt32
  input : List TxIn
  output : List TxOut
  deriving DecidableEq

/-- A parsed address: its script, once its network is checked. -/
abbrev UncheckedAddress := Network → Except String (List UInt8)

/-- What spends use of `bitcoin`; errors are their texts. -/
structure TransactionLibrary where
  txidFromStr : String → Except String (Bytes 32)
  addressFromStr : String → Except String UncheckedAddress
  taprootKeySpendSignatureHash : Transaction → ℕ → List TxOut → Except String (Bytes 32)
  serializeHex : Transaction → String
  deserializeHex : String → Except String Transaction
  computeTxid : Transaction → String

structure TaprootSpendInput where
  txid : String
  vout : UInt32
  valueSats : UInt64

structure TaprootSpendOutput where
  address : String
  valueSats : UInt64

def mapText {α : Type} (context : String) : Except String α → AnyhowResult α :=
  Except.mapError fun text => .err (context ++ ": " ++ text)

/-- `Sequence::ENABLE_RBF_NO_LOCKTIME`. -/
def enableRbfNoLocktime : UInt32 := 0xFFFFFFFD

variable (bitcoin : TransactionLibrary)

def spendTxIn (input : TaprootSpendInput) : AnyhowResult TxIn := do
  let txid ← mapText "invalid input txid" (bitcoin.txidFromStr input.txid)
  .ok ⟨⟨txid, input.vout⟩, [], enableRbfNoLocktime, []⟩

def spendTxOut (net : Network) (output : TaprootSpendOutput) : AnyhowResult TxOut := do
  let address ← mapText "invalid output address" (bitcoin.addressFromStr output.address)
  let scriptPubkey ← mapText "output address network mismatch" (address net)
  .ok ⟨output.valueSats, scriptPubkey⟩

def prevouts (vaultScriptPubkey : List UInt8) (inputs : List TaprootSpendInput) : List TxOut :=
  inputs.map fun input => ⟨input.valueSats, vaultScriptPubkey⟩

def taprootKeyspendSighashes (network vaultAddress : String) (inputs : List TaprootSpendInput)
    (outputs : List TaprootSpendOutput) : AnyhowResult (String × List (Bytes 32)) := do
  if inputs.isEmpty then .error (.err "a spend needs at least one input")
  else if outputs.isEmpty then .error (.err "a spend needs at least one output")
  else
    let net ← parseNetwork network
    let address ← mapText "invalid vault address" (bitcoin.addressFromStr vaultAddress)
    let vaultScriptPubkey ← mapText "vault address network mismatch" (address net)
    let txInputs ← inputs.mapM (spendTxIn bitcoin)
    let txOutputs ← outputs.mapM (spendTxOut bitcoin net)
    let unsigned : Transaction := ⟨2, 0, txInputs, txOutputs⟩
    let sighashes ← (List.range inputs.length).mapM fun index => mapText "taproot sighash failed"
      (bitcoin.taprootKeySpendSignatureHash unsigned index (prevouts vaultScriptPubkey inputs))
    .ok (bitcoin.serializeHex unsigned, sighashes)

def TxIn.signedBy (input : TxIn) (signature : Bytes 64) : TxIn :=
  { input with witness := [signature.toList] }

/-- The signatures as witnesses, in the order of the inputs. -/
def Transaction.signedBy (tx : Transaction) (signatures : List (Bytes 64)) : Transaction :=
  { tx with input := List.zipWith TxIn.signedBy tx.input signatures }

def finalizeTaprootKeyspend (unsignedTxHex : String) (signatures : List (Bytes 64)) :
    AnyhowResult (String × String) := do
  let tx ← mapText "invalid unsigned transaction" (bitcoin.deserializeHex unsignedTxHex)
  if tx.input.length ≠ signatures.length then
    .error (.err s!"expected {tx.input.length} signatures, got {signatures.length}")
  else
    let tx := tx.signedBy signatures
    .ok (bitcoin.serializeHex tx, bitcoin.computeTxid tx)

end Transactions

section Results

@[simp] theorem mapText_eq_ok {α : Type} {context : String} {x : Except String α} {a : α} :
    mapText context x = .ok a ↔ x = .ok a := by
  cases x <;> simp [mapText, Except.mapError]

/-- Everything but the witnesses. -/
def TxIn.stripped (input : TxIn) : TxIn := { input with witness := [] }

def Transaction.stripped (tx : Transaction) : Transaction :=
  { tx with input := tx.input.map TxIn.stripped }

/-- What spends rely on: transactions survive their encoding, and neither the hash that is
signed on the key path nor the id depends on the witnesses. -/
structure TransactionLibrary.Documented (bitcoin : TransactionLibrary) : Prop where
  decode_encode : ∀ tx, tx.input ≠ [] → bitcoin.deserializeHex (bitcoin.serializeHex tx) = .ok tx
  sighash_stripped : ∀ tx index spent, bitcoin.taprootKeySpendSignatureHash tx.stripped index spent =
    bitcoin.taprootKeySpendSignatureHash tx index spent
  txid_stripped : ∀ tx, bitcoin.computeTxid tx.stripped = bitcoin.computeTxid tx

/-- The requested payment, whatever the witnesses. -/
structure Transaction.Pays (bitcoin : TransactionLibrary) (net : Network)
    (inputs : List TaprootSpendInput) (outputs : List TaprootSpendOutput) (tx : Transaction) : Prop where
  version : tx.version = 2
  lockTime : tx.lockTime = 0
  spent : List.Forall₂ (fun (input : TaprootSpendInput) (txIn : TxIn) =>
    bitcoin.txidFromStr input.txid = .ok txIn.previousOutput.txid ∧
      txIn.previousOutput.vout = input.vout ∧ txIn.scriptSig = [] ∧
      txIn.sequence = enableRbfNoLocktime) inputs tx.input
  paid : List.Forall₂ (fun (output : TaprootSpendOutput) (txOut : TxOut) =>
    txOut.value = output.valueSats ∧ ∃ address, bitcoin.addressFromStr output.address = .ok address ∧
      address net = .ok txOut.scriptPubkey) outputs tx.output

/-- The script of a Taproot output. -/
def p2trScript (outputXonly : Bytes 32) : List UInt8 := 0x51 :: 0x20 :: outputXonly.toList

/-- The rule for spends by key: the only element of a witness is a signature, under the key of
the output that is spent, of the hash of this very transaction. -/
def Transaction.KeyPathValid (bitcoin : TransactionLibrary) (library : BitcoinLibrary)
    (hash : ChallengeHash) (spent : List TxOut) (tx : Transaction) : Prop :=
  ∀ index (h : index < tx.input.length), ∃ txOut outputXonly digest signature,
    spent[index]? = some txOut ∧ txOut.scriptPubkey = p2trScript outputXonly ∧
      tx.input[index].witness = [signature.toList] ∧
      bitcoin.taprootKeySpendSignatureHash tx index spent = .ok digest ∧
      verifySchnorrDigest library hash outputXonly digest signature = .ok true

variable {bitcoin : TransactionLibrary} {network vaultAddress unsignedTxHex : String}
  {inputs : List TaprootSpendInput} {outputs : List TaprootSpendOutput}
  {sighashes : List (Bytes 32)} {net : Network} {tx : Transaction} {signatures : List (Bytes 64)}

theorem spendTxIn_eq_ok {input : TaprootSpendInput} {txIn : TxIn} :
    spendTxIn bitcoin input = .ok txIn ↔ ∃ txid, bitcoin.txidFromStr input.txid = .ok txid ∧
      ⟨⟨txid, input.vout⟩, [], enableRbfNoLocktime, []⟩ = txIn := by
  simp only [spendTxIn, except_bind_eq_ok, mapText_eq_ok, Except.ok.injEq]

theorem spendTxOut_eq_ok {output : TaprootSpendOutput} {txOut : TxOut} :
    spendTxOut bitcoin net output = .ok txOut ↔ txOut.value = output.valueSats ∧
      ∃ address, bitcoin.addressFromStr output.address = .ok address ∧
        address net = .ok txOut.scriptPubkey := by
  simp only [spendTxOut, except_bind_eq_ok, mapText_eq_ok, Except.ok.injEq]
  constructor
  · rintro ⟨address, haddress, script, hscript, rfl⟩
    exact ⟨rfl, address, haddress, hscript⟩
  · rintro ⟨hvalue, address, haddress, hscript⟩
    exact ⟨address, haddress, _, hscript, by rw [← hvalue]⟩

/-- An accepted request: its transaction has no witnesses yet, and a sighash for every input. -/
theorem exists_unsigned_of_sighashes
    (h : taprootKeyspendSighashes bitcoin network vaultAddress inputs outputs =
      .ok (unsignedTxHex, sighashes)) :
    inputs ≠ [] ∧ ∃ net address script tx, parseNetwork network = .ok net ∧
      bitcoin.addressFromStr vaultAddress = .ok address ∧ address net = .ok script ∧
      tx.Pays bitcoin net inputs outputs ∧ tx.stripped = tx ∧
      unsignedTxHex = bitcoin.serializeHex tx ∧
      List.Forall₂ (fun index digest => bitcoin.taprootKeySpendSignatureHash tx index
        (prevouts script inputs) = .ok digest) (List.range inputs.length) sighashes := by
  rw [taprootKeyspendSighashes] at h
  by_cases hinputs : inputs.isEmpty = true
  · rw [if_pos hinputs] at h
    cases h
  by_cases houtputs : outputs.isEmpty = true
  · rw [if_neg hinputs, if_pos houtputs] at h
    cases h
  rw [if_neg hinputs, if_neg houtputs] at h
  simp only [except_bind_eq_ok, mapText_eq_ok, mapM_eq_ok, Except.ok.injEq, Prod.mk.injEq] at h
  obtain ⟨net, hnet, address, haddress, script, hscript, txInputs, htxInputs, txOutputs, htxOutputs,
    digests, hdigests, htx, hsighashes⟩ := h
  have hspent : List.Forall₂ (fun (input : TaprootSpendInput) (txIn : TxIn) =>
      bitcoin.txidFromStr input.txid = .ok txIn.previousOutput.txid ∧
        txIn.previousOutput.vout = input.vout ∧ txIn.scriptSig = [] ∧
        txIn.sequence = enableRbfNoLocktime) inputs txInputs := by
    refine htxInputs.imp fun input txIn hinput => ?_
    obtain ⟨txid, htxid, rfl⟩ := spendTxIn_eq_ok.mp hinput
    exact ⟨htxid, rfl, rfl, rfl⟩
  have hpaid := htxOutputs.imp fun output txOut => spendTxOut_eq_ok.mp
  have hempty : ∀ txIn ∈ txInputs, txIn.stripped = txIn := by
    intro txIn hmem
    obtain ⟨index, rfl⟩ := List.get_of_mem hmem
    obtain ⟨hlength, hget⟩ := List.forall₂_iff_get.mp htxInputs
    obtain ⟨txid, -, hinput⟩ := spendTxIn_eq_ok.mp (hget index (by omega) index.isLt)
    exact hinput ▸ rfl
  have hstripped : (⟨2, 0, txInputs, txOutputs⟩ : Transaction).stripped = ⟨2, 0, txInputs, txOutputs⟩ := by
    rw [Transaction.stripped, List.map_congr_left hempty, List.map_id']
  exact ⟨fun hnil => hinputs (by rw [hnil]; rfl), net, address, script, _, hnet, haddress, hscript,
    ⟨rfl, rfl, hspent, hpaid⟩, hstripped, htx.symm, hsighashes ▸ hdigests⟩

theorem Transaction.signedBy_stripped (hlen : tx.input.length = signatures.length) :
    (tx.signedBy signatures).stripped = tx.stripped := by
  have hinput : ∀ (l : List TxIn) (signatures : List (Bytes 64)), l.length = signatures.length →
      (List.zipWith TxIn.signedBy l signatures).map TxIn.stripped = l.map TxIn.stripped := by
    intro l
    induction l with
    | nil => simp
    | cons txIn rest ih =>
      intro signatures hlen
      cases signatures with
      | nil => cases hlen
      | cons signature more =>
        have hrest := ih more (by simpa using hlen)
        rw [List.zipWith_cons_cons, List.map_cons, List.map_cons, hrest]
        rfl
  rw [Transaction.stripped, Transaction.signedBy, hinput _ _ hlen, Transaction.stripped]

/-- The payment is read off what the witnesses do not touch. -/
theorem Transaction.Pays.signedBy (h : tx.Pays bitcoin net inputs outputs)
    (hlen : tx.input.length = signatures.length) :
    (tx.signedBy signatures).Pays bitcoin net inputs outputs := by
  refine ⟨h.version, h.lockTime, List.forall₂_iff_get.mpr ?_, h.paid⟩
  obtain ⟨hlength, hget⟩ := List.forall₂_iff_get.mp h.spent
  refine ⟨?_, fun index hindex hsigned => ?_⟩
  · simp only [Transaction.signedBy, List.length_zipWith]
    omega
  · have hinput := hget index hindex (by omega)
    simp only [Transaction.signedBy, List.get_eq_getElem, List.getElem_zipWith] at hinput ⊢
    exact hinput

theorem finalizeTaprootKeyspend_eq_ok (hdecode : bitcoin.deserializeHex unsignedTxHex = .ok tx)
    {result : String × String} : finalizeTaprootKeyspend bitcoin unsignedTxHex signatures = .ok result ↔
      tx.input.length = signatures.length ∧ result = (bitcoin.serializeHex (tx.signedBy signatures),
        bitcoin.computeTxid (tx.signedBy signatures)) := by
  have hmap : mapText "invalid unsigned transaction" (bitcoin.deserializeHex unsignedTxHex) =
      .ok tx := mapText_eq_ok.mpr hdecode
  rw [finalizeTaprootKeyspend, hmap]
  by_cases hlen : tx.input.length = signatures.length
  · simp [Bind.bind, Except.bind, hlen, eq_comm]
  · simp [Bind.bind, Except.bind, hlen]

theorem Transaction.KeyPathValid.of_sighashes {library : BitcoinLibrary} {hash : ChallengeHash}
    (hbitcoin : bitcoin.Documented) {outputXonly : Bytes 32}
    (hpays : tx.Pays bitcoin net inputs outputs) (hdigests : List.Forall₂ (fun index digest =>
      bitcoin.taprootKeySpendSignatureHash tx index (prevouts (p2trScript outputXonly) inputs) =
        .ok digest) (List.range inputs.length) sighashes)
    (hverify : List.Forall₂ (fun digest signature =>
      verifySchnorrDigest library hash outputXonly digest signature = .ok true) sighashes signatures) :
    (tx.signedBy signatures).KeyPathValid bitcoin library hash
      (prevouts (p2trScript outputXonly) inputs) := by
  obtain ⟨hcount, hdigest⟩ := List.forall₂_iff_get.mp hdigests
  obtain ⟨hsigned, hvalid⟩ := List.forall₂_iff_get.mp hverify
  have hspent := hpays.spent.length_eq
  rw [List.length_range] at hcount
  have hlen : tx.input.length = signatures.length := by omega
  intro index hindex
  have hlt : index < inputs.length := by
    simp only [Transaction.signedBy, List.length_zipWith] at hindex
    omega
  have hhash := hdigest index (by rwa [List.length_range]) (by omega)
  rw [List.get_eq_getElem, List.getElem_range, ← hbitcoin.sighash_stripped,
    ← Transaction.signedBy_stripped hlen, hbitcoin.sighash_stripped] at hhash
  refine ⟨⟨inputs[index].valueSats, p2trScript outputXonly⟩, outputXonly, _, _, ?_, rfl, ?_, hhash,
    hvalid index (by omega) (by omega)⟩
  · rw [prevouts, List.getElem?_map, List.getElem?_eq_getElem hlt]
    rfl
  · simp only [Transaction.signedBy, List.getElem_zipWith]
    rfl

/-- Signatures for the key of the vault's address, one for each sighash and from whichever
signers, make a transaction of the request: it pays as asked, has the id of the unsigned one,
and every input passes the rule for spends by key. Any other number of signatures is refused. -/
theorem vaultSpend_authorized (library : BitcoinLibrary) (hbitcoin : bitcoin.Documented)
    {hash : ChallengeHash} {schnorr : Schnorr} (himpl : schnorr.Implements hash)
    (hrequest : taprootKeyspendSighashes bitcoin network vaultAddress inputs outputs =
      .ok (unsignedTxHex, sighashes)) {address : UncheckedAddress} {outputXonly : Bytes 32}
    (haddress : bitcoin.addressFromStr vaultAddress = .ok address)
    (hscript : ∀ net script, address net = .ok script → script = p2trScript outputXonly)
    (signatures : List (Bytes 64)) :
    (signatures.length ≠ inputs.length → finalizeTaprootKeyspend bitcoin unsignedTxHex signatures =
      .error (.err s!"expected {inputs.length} signatures, got {signatures.length}")) ∧
    (List.Forall₂ (fun digest (signature : Bytes 64) =>
        Returned schnorr digest outputXonly ⟨signature.toList⟩) sighashes signatures →
      ∃ net unsigned tx rawHex, parseNetwork network = .ok net ∧
        bitcoin.deserializeHex unsignedTxHex = .ok unsigned ∧
        finalizeTaprootKeyspend bitcoin unsignedTxHex signatures =
          .ok (rawHex, bitcoin.computeTxid unsigned) ∧
        bitcoin.deserializeHex rawHex = .ok tx ∧ bitcoin.computeTxid tx = bitcoin.computeTxid unsigned ∧
        tx.Pays bitcoin net inputs outputs ∧
        tx.KeyPathValid bitcoin library hash (prevouts (p2trScript outputXonly) inputs)) := by
  obtain ⟨hinputs, net, address', script, tx, hnet, haddress', hscript', hpays, -, rfl, hdigests⟩ :=
    exists_unsigned_of_sighashes hrequest
  rw [haddress, Except.ok.injEq] at haddress'
  obtain rfl := haddress'
  obtain rfl := hscript net script hscript'
  have hspent := hpays.spent.length_eq
  have hne : tx.input ≠ [] := by
    intro hnil
    rw [hnil, List.length_nil] at hspent
    exact hinputs (List.eq_nil_of_length_eq_zero hspent)
  have hdecode := hbitcoin.decode_encode tx hne
  constructor
  · intro hlen
    have hmap : mapText "invalid unsigned transaction" (bitcoin.deserializeHex
        (bitcoin.serializeHex tx)) = .ok tx := mapText_eq_ok.mpr hdecode
    rw [finalizeTaprootKeyspend, hmap]
    have hcount : tx.input.length ≠ signatures.length := by omega
    simp [Bind.bind, Except.bind, hcount, hspent]
  · intro hsigned
    have hcount := hdigests.length_eq
    have hsignatures := hsigned.length_eq
    rw [List.length_range] at hcount
    have hlen : tx.input.length = signatures.length := by omega
    have hverify : List.Forall₂ (fun digest (signature : Bytes 64) =>
        verifySchnorrDigest library hash outputXonly digest signature = .ok true) sighashes
          signatures := hsigned.imp fun digest signature hreturned => by
      obtain ⟨P, valid, hkey, hvalid, hbytes⟩ := hreturned.signatureFor
      have htoBytes : signature.toList = valid.toBytes := congrArg AggregateSignature.signatureBytes hbytes
      exact (verifySchnorrDigest_eq_true himpl).mpr ⟨P, hkey, valid, htoBytes, hvalid⟩
    have htxid : bitcoin.computeTxid (tx.signedBy signatures) = bitcoin.computeTxid tx := by
      rw [← hbitcoin.txid_stripped, Transaction.signedBy_stripped hlen, hbitcoin.txid_stripped]
    have hsignedInputs : (tx.signedBy signatures).input ≠ [] := by
      intro hnil
      have hzero := congrArg List.length hnil
      simp only [Transaction.signedBy, List.length_zipWith, List.length_nil] at hzero
      exact hne (List.eq_nil_of_length_eq_zero (by omega))
    refine ⟨net, tx, tx.signedBy signatures, _, hnet, hdecode,
      (finalizeTaprootKeyspend_eq_ok hdecode).mpr ⟨hlen, by rw [htxid]⟩,
      hbitcoin.decode_encode _ hsignedInputs, htxid, hpays.signedBy hlen, ?_⟩
    exact .of_sighashes hbitcoin hpays hdigests hverify

end Results

section Instances

instance countable_uint32 : Countable UInt32 := Function.Injective.countable fun _ _ => UInt32.toNat_inj.mp

instance countable_uint64 : Countable UInt64 := Function.Injective.countable fun _ _ => UInt64.toNat_inj.mp

instance countable_int32 : Countable Int32 := Function.Injective.countable fun _ _ => Int32.toInt_inj.mp

instance countable_bytes {n : ℕ} : Countable (Bytes n) := inferInstanceAs (Countable {l : List UInt8 // l.length = n})

deriving instance Countable for OutPoint, TxIn, TxOut, Transaction

/-- The key of the generator, and its address. -/
def vaultKey : Bytes 32 :=
  encode 32 0x79BE667EF9DCBBAC55A06295CE870B07029BFCDB2DCE28D959F2815B16F81798

def generatorAddress : String := "bc1p0xlxvlhemja6c4dqv22uapctqupfhlxm9h8z3k2e72q4k9hcz7vqzk5jj0"

def recipientAddress : String := "bc1qw508d6qejxtdg4y5r3zarvary0c5xw7kv8f3t4"

def recipientScript : List UInt8 := 0x00 :: 0x14 :: (encode 20 0x751E76E8199196D454941C45D1B3A323F1433BD6).toList

def firstTxid : String := "4a5e1e4baab89f3a32518a88c31bc87f618f76673e2cc77ab2127b7afdeda33b"

def secondTxid : String := "0e3e2357e806b6cdb1f70b54c3a3a17b6714ee1f0e68bebb44a74b1efd512098"

def firstTxidBytes : Bytes 32 :=
  encode 32 0x3BA3EDFD7A7B12B27AC72C3E67768F617FC81BC3888A51323A9FB8AA4B1E5E4A

def secondTxidBytes : Bytes 32 :=
  encode 32 0x982051FD1E4BA744BBBE680E1FEE14677BA1A3C3540BF7B1CDB606E857233E0E

def paymentInputs : List TaprootSpendInput := [⟨firstTxid, 0, 1500⟩, ⟨secondTxid, 1, 2500⟩]

def paymentOutputs : List TaprootSpendOutput := [⟨recipientAddress, 3000⟩, ⟨generatorAddress, 800⟩]

/-- Two outputs of the vault pay the recipient, with the change back to the vault. -/
def payment : Transaction :=
  ⟨2, 0, [⟨⟨firstTxidBytes, 0⟩, [], enableRbfNoLocktime, []⟩,
      ⟨⟨secondTxidBytes, 1⟩, [], enableRbfNoLocktime, []⟩],
    [⟨3000, recipientScript⟩, ⟨800, p2trScript vaultKey⟩]⟩

/-- Its inputs, past their count, and its outputs. -/
def paymentBody : String :=
  "3ba3edfd7a7b12b27ac72c3e67768f617fc81bc3888a51323a9fb8aa4b1e5e4a0000000000fdffffff" ++
  "982051fd1e4ba744bbbe680e1fee14677ba1a3c3540bf7b1cdb606e857233e0e0100000000fdffffff" ++
  "02b80b000000000000160014751e76e8199196d454941c45d1b3a323f1433bd6" ++
  "200300000000000022512079be667ef9dcbbac55a06295ce870b07029bfcdb2dce28d959f2815b16f81798"

def paymentHex : String := "0200000002" ++ (paymentBody ++ "00000000")

def signedPaymentHex (first second : Bytes 64) : String :=
  "0200000000" ++ ("0102" ++ paymentBody ++ "0140" ++ hexText first.toList ++ "0140" ++
    hexText second.toList ++ "00000000")

def firstSighash : Bytes 32 :=
  encode 32 0x1FFEABACC28AF81F4B711D5CE58BA96DE9648B2F53F1C286E7086BCF21E4E7F3

def secondSighash : Bytes 32 :=
  encode 32 0x3F7A870DB275E5021EE8DB6F205DF6036E171566FD168257B6C19C2468031DA0

def paymentTxid : String := "126241f8c88a4e3dfb16c7213d6879e3f80aed4c2642d82fb1361ed8be6ff30e"

def listed {α : Type} : Option α → Except String α
  | some a => .ok a
  | none => .error "not in the table"

noncomputable def paymentText (first second : Bytes 64) : Transaction → String :=
  tabledText [(payment, paymentHex), (payment.signedBy [first, second], signedPaymentHex first second)]

/-- What `bitcoin` answers on the payment and on its signed form, as tables. -/
noncomputable def paymentLibrary (first second : Bytes 64) : TransactionLibrary where
  txidFromStr text := listed ([(firstTxid, firstTxidBytes), (secondTxid, secondTxidBytes)].lookup text)
  addressFromStr text := do
    let script ← listed
      ([(generatorAddress, p2trScript vaultKey), (recipientAddress, recipientScript)].lookup text)
    .ok fun net => if net = .bitcoin then .ok script else .error "not in the table"
  taprootKeySpendSignatureHash tx index spent := listed
    (if tx.stripped = payment ∧ spent = prevouts (p2trScript vaultKey) paymentInputs then
      [firstSighash, secondSighash][index]? else none)
  serializeHex := paymentText first second
  deserializeHex text := open scoped Classical in
    if h : ∃ tx, paymentText first second tx = text then .ok h.choose else .error "not in the table"
  computeTxid tx := if tx.stripped = payment then paymentTxid else unaryText tx.stripped

theorem Transaction.stripped_stripped (tx : Transaction) : tx.stripped.stripped = tx.stripped := by
  simp [Transaction.stripped, TxIn.stripped, Function.comp_def]

theorem paymentText_injective (first second : Bytes 64) : Function.Injective (paymentText first second) := by
  refine tabledText_injective (List.nodup_cons.mpr ⟨fun hmem => ?_, List.nodup_singleton _⟩)
  have hhex := congrArg (fun text => text.toList.take 10) (List.mem_singleton.mp hmem)
  have htake : ∀ head tail : String, head.toList.length = 10 → (head ++ tail).toList.take 10 = head.toList := by
    intro head tail hlen
    rw [String.toList_append, ← hlen, List.take_left]
  dsimp only [paymentHex, signedPaymentHex] at hhex
  rw [htake _ _ rfl, htake _ _ rfl] at hhex
  exact absurd hhex (by decide)

theorem paymentLibrary_documented (first second : Bytes 64) : (paymentLibrary first second).Documented := by
  refine ⟨fun tx _ => ?_, fun tx _ _ => ?_, fun tx => ?_⟩
  · have hex : ∃ tx', paymentText first second tx' = (paymentLibrary first second).serializeHex tx := ⟨tx, rfl⟩
    have hchoose : hex.choose = tx := paymentText_injective first second hex.choose_spec
    simp only [paymentLibrary] at hex hchoose ⊢
    rw [dif_pos hex, hchoose]
  · simp only [paymentLibrary, Transaction.stripped_stripped]
  · simp only [paymentLibrary, Transaction.stripped_stripped]

theorem paymentLibrary_inputs (first second : Bytes 64) :
    paymentInputs.mapM (spendTxIn (paymentLibrary first second)) = .ok payment.input := rfl

theorem paymentLibrary_outputs (first second : Bytes 64) :
    paymentOutputs.mapM (spendTxOut (paymentLibrary first second) .bitcoin) = .ok payment.output := rfl

theorem paymentLibrary_address (first second : Bytes 64) :
    (paymentLibrary first second).addressFromStr generatorAddress =
      .ok fun net => if net = .bitcoin then .ok (p2trScript vaultKey) else .error "not in the table" := rfl

theorem paymentLibrary_hex (first second : Bytes 64) :
    (paymentLibrary first second).serializeHex payment = paymentHex := by
  simp [paymentLibrary, paymentText, tabledText]

theorem paymentLibrary_signedHex (first second : Bytes 64) :
    (paymentLibrary first second).serializeHex (payment.signedBy [first, second]) =
      signedPaymentHex first second := by
  have hne : (payment.signedBy [first, second] == payment) = false := by
    simp [payment, Transaction.signedBy, TxIn.signedBy]
  simp [paymentLibrary, paymentText, tabledText, List.lookup_cons, hne]

theorem paymentLibrary_txid (first second : Bytes 64) :
    (paymentLibrary first second).computeTxid payment = paymentTxid := by
  have hstripped : payment.stripped = payment := rfl
  simp only [paymentLibrary]
  rw [if_pos hstripped]

theorem paymentLibrary_decodes (first second : Bytes 64) :
    (paymentLibrary first second).deserializeHex paymentHex = .ok payment := by
  rw [← paymentLibrary_hex first second]
  exact (paymentLibrary_documented first second).decode_encode payment (by simp [payment])

theorem paymentLibrary_sighashes (first second : Bytes 64) :
    taprootKeyspendSighashes (paymentLibrary first second) "bitcoin" generatorAddress paymentInputs
      paymentOutputs = .ok (paymentHex, [firstSighash, secondSighash]) := by
  have hhash : ∀ index, (paymentLibrary first second).taprootKeySpendSignatureHash payment index
      (prevouts (p2trScript vaultKey) paymentInputs) = listed [firstSighash, secondSighash][index]? := fun index =>
    congrArg listed (if_pos ⟨rfl, rfl⟩)
  have hhashes : (List.range paymentInputs.length).mapM (fun index => mapText "taproot sighash failed"
      ((paymentLibrary first second).taprootKeySpendSignatureHash payment index
        (prevouts (p2trScript vaultKey) paymentInputs))) = .ok [firstSighash, secondSighash] := by
    simp only [hhash]
    rfl
  have hinputs : ¬paymentInputs.isEmpty = true := by simp [paymentInputs]
  have houtputs : ¬paymentOutputs.isEmpty = true := by simp [paymentOutputs]
  rw [taprootKeyspendSighashes, if_neg hinputs, if_neg houtputs, ← paymentLibrary_hex first second]
  simp only [except_bind_eq_ok, mapText_eq_ok]
  exact ⟨.bitcoin, rfl, _, paymentLibrary_address first second, p2trScript vaultKey, rfl, payment.input,
    paymentLibrary_inputs first second, payment.output, paymentLibrary_outputs first second, [firstSighash, secondSighash], hhashes, rfl⟩

theorem xonlyPublicKey_pairKeySet : pairKeySet.groupKey.xonlyPublicKey = vaultKey := by
  have hone : NonZeroScalar.one.val • generator = generator := one_smul Scalar generator
  have hx : (xCoordinate generator).val = generatorCoords.1 :=
    ZMod.val_natCast_of_lt (by norm_num [generatorCoords, fieldPrime])
  change pointToXonlyBytes (intoPointWithEvenY (NonZeroScalar.one.val • generator)).1 = vaultKey
  rw [hone, pointToXonlyBytes_intoPointWithEvenY, pointToXonlyBytes, hx]
  rfl

theorem exists_signature (digest : Bytes 32) : ∃ signature : Bytes 64,
    Returned sampleSchnorr digest vaultKey ⟨signature.toList⟩ := by
  obtain ⟨P, share, aggregate, reconstructed, hround⟩ := pairConfig_quorum.signingRound sampleSchnorr
    (HierarchicalThresholdConfig.accepted_of_new pairConfig_new) pairKeySet_dealt.toConsistent
    digest "session" (k := fun _ => NonZeroScalar.one) sum_ones_ne_zero
  have h := hround.aggregates [1, 2] _ ([1, 2].map share) (List.Perm.refl _) (List.Perm.refl _)
    (List.Perm.refl _)
  obtain ⟨P', valid, -, -, hbytes⟩ := (Returned.aggregate h).signatureFor
  have hreturned : Returned sampleSchnorr digest pairKeySet.groupKey.xonlyPublicKey ⟨valid.toBytes⟩ :=
    hbytes ▸ .aggregate h
  exact ⟨⟨valid.toBytes, length_toBytes valid⟩, xonlyPublicKey_pairKeySet ▸ hreturned⟩

/-- Both inputs need a signature. -/
theorem vaultSpend_authorized_pair : ∃ first second : Bytes 64,
    finalizeTaprootKeyspend (paymentLibrary first second) paymentHex [first, second] =
      .ok (signedPaymentHex first second, paymentTxid) ∧
    finalizeTaprootKeyspend (paymentLibrary first second) paymentHex [first] =
      .error (.err s!"expected {2} signatures, got {1}") := by
  obtain ⟨first, hfirst⟩ := exists_signature firstSighash
  obtain ⟨second, hsecond⟩ := exists_signature secondSighash
  have hspend := vaultSpend_authorized plainLibrary (paymentLibrary_documented first second)
    sampleSchnorr_implements (paymentLibrary_sighashes first second)
    (paymentLibrary_address first second) (fun net script hnet => by
      split_ifs at hnet
      exact (Except.ok.inj hnet).symm)
  refine ⟨first, second, ?_, (hspend [first]).1 (by simp [paymentInputs])⟩
  obtain ⟨net, unsigned, tx, rawHex, hnet, hdecode, hfinal, -⟩ :=
    (hspend [first, second]).2 (.cons hfirst (.cons hsecond .nil))
  obtain rfl : payment = unsigned :=
    Except.ok.inj ((paymentLibrary_decodes first second).symm.trans hdecode)
  have hhex := (finalizeTaprootKeyspend_eq_ok hdecode).mp hfinal
  rw [hfinal, paymentLibrary_txid, (Prod.mk.inj hhex.2).1, paymentLibrary_signedHex]

end Instances

end DkgKit
