import DkgKit.BigEndian
import DkgKit.SeparatedText

/-! The authorization text of `dkgkit-bitcoin` that a quorum signs: six fields behind
fixed keys, one per line. Fields may hold line breaks, so a text can have two readings. -/

open BigEndian SeparatedText

namespace DkgKit

structure BitcoinAuthorizationMessage where
  network : String
  action : String
  recipient : Option String
  amountSats : Option UInt64
  memo : Option String
  nonce : String
  deriving DecidableEq

namespace BitcoinAuthorizationMessage

def amountText (amountSats : Option UInt64) : String := (amountSats.map toString).getD ""

def canonicalText (message : BitcoinAuthorizationMessage) : String :=
  "DKGKit Bitcoin Authorization\nnetwork=" ++ message.network ++
    "\naction=" ++ message.action ++
    "\nrecipient=" ++ message.recipient.getD "" ++
    "\namount_sats=" ++ amountText message.amountSats ++
    "\nmemo=" ++ message.memo.getD "" ++
    "\nnonce=" ++ message.nonce

def digest (sha256 : List UInt8 → Bytes 32) (message : BitcoinAuthorizationMessage) : Bytes 32 :=
  sha256 message.canonicalText.toUTF8.data.toList

/-- Equality of messages up to an absent text counting as the empty one. -/
structure SameFields (message message' : BitcoinAuthorizationMessage) : Prop where
  network : message.network = message'.network
  action : message.action = message'.action
  recipient : message.recipient.getD "" = message'.recipient.getD ""
  amountSats : message.amountSats = message'.amountSats
  memo : message.memo.getD "" = message'.memo.getD ""
  nonce : message.nonce = message'.nonce

def Contains (text part : String) : Prop := part.toList <:+: text.toList

/-- No field holds a separator that could be taken for one of the text's own. -/
structure Separable (message : BitcoinAuthorizationMessage) : Prop where
  network : ¬Contains message.network "\naction="
  action : ¬Contains message.action "\naction=" ∧ ¬Contains message.action "\nrecipient="
  recipient : ¬Contains (message.recipient.getD "") "\nrecipient=" ∧ ∀ amount,
    ¬Contains (message.recipient.getD "") ("\namount_sats=" ++ amountText amount ++ "\nmemo=")
  memo : ¬Contains (message.memo.getD "") "\nnonce=" ∧ ∀ amount,
    ¬Contains (message.memo.getD "") ("\namount_sats=" ++ amountText amount ++ "\nmemo=")
  nonce : ¬Contains message.nonce "\nnonce="

end BitcoinAuthorizationMessage

section Amounts

open BitcoinAuthorizationMessage

theorem toList_amountText_some (value : UInt64) :
    (amountText (some value)).toList = Nat.toDigits 10 value.toNat :=
  String.toList_ofList

theorem notMem_amountText (amount : Option UInt64) : '\n' ∉ (amountText amount).toList := by
  cases amount with
  | none => decide
  | some value =>
    rw [toList_amountText_some]
    intro h
    exact absurd (Nat.isDigit_of_mem_toDigits (by decide) (by decide) h) (by decide)

theorem amountText_injective {amount amount' : Option UInt64}
    (h : amountText amount = amountText amount') : amount = amount' := by
  have hlist := congrArg String.toList h
  have hne : ∀ value : UInt64, (amountText (some value)).toList ≠ (amountText none).toList := by
    intro value heq
    rw [toList_amountText_some] at heq
    have hpos := Nat.length_toDigits_pos (b := 10) (n := value.toNat)
    rw [heq] at hpos
    exact absurd hpos (by decide)
  cases amount with
  | none =>
    cases amount' with
    | none => rfl
    | some value => exact absurd hlist.symm (hne value)
  | some value =>
    cases amount' with
    | none => exact absurd hlist (hne value)
    | some value' =>
      rw [toList_amountText_some, toList_amountText_some] at hlist
      have hvalue := congrArg (fun digits => Nat.ofDigitChars 10 digits 0) hlist
      simp only [Nat.ofDigitChars_ten_toDigits] at hvalue
      rw [UInt64.toNat_inj.mp hvalue]

end Amounts

section Readings

variable {N A R M E O N' A' R' M' E' O' head head' : List Char}

/-- The start of a line. -/
abbrev line (key : String) : List Char := '\n' :: key.toList

/-- The lines before the amount have one reading. -/
theorem head_unique (hN : ¬line "action=" <:+: N) (hA : ¬line "action=" <:+: A)
    (hA' : ¬line "recipient=" <:+: A) (hR : ¬line "recipient=" <:+: R)
    (h : N ++ line "action=" ++ (A ++ line "recipient=" ++ R) =
      N' ++ line "action=" ++ (A' ++ line "recipient=" ++ R')) :
    N = N' ∧ A = A' ∧ R = R' := by
  have haction : '\n' ∉ "action=".toList := by decide
  have hrecipient : '\n' ∉ "recipient=".toList := by decide
  rcases append_separator_cases haction haction h with ⟨hNN, hrest⟩ | ⟨m, -, hrest⟩ | ⟨m, hm, -⟩
  · exact ⟨hNN, split_unique hrecipient hA' hR (List.append_cancel_left hrest)⟩
  · -- a later line of the action or of the recipient would be taken for the action
    rcases split_distinct hrecipient haction (by simp) hrest with ⟨m', -, hm'⟩ | ⟨m', hm', -⟩
    · refine absurd ⟨m' ++ line "action=" ++ A', R', ?_⟩ hR
      simpa only [List.append_assoc] using hm'.symm
    · exact absurd ⟨m, m', hm'.symm⟩ hA
  · exact absurd ⟨N', m, hm.symm⟩ hN

/-- Two readings of the lines from the amount on: the same, or with the second amount
within the memo of the first, or the other way round. -/
theorem amount_line_cases (hM : '\n' ∉ M) (hM' : '\n' ∉ M') (hE : ¬line "nonce=" <:+: E)
    (hO : ¬line "nonce=" <:+: O)
    (h : head ++ line "amount_sats=" ++ (M ++ line "memo=" ++ (E ++ line "nonce=" ++ O)) =
      head' ++ line "amount_sats=" ++ (M' ++ line "memo=" ++ (E' ++ line "nonce=" ++ O'))) :
    (head = head' ∧ M = M' ∧ E = E' ∧ O = O') ∨
      line "amount_sats=" ++ M' ++ line "memo=" <:+: E ∨
      ∃ m, head = head' ++ line "amount_sats=" ++ M' ++ line "memo=" ++ m := by
  have hamount : '\n' ∉ "amount_sats=".toList := by decide
  have hmemo : '\n' ∉ "memo=".toList := by decide
  have hnonce : '\n' ∉ "nonce=".toList := by decide
  rcases append_separator_cases hamount hamount h with ⟨hhead, hrest⟩ | ⟨m, -, hrest⟩ | ⟨m, hm, hrest⟩
  · have hsplit := List.append_cancel_left hrest
    rcases append_separator_cases hmemo hmemo hsplit with ⟨hMM, htail⟩ | ⟨m, hm, -⟩ | ⟨m, hm, -⟩
    · exact .inl ⟨hhead, hMM, split_unique hnonce hE hO (List.append_cancel_left htail)⟩
    · exact absurd (by simp [hm]) hM'
    · exact absurd (by simp [hm]) hM
  · obtain ⟨m₁, -, hrest₁⟩ := split_of_notMem hmemo hamount (by simp) hM hrest
    rcases split_distinct hnonce hamount (by simp) hrest₁ with ⟨m₂, -, hm₂⟩ | ⟨m₂, hm₂, hrest₂⟩
    · refine absurd ⟨m₂ ++ line "amount_sats=" ++ M' ++ line "memo=" ++ E', O', ?_⟩ hO
      simpa only [List.append_assoc] using hm₂.symm
    · obtain ⟨m₃, hm₃, -⟩ := split_of_notMem hmemo hnonce (by simp) hM' hrest₂
      refine .inr (.inl ⟨m₁, m₃, ?_⟩)
      rw [hm₂, hm₃]
      simp only [List.append_assoc]
  · obtain ⟨m₁, hm₁, -⟩ := split_of_notMem hmemo hamount (by simp) hM' hrest
    refine .inr (.inr ⟨m₁, ?_⟩)
    rw [hm, hm₁]
    simp only [List.append_assoc]

end Readings

namespace BitcoinAuthorizationMessage

/-- The text after the first key. -/
def body (N A R M E O : List Char) : List Char :=
  N ++ line "action=" ++ (A ++ line "recipient=" ++ (R ++ line "amount_sats=" ++
    (M ++ line "memo=" ++ (E ++ line "nonce=" ++ O))))

def textBody (message : BitcoinAuthorizationMessage) : List Char :=
  body message.network.toList message.action.toList (message.recipient.getD "").toList
    (amountText message.amountSats).toList (message.memo.getD "").toList message.nonce.toList

theorem toList_lines (header n a r m e o : String) :
    (header ++ n ++ "\naction=" ++ a ++ "\nrecipient=" ++ r ++ "\namount_sats=" ++ m ++ "\nmemo=" ++
      e ++ "\nnonce=" ++ o).toList =
    header.toList ++ body n.toList a.toList r.toList m.toList e.toList o.toList := by
  have haction : "\naction=".toList = line "action=" := rfl
  have hrecipient : "\nrecipient=".toList = line "recipient=" := rfl
  have hamount : "\namount_sats=".toList = line "amount_sats=" := rfl
  have hmemo : "\nmemo=".toList = line "memo=" := rfl
  have hnonce : "\nnonce=".toList = line "nonce=" := rfl
  rw [body, ← haction, ← hrecipient, ← hamount, ← hmemo, ← hnonce]
  simp only [String.toList_append, List.append_assoc]

theorem toList_canonicalText (message : BitcoinAuthorizationMessage) :
    message.canonicalText.toList =
      "DKGKit Bitcoin Authorization\nnetwork=".toList ++ message.textBody :=
  toList_lines _ _ _ _ _ _ _

theorem body_eq (N A R M E O : List Char) : body N A R M E O =
    N ++ line "action=" ++ (A ++ line "recipient=" ++ R) ++ line "amount_sats=" ++
      (M ++ line "memo=" ++ (E ++ line "nonce=" ++ O)) := by
  simp only [body, List.append_assoc]

theorem toList_amountLine (amount : Option UInt64) :
    ("\namount_sats=" ++ amountText amount ++ "\nmemo=").toList =
      line "amount_sats=" ++ (amountText amount).toList ++ line "memo=" := by
  rw [String.toList_append, String.toList_append]
  rfl

theorem canonicalText_eq_iff {message message' : BitcoinAuthorizationMessage} :
    message.canonicalText = message'.canonicalText ↔ message.textBody = message'.textBody := by
  rw [← String.toList_inj, toList_canonicalText, toList_canonicalText, List.append_cancel_left_eq]

theorem Separable.sameFields {message message' : BitcoinAuthorizationMessage}
    (h : message.Separable) (htext : message.textBody = message'.textBody) :
    message.SameFields message' := by
  rw [textBody, textBody, body_eq, body_eq] at htext
  rcases amount_line_cases (notMem_amountText _) (notMem_amountText _) h.memo.1 h.nonce htext with
    ⟨hhead, hM, hE, hO⟩ | hmemo | ⟨m, hm⟩
  · obtain ⟨hN, hA, hR⟩ := head_unique h.network h.action.1 h.action.2 h.recipient.1 hhead
    exact ⟨String.toList_inj.mp hN, String.toList_inj.mp hA, String.toList_inj.mp hR,
      amountText_injective (String.toList_inj.mp hM), String.toList_inj.mp hE, String.toList_inj.mp hO⟩
  · exact absurd (by rwa [Contains, toList_amountLine]) (h.memo.2 message'.amountSats)
  · -- the other reading has its amount line within the recipient
    have hhead : message.network.toList ++ line "action=" ++
        (message.action.toList ++ line "recipient=" ++ (message.recipient.getD "").toList) =
        message'.network.toList ++ line "action=" ++ (message'.action.toList ++ line "recipient=" ++
          ((message'.recipient.getD "").toList ++ line "amount_sats=" ++
            (amountText message'.amountSats).toList ++ line "memo=" ++ m)) := by
      simpa only [List.append_assoc] using hm
    obtain ⟨-, -, hR⟩ := head_unique h.network h.action.1 h.action.2 h.recipient.1 hhead
    refine absurd ⟨(message'.recipient.getD "").toList, m, ?_⟩ (h.recipient.2 message'.amountSats)
    rw [toList_amountLine, hR]
    simp only [List.append_assoc]

/-- In a message with one reading, the fields of every reading are its own. -/
theorem eq_of_reading {message : BitcoinAuthorizationMessage}
    (hunique : ∀ message', message.canonicalText = message'.canonicalText → message.SameFields message')
    (N A R : List Char) (amount : Option UInt64) (E O : List Char)
    (h : message.textBody = body N A R (amountText amount).toList E O) :
    message.network.toList = N ∧ message.action.toList = A ∧ (message.recipient.getD "").toList = R ∧
      (message.memo.getD "").toList = E := by
  have hsame := hunique ⟨String.ofList N, String.ofList A, some (String.ofList R), amount,
    some (String.ofList E), String.ofList O⟩ (by
      rw [canonicalText_eq_iff, h]
      simp only [textBody, Option.getD_some, String.toList_ofList])
  refine ⟨?_, ?_, ?_, ?_⟩
  · rw [hsame.network, String.toList_ofList]
  · rw [hsame.action, String.toList_ofList]
  · rw [hsame.recipient, Option.getD_some, String.toList_ofList]
  · rw [hsame.memo, Option.getD_some, String.toList_ofList]

/-- A separator within a field gives the text a second reading, cut at that separator. -/
theorem separable_of_unique {message : BitcoinAuthorizationMessage}
    (hunique : ∀ message', message.canonicalText = message'.canonicalText →
      message.SameFields message') : message.Separable := by
  set N := message.network.toList with hN
  set A := message.action.toList with hA
  set R := (message.recipient.getD "").toList with hR
  set E := (message.memo.getD "").toList with hE
  set O := message.nonce.toList with hO
  set M := (amountText message.amountSats).toList with hM
  have htext : message.textBody = body N A R M E O := rfl
  -- each pair of neighbouring fields splits in one way only
  have haction : ¬line "action=" <:+: N ∧ ¬line "action=" <:+: A := by
    refine notInfix_of_split_unique fun N' A' hsplit => ?_
    refine (eq_of_reading hunique N' A' R message.amountSats E O ?_).1
    rw [htext]
    simp only [body, ← List.append_assoc, hsplit, hM]
  have hrecipient : ¬line "recipient=" <:+: A ∧ ¬line "recipient=" <:+: R := by
    refine notInfix_of_split_unique fun A' R' hsplit => ?_
    refine (eq_of_reading hunique N A' R' message.amountSats E O ?_).2.1
    rw [htext, body_eq, hsplit, body_eq]
  have hnonce : ¬line "nonce=" <:+: E ∧ ¬line "nonce=" <:+: O := by
    refine notInfix_of_split_unique fun E' O' hsplit => ?_
    refine (eq_of_reading hunique N A R message.amountSats E' O' ?_).2.2.2
    rw [htext, body_eq, hsplit, body_eq]
  refine ⟨haction.1, ⟨haction.2, hrecipient.1⟩, ⟨hrecipient.2, fun amount hin => ?_⟩,
    ⟨hnonce.1, fun amount hin => ?_⟩, hnonce.2⟩
  · -- the amount moves up into the recipient, the old amount line becomes part of the memo
    rw [Contains, toList_amountLine] at hin
    obtain ⟨x, y, hx⟩ := hin
    have hread := eq_of_reading hunique N A x amount
      (y ++ line "amount_sats=" ++ M ++ line "memo=" ++ E) O (by
        rw [htext, hR, ← hx]
        simp only [body, List.append_assoc])
    refine ne_append_separator x '\n' "amount_sats=".toList
      ((amountText amount).toList ++ line "memo=" ++ y) ?_
    simpa only [List.append_assoc] using hread.2.2.1.symm.trans hx.symm
  · rw [Contains, toList_amountLine] at hin
    obtain ⟨x, y, hx⟩ := hin
    have hread := eq_of_reading hunique N A (R ++ line "amount_sats=" ++ M ++ line "memo=" ++ x)
      amount y O (by
        rw [htext, hE, ← hx]
        simp only [body, List.append_assoc])
    refine ne_append_separator R '\n' "amount_sats=".toList (M ++ line "memo=" ++ x) ?_
    simpa only [List.append_assoc] using hread.2.2.1

theorem utf8_canonicalText_injective {message message' : BitcoinAuthorizationMessage}
    (h : message.canonicalText.toUTF8.data.toList = message'.canonicalText.toUTF8.data.toList) :
    message.canonicalText = message'.canonicalText := by
  have hdata := ByteArray.ext (Array.toList_inj.mp h)
  exact String.toByteArray_inj.mp hdata

end BitcoinAuthorizationMessage

open BitcoinAuthorizationMessage

/-- The fields of a message can be read off its text, and off its digest where SHA-256 has
no collision on the texts, exactly when no field holds a separator of the text. -/
theorem authorization_unambiguous_iff (message : BitcoinAuthorizationMessage) :
    ((∀ message', message.canonicalText = message'.canonicalText → message.SameFields message') ↔
      message.Separable) ∧
    ∀ sha256 : List UInt8 → Bytes 32,
      ((∀ message' : BitcoinAuthorizationMessage,
        (sha256 message.canonicalText.toUTF8.data.toList =
            sha256 message'.canonicalText.toUTF8.data.toList →
          message.canonicalText.toUTF8.data.toList = message'.canonicalText.toUTF8.data.toList) →
        message.digest sha256 = message'.digest sha256 → message.SameFields message') ↔
      message.Separable) := by
  refine ⟨⟨separable_of_unique, fun h message' htext => ?_⟩, fun sha256 =>
    ⟨fun h => separable_of_unique fun message' htext => ?_, fun h message' hcollision hdigest => ?_⟩⟩
  · exact h.sameFields (canonicalText_eq_iff.mp htext)
  · refine h message' (fun _ => by rw [htext]) ?_
    rw [digest, digest, htext]
  · have htext := utf8_canonicalText_injective (hcollision hdigest)
    exact h.sameFields (canonicalText_eq_iff.mp htext)

/-- A line break in the network or in the action moves the border between the two. -/
theorem authorization_ambiguous :
    let message : BitcoinAuthorizationMessage :=
      ⟨"signet\naction=approve", "pay", some "tb1ptest", some 100000, none, "demo-001"⟩
    let message' : BitcoinAuthorizationMessage :=
      ⟨"signet", "approve\naction=pay", some "tb1ptest", some 100000, none, "demo-001"⟩
    message.canonicalText = message'.canonicalText ∧
      (∀ sha256, message.digest sha256 = message'.digest sha256) ∧ ¬message.SameFields message' := by
  intro message message'
  have htext : message.canonicalText = message'.canonicalText := by
    have hnetwork : "signet\naction=approve".toList =
        "signet".toList ++ line "action=" ++ "approve".toList := by decide
    have haction : "approve\naction=pay".toList =
        "approve".toList ++ line "action=" ++ "pay".toList := by decide
    rw [canonicalText_eq_iff, textBody, textBody, hnetwork, haction]
    simp only [body, List.append_assoc, message, message']
  refine ⟨htext, fun sha256 => by rw [digest, digest, htext], fun h => ?_⟩
  exact absurd h.network (by decide)

end DkgKit
