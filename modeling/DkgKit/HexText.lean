import DkgKit.BigEndian

/-! Reading hexadecimal text: pairs of digits in either case, and nothing else. -/

namespace BigEndian

def hexValue (c : Char) : Option ℕ :=
  if 48 ≤ c.toNat ∧ c.toNat ≤ 57 then some (c.toNat - 48)
  else if 97 ≤ c.toNat ∧ c.toNat ≤ 102 then some (c.toNat - 87)
  else if 65 ≤ c.toNat ∧ c.toNat ≤ 70 then some (c.toNat - 55)
  else none

def hexPairs : List Char → Option (List UInt8)
  | [] => some []
  | [_] => none
  | high :: low :: rest =>
    (hexValue high).bind fun h => (hexValue low).bind fun l =>
      (hexPairs rest).map fun bytes => UInt8.ofNat (16 * h + l) :: bytes

def hexDecode (text : String) : Option (List UInt8) := hexPairs text.toList

theorem hexValue_digitChar : ∀ {n : ℕ}, n < 16 → hexValue (Nat.digitChar n) = some n := by
  decide

@[simp] theorem hexDecode_hexText (bytes : List UInt8) : hexDecode (hexText bytes) = some bytes := by
  rw [hexDecode, hexText, String.toList_ofList]
  induction bytes with
  | nil => rfl
  | cons byte rest ih =>
    have hlt := byte.toNat_lt
    have hhigh := @hexValue_digitChar (byte.toNat / 16) (by omega)
    have hlow := @hexValue_digitChar (byte.toNat % 16) (Nat.mod_lt _ (by decide))
    have hbyte : 16 * (byte.toNat / 16) + byte.toNat % 16 = byte.toNat := by omega
    rw [List.flatMap_cons]
    simp only [List.cons_append, List.nil_append, hexPairs, hhigh, hlow, ih, Option.bind_some,
      Option.map_some, hbyte, UInt8.ofNat_toNat]

end BigEndian
