import Mathlib.Data.Vector.Basic

/-! Fixed-length byte strings, their hexadecimal text and the big-endian encoding of natural
numbers. -/

namespace BigEndian

abbrev Bytes (n : ℕ) := List.Vector UInt8 n

def digits : ℕ → ℕ → List UInt8
  | 0, _ => []
  | k + 1, n => UInt8.ofNat (n % 256) :: digits k (n / 256)

def value : List UInt8 → ℕ
  | [] => 0
  | d :: ds => d.toNat + 256 * value ds

def hexText (bytes : List UInt8) : String :=
  String.ofList (bytes.flatMap fun byte => [Nat.digitChar (byte.toNat / 16), Nat.digitChar (byte.toNat % 16)])

@[simp] theorem length_digits (k n : ℕ) : (digits k n).length = k := by
  induction k generalizing n with
  | zero => rfl
  | succ k ih => simp [digits, ih]

theorem value_digits (k n : ℕ) : value (digits k n) = n % 256 ^ k := by
  induction k generalizing n with
  | zero => simp [digits, value, Nat.mod_one]
  | succ k ih =>
    have hd : (UInt8.ofNat (n % 256)).toNat = n % 256 := by
      rw [UInt8.toNat_ofNat', Nat.mod_eq_of_lt (Nat.mod_lt n (by decide))]
    have hm : n % (256 * 256 ^ k) = n % 256 + 256 * (n / 256 % 256 ^ k) := Nat.mod_mul
    rw [digits, value, ih, hd, pow_succ', hm]

theorem digits_value (l : List UInt8) : digits l.length (value l) = l := by
  induction l with
  | nil => rfl
  | cons d ds ih =>
    have hd : d.toNat < 256 := d.toNat_lt
    have hmod : (d.toNat + 256 * value ds) % 256 = d.toNat := by omega
    have hdiv : (d.toNat + 256 * value ds) / 256 = value ds := by omega
    rw [value, List.length_cons, digits, hmod, hdiv, ih, UInt8.ofNat_toNat]

theorem take_digits (k m n : ℕ) : (digits (k + m) n).take k = digits k n := by
  induction k generalizing n with
  | zero => rfl
  | succ k ih =>
    have hlen : k + 1 + m = (k + m) + 1 := by omega
    rw [hlen, digits, List.take_succ_cons, ih, digits]

def encode (k n : ℕ) : Bytes k := ⟨(digits k n).reverse, by simp⟩

def decode {k : ℕ} (bytes : Bytes k) : ℕ := value bytes.1.reverse

theorem decode_encode {k n : ℕ} (h : n < 256 ^ k) : decode (encode k n) = n := by
  rw [decode, encode, List.reverse_reverse, value_digits, Nat.mod_eq_of_lt h]

theorem encode_decode {k : ℕ} (bytes : Bytes k) : encode k (decode bytes) = bytes := by
  obtain ⟨l, rfl⟩ := bytes
  have hd := digits_value l.reverse
  rw [List.length_reverse] at hd
  apply Subtype.ext
  change (digits l.length (value l.reverse)).reverse = l
  rw [hd, List.reverse_reverse]

end BigEndian
