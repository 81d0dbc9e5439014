import DkgKit.BigEndian
import DkgKit.Secp256k1

/-! Byte encodings of scalars and points, and the choice of the point with even
ordinate above an abscissa. These follow the documentation of `secp256kfun`. -/

open WeierstrassCurve ShortWeierstrass LucasCertificate BigEndian

namespace DkgKit

section Scalars

def scalarToBytes (s : Scalar) : Bytes 32 := encode 32 s.val

/-- Only the canonical representative below the group order decodes. -/
def scalarFromBytes (bytes : Bytes 32) : Option Scalar :=
  if decode bytes < groupOrder then some (decode bytes : Scalar) else none

theorem scalar_val_lt (s : Scalar) : s.val < 256 ^ 32 :=
  (ZMod.val_lt s).trans (by norm_num [groupOrder])

theorem decode_scalarToBytes (s : Scalar) : decode (scalarToBytes s) = s.val :=
  decode_encode (scalar_val_lt s)

@[simp] theorem scalarFromBytes_toBytes (s : Scalar) : scalarFromBytes (scalarToBytes s) = some s := by
  rw [scalarFromBytes, decode_scalarToBytes, if_pos (ZMod.val_lt s), ZMod.natCast_zmod_val]

theorem scalarFromBytes_eq_some {bytes : Bytes 32} {s : Scalar} :
    scalarFromBytes bytes = some s ↔ scalarToBytes s = bytes := by
  constructor
  · intro h
    simp only [scalarFromBytes, Option.ite_none_right_eq_some, Option.some.injEq] at h
    obtain ⟨hlt, rfl⟩ := h
    rw [scalarToBytes, ZMod.val_natCast_of_lt hlt, encode_decode]
  · rintro rfl
    exact scalarFromBytes_toBytes s

end Scalars

section Parity

def isOddY : Point → Bool
  | .zero => false
  | .some _ y _ => y.val % 2 == 1

def xCoordinate : Point → Coordinate
  | .zero => 0
  | .some x _ _ => x

theorem y_ne_zero {x y : Coordinate} (h : (curve (7 : Coordinate)).Nonsingular x y) : y ≠ 0 := by
  rintro rfl
  exact cube_add_seven_ne_zero x (by simpa using (equation_iff.mp h.1).symm)

theorem fieldPrime_mod_two : fieldPrime % 2 = 1 := by norm_num [fieldPrime]

theorem isOddY_neg {P : Point} (hP : P ≠ 0) : isOddY (-P) = !isOddY P := by
  cases P with
  | zero => exact absurd rfl hP
  | some x y h =>
    have hy : NeZero y := ⟨y_ne_zero h⟩
    have hlt := ZMod.val_lt y
    have hodd := fieldPrime_mod_two
    rw [Affine.Point.neg_some]
    simp only [isOddY, negY_eq, ZMod.val_neg_of_ne_zero y]
    rcases Nat.mod_two_eq_zero_or_one y.val with hp | hp
    · simp [hp, show (fieldPrime - y.val) % 2 = 1 by omega]
    · simp [hp, show (fieldPrime - y.val) % 2 = 0 by omega]

theorem xCoordinate_eq_iff {P Q : Point} (hP : P ≠ 0) (hQ : Q ≠ 0) :
    xCoordinate P = xCoordinate Q ↔ P = Q ∨ P = -Q := by
  cases P with
  | zero => exact absurd rfl hP
  | some x y h =>
    cases Q with
    | zero => exact absurd rfl hQ
    | some x' y' h' => exact Affine.Point.X_eq_iff

theorem point_ext {P Q : Point} (hP : P ≠ 0) (hQ : Q ≠ 0)
    (hx : xCoordinate P = xCoordinate Q) (hy : isOddY P = isOddY Q) : P = Q := by
  rcases (xCoordinate_eq_iff hP hQ).mp hx with h | h
  · exact h
  · rw [h, isOddY_neg hQ] at hy
    cases hb : isOddY Q <;> simp [hb] at hy

/-- `into_point_with_even_y`: the even one of `P` and `-P`, and whether it is `-P`. -/
def intoPointWithEvenY (P : Point) : Point × Bool :=
  if isOddY P then (-P, true) else (P, false)

theorem isOddY_intoPointWithEvenY {P : Point} (hP : P ≠ 0) :
    isOddY (intoPointWithEvenY P).1 = false := by
  rw [intoPointWithEvenY]
  split_ifs with h
  · simp [isOddY_neg hP, h]
  · simpa using h

theorem intoPointWithEvenY_ne_zero {P : Point} (hP : P ≠ 0) : (intoPointWithEvenY P).1 ≠ 0 := by
  rw [intoPointWithEvenY]
  split_ifs
  · exact neg_ne_zero.mpr hP
  · exact hP

theorem intoPointWithEvenY_snd (P : Point) : (intoPointWithEvenY P).2 = isOddY P := by
  rw [intoPointWithEvenY]
  split_ifs with h <;> simp [h]

def conditionalNegate (negate : Bool) (s : Scalar) : Scalar := if negate then -s else s

theorem conditionalNegate_eq_mul (negate : Bool) (s : Scalar) :
    conditionalNegate negate s = conditionalNegate negate 1 * s := by
  cases negate <;> simp [conditionalNegate]

theorem conditionalNegate_smul_generator (s : Scalar) :
    conditionalNegate (isOddY (s • generator)) s • generator =
      (intoPointWithEvenY (s • generator)).1 := by
  rw [conditionalNegate, intoPointWithEvenY]
  split_ifs <;> simp

end Parity

section Encoding

/-- A square root of `a` when it has one: the field prime is `3` modulo `4`. -/
def squareRoot (a : Coordinate) : Coordinate :=
  (powMod fieldPrime a.val 64 ((fieldPrime + 1) / 4) : ℕ)

theorem squareRoot_sq {y a : Coordinate} (h : y ^ 2 = a) : squareRoot a ^ 2 = a := by
  have hcast : squareRoot a = a ^ ((fieldPrime + 1) / 4) := by
    rw [squareRoot, powMod_cast _ _ _ _ (by norm_num [fieldPrime]), ZMod.natCast_zmod_val]
  have hexp : 2 * ((fieldPrime + 1) / 4 * 2) = fieldPrime + 1 := by norm_num [fieldPrime]
  rw [hcast, ← pow_mul, ← h, ← pow_mul, hexp, pow_succ, ZMod.pow_card, sq]

def liftX (x : Coordinate) (odd : Bool) : Option Point :=
  if h : squareRoot (ordinateSq x) ^ 2 = ordinateSq x then
    let P := pointOf h
    some (if isOddY P = odd then P else -P)
  else none

theorem liftX_eq_some {x : Coordinate} {odd : Bool} {P : Point} :
    liftX x odd = some P ↔ P ≠ 0 ∧ xCoordinate P = x ∧ isOddY P = odd := by
  have hlift : ∀ R, liftX x odd = some R → R ≠ 0 ∧ xCoordinate R = x ∧ isOddY R = odd := by
    intro R hR
    simp only [liftX, Option.dite_none_right_eq_some, Option.some.injEq] at hR
    obtain ⟨h, rfl⟩ := hR
    split_ifs with ho
    · exact ⟨pointOf_ne_zero h, rfl, ho⟩
    · refine ⟨neg_ne_zero.mpr (pointOf_ne_zero h), rfl, ?_⟩
      rw [isOddY_neg (pointOf_ne_zero h)]
      cases odd <;> simpa using ho
  constructor
  · exact hlift P
  · rintro ⟨hP, rfl, rfl⟩
    have hroot : squareRoot (ordinateSq (xCoordinate P)) ^ 2 = ordinateSq (xCoordinate P) := by
      cases P with
      | zero => exact absurd rfl hP
      | some x y h => exact squareRoot_sq (equation_iff.mp h.1)
    obtain ⟨R, hR⟩ : ∃ R, liftX (xCoordinate P) (isOddY P) = some R := by
      rw [liftX, dif_pos hroot]
      exact ⟨_, rfl⟩
    obtain ⟨hR0, hRx, hRy⟩ := hlift R hR
    rw [hR, point_ext hR0 hP hRx hRy]

def pointToXonlyBytes (P : Point) : Bytes 32 := encode 32 (xCoordinate P).val

theorem pointToXonlyBytes_intoPointWithEvenY (P : Point) :
    pointToXonlyBytes (intoPointWithEvenY P).1 = pointToXonlyBytes P := by
  rw [intoPointWithEvenY]
  split_ifs
  · cases P <;> rfl
  · rfl

def liftXBytes (bytes : Bytes 32) (odd : Bool) : Option Point :=
  if decode bytes < fieldPrime then liftX (decode bytes : ℕ) odd else none

def pointFromXonlyBytes (bytes : Bytes 32) : Option Point := liftXBytes bytes false

theorem liftXBytes_eq_some {bytes : Bytes 32} {odd : Bool} {P : Point} :
    liftXBytes bytes odd = some P ↔ P ≠ 0 ∧ pointToXonlyBytes P = bytes ∧ isOddY P = odd := by
  have hval : (xCoordinate P).val < 256 ^ 32 := (ZMod.val_lt _).trans (by norm_num [fieldPrime])
  simp only [liftXBytes, Option.ite_none_right_eq_some, liftX_eq_some]
  constructor
  · rintro ⟨hlt, hP, hx, hy⟩
    refine ⟨hP, ?_, hy⟩
    rw [pointToXonlyBytes, hx, ZMod.val_natCast_of_lt hlt, encode_decode]
  · rintro ⟨hP, rfl, hy⟩
    rw [pointToXonlyBytes, decode_encode hval]
    exact ⟨ZMod.val_lt _, hP, (ZMod.natCast_zmod_val _).symm, hy⟩

theorem pointFromXonlyBytes_eq_some {bytes : Bytes 32} {P : Point} :
    pointFromXonlyBytes bytes = some P ↔ P ≠ 0 ∧ pointToXonlyBytes P = bytes ∧ isOddY P = false :=
  liftXBytes_eq_some

theorem eq_or_eq_neg_of_xonly {P Q : Point} (hP : P ≠ 0) (hQ : Q ≠ 0)
    (h : pointToXonlyBytes P = pointToXonlyBytes Q) : P = Q ∨ P = -Q := by
  have heven : ∀ R : Point, R ≠ 0 →
      pointFromXonlyBytes (pointToXonlyBytes R) = some (intoPointWithEvenY R).1 := fun R hR =>
    pointFromXonlyBytes_eq_some.mpr ⟨intoPointWithEvenY_ne_zero hR,
      pointToXonlyBytes_intoPointWithEvenY R, isOddY_intoPointWithEvenY hR⟩
  have hsame : (intoPointWithEvenY P).1 = (intoPointWithEvenY Q).1 :=
    Option.some.inj ((heven P hP).symm.trans (h ▸ heven Q hQ))
  rw [intoPointWithEvenY, intoPointWithEvenY] at hsame
  split_ifs at hsame
  · exact .inl (neg_inj.mp hsame)
  · exact .inr (neg_eq_iff_eq_neg.mp hsame)
  · exact .inr hsame
  · exact .inl hsame

/-- Compressed SEC1 encoding; the point at infinity is all zeros. -/
def pointToBytes : Point → Bytes 33
  | .zero => List.Vector.replicate 33 0
  | .some x y h => (if isOddY (.some x y h) then 3 else 2) ::ᵥ pointToXonlyBytes (.some x y h)

/-- `Point::<Normal, NonZero>::from_bytes`: the point at infinity does not decode. -/
def pointFromBytes (bytes : Bytes 33) : Option Point :=
  if bytes.head = 2 then liftXBytes bytes.tail false
  else if bytes.head = 3 then liftXBytes bytes.tail true
  else none

theorem pointToBytes_of_ne_zero {P : Point} (hP : P ≠ 0) :
    pointToBytes P = (if isOddY P then 3 else 2) ::ᵥ pointToXonlyBytes P := by
  cases P with
  | zero => exact absurd rfl hP
  | some x y h => rfl

theorem pointFromBytes_eq_some {bytes : Bytes 33} {P : Point} :
    pointFromBytes bytes = some P ↔ P ≠ 0 ∧ pointToBytes P = bytes := by
  constructor
  · intro h
    rw [pointFromBytes] at h
    split_ifs at h with h2 h3
    · obtain ⟨hP, hx, hy⟩ := liftXBytes_eq_some.mp h
      refine ⟨hP, ?_⟩
      rw [pointToBytes_of_ne_zero hP, hx, hy, if_neg (by simp), ← h2, List.Vector.cons_head_tail]
    · obtain ⟨hP, hx, hy⟩ := liftXBytes_eq_some.mp h
      refine ⟨hP, ?_⟩
      rw [pointToBytes_of_ne_zero hP, hx, hy, if_pos rfl, ← h3, List.Vector.cons_head_tail]
  · rintro ⟨hP, rfl⟩
    rw [pointToBytes_of_ne_zero hP, pointFromBytes, List.Vector.head_cons, List.Vector.tail_cons]
    cases hy : isOddY P
    · simpa using liftXBytes_eq_some.mpr ⟨hP, rfl, hy⟩
    · simpa using liftXBytes_eq_some.mpr ⟨hP, rfl, hy⟩

theorem pointToBytes_injective : Function.Injective pointToBytes := by
  have hzero : ∀ P : Point, P ≠ 0 → pointToBytes P ≠ pointToBytes 0 := by
    intro P hP he
    have hh := congrArg List.Vector.head he
    rw [pointToBytes_of_ne_zero hP, List.Vector.head_cons] at hh
    have h0 : (pointToBytes 0).head = 0 := rfl
    rw [h0] at hh
    split_ifs at hh <;> exact absurd hh (by decide)
  intro P Q h
  by_cases hP : P = 0
  · by_cases hQ : Q = 0
    · rw [hP, hQ]
    · exact absurd (hP ▸ h).symm (hzero Q hQ)
  · have hQ : Q ≠ 0 := fun hQ => hzero P hP (hQ ▸ h)
    exact Option.some_inj.mp ((pointFromBytes_eq_some.mpr ⟨hP, h⟩).symm.trans
      (pointFromBytes_eq_some.mpr ⟨hQ, rfl⟩))

def asArray (n : ℕ) (bytes : List UInt8) : Option (Bytes n) :=
  if h : bytes.length = n then some ⟨bytes, h⟩ else none

theorem asArray_eq_some {n : ℕ} {bytes : List UInt8} {array : Bytes n} :
    asArray n bytes = some array ↔ bytes = array.toList := by
  rw [asArray]
  split_ifs with h
  · constructor
    · intro heq
      obtain rfl := Option.some.inj heq
      rfl
    · rintro rfl
      exact congrArg some (Subtype.ext rfl)
  · simp only [false_iff]
    rintro rfl
    exact h array.toList_length

end Encoding

end DkgKit
