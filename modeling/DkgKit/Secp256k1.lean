import Mathlib.Algebra.Module.ZMod
import Mathlib.Algebra.Field.ZMod
import Mathlib.FieldTheory.Finite.Basic
import DkgKit.ShortWeierstrass

/-! The group of secp256k1: prime field and group order, the generator, and the
points as a module over the scalars. -/

open WeierstrassCurve ShortWeierstrass LucasCertificate

namespace DkgKit

@[irreducible] def fieldPrime : ℕ := 0xFFFFFFFFFFFFFFFFFFFFFFFFFFFFFFFFFFFFFFFFFFFFFFFFFFFFFFFEFFFFFC2F

@[irreducible] def groupOrder : ℕ := 0xFFFFFFFFFFFFFFFFFFFFFFFFFFFFFFFEBAAEDCE6AF48A03BBFD25E8CD0364141

/-- Lucas certificates for the two primes and every prime below them. -/
def primalityCertificate : List Entry :=
  [⟨115792089237316195423570985008687907853269984665640564039457584007908834671663, 3, [2, 3, 7,
    13441, 205115282021455665897114700593932402728804164701536103180137503955397371]⟩,
    ⟨205115282021455665897114700593932402728804164701536103180137503955397371, 10, [2, 3, 5, 29,
    29, 31, 7723, 132896956044521568488119, 255515944373312847190720520512484175977]⟩, ⟨31, 3, [2,
    3, 5]⟩, ⟨132896956044521568488119, 6, [2, 3, 22149492674086928081353]⟩,
    ⟨22149492674086928081353, 5, [2, 2, 2, 3, 5323, 173378833005251801]⟩, ⟨5323, 5, [2, 3, 887]⟩,
    ⟨887, 5, [2, 443]⟩, ⟨173378833005251801, 6, [2, 2, 2, 5, 5, 2621, 24809, 13331831]⟩, ⟨2621, 2,
    [2, 2, 5, 131]⟩, ⟨131, 2, [2, 5, 13]⟩, ⟨13331831, 13, [2, 5, 971, 1373]⟩, ⟨1373, 2, [2, 2, 7,
    7, 7]⟩, ⟨971, 6, [2, 5, 97]⟩, ⟨24809, 6, [2, 2, 2, 7, 443]⟩, ⟨443, 2, [2, 13, 17]⟩, ⟨7723, 3,
    [2, 3, 3, 3, 11, 13]⟩, ⟨255515944373312847190720520512484175977, 3, [2, 2, 2, 7, 7, 11, 1627,
    2657, 4423, 41201, 96557, 7240687, 107590001]⟩, ⟨1627, 3, [2, 3, 271]⟩, ⟨271, 6, [2, 3, 3, 3,
    5]⟩, ⟨107590001, 3, [2, 2, 2, 2, 5, 5, 5, 5, 7, 29, 53]⟩, ⟨53, 2, [2, 2, 13]⟩, ⟨41201, 3, [2,
    2, 2, 2, 5, 5, 103]⟩, ⟨103, 5, [2, 3, 17]⟩, ⟨7240687, 3, [2, 3, 1206781]⟩, ⟨1206781, 10, [2,
    2, 3, 5, 20113]⟩, ⟨20113, 10, [2, 2, 2, 2, 3, 419]⟩, ⟨419, 2, [2, 11, 19]⟩, ⟨96557, 2, [2, 2,
    101, 239]⟩, ⟨239, 7, [2, 7, 17]⟩, ⟨101, 2, [2, 2, 5, 5]⟩, ⟨4423, 3, [2, 3, 11, 67]⟩, ⟨2657, 3,
    [2, 2, 2, 2, 2, 83]⟩, ⟨83, 2, [2, 41]⟩, ⟨13441, 11, [2, 2, 2, 2, 2, 2, 2, 3, 5, 7]⟩,
    ⟨115792089237316195423570985008687907852837564279074904382605163141518161494337, 7, [2, 2, 2,
    2, 2, 2, 3, 149, 631, 107361793816595537, 174723607534414371449,
    341948486974166000522343609283189]⟩, ⟨631, 3, [2, 3, 3, 5, 7]⟩,
    ⟨341948486974166000522343609283189, 2, [2, 2, 3, 3, 3, 109, 29047611873442575647497758179]⟩,
    ⟨29047611873442575647497758179, 2, [2, 293, 305873, 545358713, 297159362677]⟩, ⟨545358713, 5,
    [2, 2, 2, 41, 59, 28181]⟩, ⟨28181, 2, [2, 2, 5, 1409]⟩, ⟨1409, 3, [2, 2, 2, 2, 2, 2, 2, 11]⟩,
    ⟨297159362677, 2, [2, 2, 3, 3, 11, 461, 1627771]⟩, ⟨1627771, 3, [2, 3, 5, 29, 1871]⟩, ⟨1871,
    14, [2, 5, 11, 17]⟩, ⟨461, 2, [2, 2, 5, 23]⟩, ⟨305873, 3, [2, 2, 2, 2, 7, 2731]⟩, ⟨2731, 3,
    [2, 3, 5, 7, 13]⟩, ⟨293, 2, [2, 2, 73]⟩, ⟨73, 5, [2, 2, 2, 3, 3]⟩, ⟨109, 6, [2, 2, 3, 3, 3]⟩,
    ⟨149, 2, [2, 2, 37]⟩, ⟨37, 2, [2, 2, 3, 3]⟩, ⟨107361793816595537, 3, [2, 2, 2, 2, 16699,
    85831, 4681609]⟩, ⟨85831, 3, [2, 3, 5, 2861]⟩, ⟨2861, 2, [2, 2, 5, 11, 13]⟩, ⟨13, 2, [2, 2,
    3]⟩, ⟨16699, 3, [2, 3, 11, 11, 23]⟩, ⟨23, 5, [2, 11]⟩, ⟨4681609, 23, [2, 2, 2, 3, 97, 2011]⟩,
    ⟨2011, 3, [2, 3, 5, 67]⟩, ⟨67, 2, [2, 3, 11]⟩, ⟨97, 5, [2, 2, 2, 2, 2, 3]⟩,
    ⟨174723607534414371449, 3, [2, 2, 2, 17, 59, 4051, 120233, 44706919]⟩, ⟨59, 2, [2, 29]⟩, ⟨29,
    2, [2, 2, 7]⟩, ⟨4051, 10, [2, 3, 3, 3, 3, 5, 5]⟩, ⟨17, 3, [2, 2, 2, 2]⟩, ⟨120233, 3, [2, 2, 2,
    7, 19, 113]⟩, ⟨113, 3, [2, 2, 2, 2, 7]⟩, ⟨7, 3, [2, 3]⟩, ⟨44706919, 6, [2, 3, 797, 9349]⟩,
    ⟨9349, 2, [2, 2, 3, 19, 41]⟩, ⟨41, 6, [2, 2, 2, 5]⟩, ⟨19, 2, [2, 3, 3]⟩, ⟨797, 2, [2, 2,
    199]⟩, ⟨199, 3, [2, 3, 3, 11]⟩, ⟨11, 2, [2, 5]⟩, ⟨5, 2, [2, 2]⟩, ⟨3, 2, [2]⟩, ⟨2, 1, []⟩]

theorem primalityCertificate_valid : valid 64 primalityCertificate = true := by
  decide +kernel

theorem prime_of_mem_certificate {p : ℕ}
    (h : (primalityCertificate.map Entry.number).contains p = true) : p.Prime := by
  obtain ⟨e, he, rfl⟩ := List.mem_map.mp (List.contains_iff_mem.mp h)
  exact prime_of_valid primalityCertificate_valid e he

theorem prime_fieldPrime : fieldPrime.Prime :=
  prime_of_mem_certificate (by simp [primalityCertificate, fieldPrime])

theorem prime_groupOrder : groupOrder.Prime :=
  prime_of_mem_certificate (by simp [primalityCertificate, groupOrder])

instance : Fact fieldPrime.Prime := ⟨prime_fieldPrime⟩

instance : Fact groupOrder.Prime := ⟨prime_groupOrder⟩

abbrev Coordinate := ZMod fieldPrime

abbrev Scalar := ZMod groupOrder

/-- A point of `y² = x³ + 7`, the point at infinity included. -/
abbrev Point := (curve (7 : Coordinate)).Point

abbrev ordinateSq (x : Coordinate) : Coordinate := x ^ 3 + 7

theorem coordinate_natCast_ne_zero {n : ℕ} (hpos : 0 < n) (hlt : n < fieldPrime) :
    (n : Coordinate) ≠ 0 := by
  rw [Ne, ZMod.natCast_eq_zero_iff]
  exact Nat.not_dvd_of_pos_of_lt hpos hlt

/-- Sixteen-bit numbers are distinct scalars. -/
theorem scalar_natCast_inj {m n : ℕ} (hm : m < 65536) (hn : n < 65536) :
    (m : Scalar) = n ↔ m = n := by
  have hlt : 65536 < groupOrder := by norm_num [groupOrder]
  rw [ZMod.natCast_eq_natCast_iff', Nat.mod_eq_of_lt (hm.trans hlt), Nat.mod_eq_of_lt (hn.trans hlt)]

theorem scalar_natCast_ne_zero {n : ℕ} (hpos : 0 < n) (hlt : n < 65536) : (n : Scalar) ≠ 0 := by
  rw [← Nat.cast_zero, Ne, scalar_natCast_inj hlt (by decide)]
  exact hpos.ne'

theorem seven_lt_fieldPrime : 7 < fieldPrime := by norm_num [fieldPrime]

theorem nonsingular_of_sq_eq {x y : Coordinate} (h : y ^ 2 = x ^ 3 + 7) :
    (curve (7 : Coordinate)).Nonsingular x y := by
  have hlt := seven_lt_fieldPrime
  have h6 := coordinate_natCast_ne_zero (n := 6) (by decide) (by omega)
  have h7 := coordinate_natCast_ne_zero (n := 7) (by decide) hlt
  exact nonsingular_of_equation (by exact_mod_cast h6) (by exact_mod_cast h7) h

def pointOf {x y : Coordinate} (h : y ^ 2 = ordinateSq x) : Point :=
  .some x y (nonsingular_of_sq_eq h)

theorem pointOf_ne_zero {x y : Coordinate} (h : y ^ 2 = ordinateSq x) : pointOf h ≠ 0 :=
  Affine.Point.some_ne_zero _

def generatorCoords : ℕ × ℕ :=
  (0x79BE667EF9DCBBAC55A06295CE870B07029BFCDB2DCE28D959F2815B16F81798,
    0x483ADA7726A3C4655DA4FBFC0E1108A8FD17B448A68554199C47D08FFB10D4B8)

theorem generatorCoords_equation :
    (generatorCoords.2 : Coordinate) ^ 2 = (generatorCoords.1 : Coordinate) ^ 3 + 7 := by
  have h : ((generatorCoords.2 ^ 2 : ℕ) : Coordinate) = ((generatorCoords.1 ^ 3 + 7 : ℕ) : Coordinate) := by
    rw [ZMod.natCast_eq_natCast_iff']
    norm_num [generatorCoords, fieldPrime]
  exact_mod_cast h

def generator : Point :=
  .some _ _ (nonsingular_of_sq_eq generatorCoords_equation)

theorem generator_ne_zero : generator ≠ 0 := Affine.Point.some_ne_zero _

theorem hasCoords_generator : HasCoords generator generatorCoords :=
  ⟨nonsingular_of_sq_eq generatorCoords_equation, by rw [generator]⟩

theorem multiple_generator : multiple fieldPrime generatorCoords (groupOrder - 1) 255 255 =
    some (generatorCoords.1, fieldPrime - generatorCoords.2) := by
  decide +kernel

theorem groupOrder_nsmul_generator : groupOrder • generator = 0 := by
  obtain ⟨h, he⟩ := multiple_sound hasCoords_generator (k := groupOrder - 1)
    (by norm_num [groupOrder]) 255 le_rfl multiple_generator
  rw [Nat.sub_self, pow_zero, Nat.div_one] at he
  have hy : ((fieldPrime - generatorCoords.2 : ℕ) : Coordinate) = -generatorCoords.2 := by
    rw [Nat.cast_sub (by norm_num [generatorCoords, fieldPrime]), ZMod.natCast_self, zero_sub]
  have hneg : (groupOrder - 1) • generator = -generator := by
    rw [he]
    simp only [generator, Affine.Point.neg_some, negY_eq, Affine.Point.some.injEq, true_and]
    exact hy
  calc groupOrder • generator = (groupOrder - 1) • generator + generator := by
        rw [← succ_nsmul, Nat.sub_add_cancel prime_groupOrder.one_lt.le]
    _ = 0 := by rw [hneg, neg_add_cancel]

/-- `-7` is not a cube, so no point has ordinate zero. -/
theorem cube_add_seven_ne_zero (x : Coordinate) : x ^ 3 + 7 ≠ 0 := by
  intro h
  have h7 : ((fieldPrime - 7 : ℕ) : Coordinate) = x ^ 3 := by
    rw [Nat.cast_sub seven_lt_fieldPrime.le, ZMod.natCast_self]
    push_cast
    linear_combination -h
  have hx : x ≠ 0 := by
    rintro rfl
    exact coordinate_natCast_ne_zero (n := 7) (by decide) seven_lt_fieldPrime (by simpa using h)
  have hone : ((fieldPrime - 7 : ℕ) : Coordinate) ^ ((fieldPrime - 1) / 3) = 1 := by
    have hdiv : 3 * ((fieldPrime - 1) / 3) = fieldPrime - 1 := by norm_num [fieldPrime]
    rw [h7, ← pow_mul, hdiv, ZMod.pow_card_sub_one_eq_one hx]
  rw [← powMod_mod_eq_one_iff 64 prime_fieldPrime.one_lt (by norm_num [fieldPrime])] at hone
  exact absurd hone (by decide +kernel)

theorem two_ne_zero_coordinate : (2 : Coordinate) ≠ 0 := by
  have hlt := seven_lt_fieldPrime
  exact_mod_cast coordinate_natCast_ne_zero (n := 2) (by decide) (by omega)

theorem card_point : Nat.card Point = groupOrder :=
  card_eq_of_nsmul_eq_zero prime_groupOrder generator_ne_zero groupOrder_nsmul_generator
    two_ne_zero_coordinate cube_add_seven_ne_zero (by
      rw [ZMod.card]
      norm_num [fieldPrime, groupOrder])

instance : Module Scalar Point := AddCommGroup.zmodModule (nsmul_eq_zero_of_card card_point)

theorem natCast_smul_point (k : ℕ) (P : Point) : (k : Scalar) • P = k • P :=
  Nat.cast_smul_eq_nsmul Scalar k P

theorem exists_smul_generator (P : Point) : ∃ s : Scalar, s • generator = P := by
  obtain ⟨k, hk⟩ := exists_nsmul_eq_of_card card_point generator_ne_zero P
  exact ⟨k, by rw [natCast_smul_point, hk]⟩

theorem smul_generator_eq_zero {s : Scalar} : s • generator = 0 ↔ s = 0 := by
  simp [smul_eq_zero, generator_ne_zero]

theorem smul_generator_injective : Function.Injective fun s : Scalar => s • generator :=
  smul_left_injective Scalar generator_ne_zero

end DkgKit
