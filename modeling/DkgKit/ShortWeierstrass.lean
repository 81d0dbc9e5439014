import Mathlib.AlgebraicGeometry.EllipticCurve.Affine.Point
import Mathlib.GroupTheory.OrderOfElement
import Mathlib.GroupTheory.Perm.Cycle.Type
import Mathlib.GroupTheory.SpecificGroups.Cyclic
import DkgKit.LucasCertificate

/-! Curves `y² = x³ + b` over a finite field: multiples of a base point computed
on natural coordinates, and the order of the group from the order of one point. -/

open WeierstrassCurve

namespace ShortWeierstrass

section Equation

variable {F : Type*} [Field F]

def curve (b : F) : Affine F := ⟨0, 0, 0, 0, b⟩

theorem equation_iff {b x y : F} : (curve b).Equation x y ↔ y ^ 2 = x ^ 3 + b := by
  rw [Affine.equation_iff]
  simp [curve]

theorem negY_eq {b x y : F} : (curve b).negY x y = -y := by
  simp [Affine.negY, curve]

theorem nonsingular_of_equation {b x y : F} (h6 : (6 : F) ≠ 0) (hb : b ≠ 0)
    (h : y ^ 2 = x ^ 3 + b) : (curve b).Nonsingular x y := by
  have h2 : (2 : F) ≠ 0 := fun h0 => h6 (by linear_combination 3 * h0)
  have h3 : (3 : F) ≠ 0 := fun h0 => h6 (by linear_combination 2 * h0)
  rw [Affine.nonsingular_iff, equation_iff]
  refine ⟨h, ?_⟩
  simp only [curve]
  by_contra hc
  simp only [not_or, not_not] at hc
  have hx : x = 0 := by
    have hh : 3 * x ^ 2 = 0 := by linear_combination -hc.1
    simpa [h3] using hh
  have hy : y = 0 := by
    have hh : 2 * y = 0 := by linear_combination hc.2
    simpa [h2] using hh
  exact hb (by simpa [hx, hy] using h.symm)

end Equation

section Order

variable {F : Type*} [Field F] [Fintype F] {b : F}

open Classical in
noncomputable def ordinate (b x : F) : F :=
  if h : ∃ y, y ^ 2 = x ^ 3 + b then h.choose else 0

theorem eq_ordinate_or_neg {x y : F} (h : y ^ 2 = x ^ 3 + b) :
    y = ordinate b x ∨ y = -ordinate b x := by
  have hex : ∃ y, y ^ 2 = x ^ 3 + b := ⟨y, h⟩
  have hs : ordinate b x ^ 2 = x ^ 3 + b := by
    simpa only [ordinate, dif_pos hex] using hex.choose_spec
  exact sq_eq_sq_iff_eq_or_eq_neg.mp (h.trans hs.symm)

open Classical in
noncomputable def compress (P : (curve b).Point) : Option (F × Bool) :=
  match P with
  | .zero => none
  | .some x y _ => some (x, decide (y = ordinate b x))

theorem compress_injective : Function.Injective (compress (b := b)) := by
  rintro (_ | ⟨x, y, h⟩) (_ | ⟨x', y', h'⟩) he
  · rfl
  · simp [compress] at he
  · simp [compress] at he
  · simp only [compress, Option.some.injEq, Prod.mk.injEq] at he
    obtain ⟨rfl, hy⟩ := he
    have hiff : y = ordinate b x ↔ y' = ordinate b x := decide_eq_decide.mp hy
    have hyy : y = y' := by
      rcases eq_ordinate_or_neg (equation_iff.mp h.1) with hc | hc
      · rw [hc, hiff.mp hc]
      · rcases eq_ordinate_or_neg (equation_iff.mp h'.1) with hc' | hc'
        · rw [hiff.mpr hc', hc']
        · rw [hc, hc']
    subst hyy
    rfl

theorem finite_point : Finite (curve b).Point :=
  Finite.of_injective compress compress_injective

theorem card_point_le : Nat.card (curve b).Point ≤ 2 * Fintype.card F + 1 := by
  have hle := Nat.card_le_card_of_injective compress (compress_injective (b := b))
  simpa [Nat.card_eq_fintype_card, mul_comm] using hle

variable [DecidableEq F]

theorem two_not_dvd_card (h2 : (2 : F) ≠ 0) (hcube : ∀ x : F, x ^ 3 + b ≠ 0) :
    ¬ 2 ∣ Nat.card (curve b).Point := by
  intro hdvd
  have := finite_point (b := b)
  obtain ⟨P, hP⟩ := exists_prime_addOrderOf_dvd_card' 2 hdvd
  have hneg : P = -P := eq_neg_of_add_eq_zero_left (by
    rw [← two_nsmul, ← hP]; exact addOrderOf_nsmul_eq_zero P)
  cases P with
  | zero => simp [← Affine.Point.zero_def] at hP
  | some x y h =>
    simp only [Affine.Point.neg_some, Affine.Point.some.injEq, negY_eq, true_and] at hneg
    have hy : y = 0 := by
      have hh : 2 * y = 0 := by linear_combination hneg
      simpa [h2] using hh
    have he := equation_iff.mp h.1
    exact hcube x (by simpa [hy] using he.symm)

/-- A point of prime order above two thirds of the possible number of points
generates the whole group. -/
theorem card_eq_of_nsmul_eq_zero {n : ℕ} (hn : n.Prime) {G : (curve b).Point} (hG : G ≠ 0)
    (hnG : n • G = 0) (h2 : (2 : F) ≠ 0) (hcube : ∀ x : F, x ^ 3 + b ≠ 0)
    (hlarge : 2 * Fintype.card F + 1 < 3 * n) : Nat.card (curve b).Point = n := by
  have := finite_point (b := b)
  have hord : addOrderOf G = n :=
    (hn.eq_one_or_self_of_dvd _ (addOrderOf_dvd_of_nsmul_eq_zero hnG)).resolve_left
      (fun h1 => hG (AddMonoid.addOrderOf_eq_one_iff.mp h1))
  obtain ⟨k, hk⟩ : n ∣ Nat.card (curve b).Point := hord ▸ addOrderOf_dvd_natCard G
  have hle := card_point_le (b := b)
  have hpos : 0 < Nat.card (curve b).Point := Nat.card_pos
  have hodd := two_not_dvd_card h2 hcube
  have hk3 : k < 3 := by
    by_contra h
    have : n * 3 ≤ n * k := Nat.mul_le_mul_left n (by omega)
    omega
  interval_cases k
  · omega
  · simpa using hk
  · exact absurd ⟨n, by omega⟩ hodd

theorem nsmul_eq_zero_of_card {n : ℕ} (hc : Nat.card (curve b).Point = n) (P : (curve b).Point) :
    n • P = 0 := by
  have := finite_point (b := b)
  rw [← hc]
  exact card_nsmul_eq_zero'

theorem exists_nsmul_eq_of_card {n : ℕ} [Fact n.Prime] (hc : Nat.card (curve b).Point = n)
    {G : (curve b).Point} (hG : G ≠ 0) (P : (curve b).Point) : ∃ k : ℕ, k • G = P := by
  have := finite_point (b := b)
  have hmem : P ∈ AddSubgroup.zmultiples G := by
    rw [zmultiples_eq_top_of_prime_card hc hG]
    exact AddSubgroup.mem_top P
  exact mem_multiples_iff_mem_zmultiples.mpr hmem

end Order

section Ladder

open LucasCertificate (powMod)

/-- The reflected third point on the line of slope `l` through `(x, y)` that
meets the curve again above `x'`. Negation is multiplication by `p - 1`. -/
def lineSum (p l x x' y : ℕ) : ℕ × ℕ :=
  let x'' := (l * l + (p - 1) * (x + x')) % p
  (x'', (l * (x + (p - 1) * x'') + (p - 1) * y) % p)

def addCoords (p : ℕ) (a c : ℕ × ℕ) : Option (ℕ × ℕ) :=
  let d := a.1 + (p - 1) * c.1
  let i := powMod p d 64 (p - 2)
  if d * i % p = 1 then some (lineSum p ((a.2 + (p - 1) * c.2) * i % p) a.1 c.1 a.2) else none

def doubleCoords (p : ℕ) (a : ℕ × ℕ) : Option (ℕ × ℕ) :=
  let i := powMod p (2 * a.2) 64 (p - 2)
  if 2 * a.2 * i % p = 1 then some (lineSum p (3 * a.1 * a.1 * i % p) a.1 a.1 a.2) else none

/-- The multiple of `a` by the leading `steps + 1` bits of `k`, which has `bits + 1` bits. -/
def multiple (p : ℕ) (a : ℕ × ℕ) (k bits : ℕ) : ℕ → Option (ℕ × ℕ)
  | 0 => some a
  | steps + 1 => do
    let d ← (multiple p a k bits steps).bind (doubleCoords p)
    if k / 2 ^ (bits - (steps + 1)) % 2 = 1 then addCoords p d a else some d

variable {p : ℕ} [Fact p.Prime] {b : ZMod p}

def HasCoords (P : (curve b).Point) (a : ℕ × ℕ) : Prop :=
  ∃ h, P = .some (a.1 : ZMod p) (a.2 : ZMod p) h

theorem cast_pred_prime : ((p - 1 : ℕ) : ZMod p) = -1 := by
  rw [Nat.cast_sub (Fact.out : p.Prime).one_lt.le]
  simp

theorem cast_mul_eq_one {d i : ℕ} (h : d * i % p = 1) : (d : ZMod p) * i = 1 := by
  rw [← Nat.cast_mul, ← ZMod.natCast_mod, h, Nat.cast_one]

theorem hasCoords_lineSum {x x' y s : ZMod p} {c : ℕ × ℕ} {l m : ℕ}
    (h : (curve b).Nonsingular ((curve b).addX x x' s) ((curve b).addY x x' y s))
    (hs : s = l) (hx : x = c.1) (hx' : x' = m) (hy : y = c.2) :
    HasCoords (.some _ _ h) (lineSum p l c.1 m c.2) := by
  have hX : (curve b).addX x x' s = (lineSum p l c.1 m c.2).1 := by
    simp only [Affine.addX, curve, lineSum, ZMod.natCast_mod, Nat.cast_add, Nat.cast_mul,
      cast_pred_prime, hs, hx, hx']
    ring
  have hY : (curve b).addY x x' y s = (lineSum p l c.1 m c.2).2 := by
    rw [Affine.addY, negY_eq, Affine.negAddY, hX]
    simp only [lineSum, ZMod.natCast_mod, Nat.cast_add, Nat.cast_mul, cast_pred_prime, hs, hx, hy]
    ring
  rw [HasCoords]
  generalize (curve b).addX x x' s = X at h hX
  generalize (curve b).addY x x' y s = Y at h hY
  subst hX hY
  exact ⟨h, rfl⟩

theorem addCoords_sound {P Q : (curve b).Point} {a c r : ℕ × ℕ} (hP : HasCoords P a)
    (hQ : HasCoords Q c) (h : addCoords p a c = some r) : HasCoords (P + Q) r := by
  obtain ⟨hp, rfl⟩ := hP
  obtain ⟨hq, rfl⟩ := hQ
  simp only [addCoords, Option.ite_none_right_eq_some, Option.some.injEq] at h
  obtain ⟨hd, rfl⟩ := h
  have hone := cast_mul_eq_one hd
  simp only [Nat.cast_add, Nat.cast_mul, cast_pred_prime, neg_one_mul, ← sub_eq_add_neg] at hone
  have hx : (a.1 : ZMod p) ≠ c.1 := fun he => by simp [he] at hone
  rw [Affine.Point.add_of_X_ne hx]
  apply hasCoords_lineSum _ _ rfl rfl rfl
  rw [Affine.slope_of_X_ne hx, div_eq_iff (sub_ne_zero.mpr hx)]
  simp only [ZMod.natCast_mod, Nat.cast_add, Nat.cast_mul, cast_pred_prime]
  linear_combination (c.2 - a.2 : ZMod p) * hone

theorem doubleCoords_sound {P : (curve b).Point} {a r : ℕ × ℕ} (hP : HasCoords P a)
    (h : doubleCoords p a = some r) : HasCoords (P + P) r := by
  obtain ⟨hp, rfl⟩ := hP
  simp only [doubleCoords, Option.ite_none_right_eq_some, Option.some.injEq] at h
  obtain ⟨hd, rfl⟩ := h
  have hone := cast_mul_eq_one hd
  rw [Nat.cast_mul, Nat.cast_ofNat] at hone
  have hy : (a.2 : ZMod p) ≠ (curve b).negY a.1 a.2 := by
    rw [negY_eq]
    intro he
    have h0 : (2 : ZMod p) * a.2 = 0 := by linear_combination he
    rw [h0, zero_mul] at hone
    exact zero_ne_one hone
  rw [Affine.Point.add_self_of_Y_ne hy]
  apply hasCoords_lineSum _ _ rfl rfl rfl
  rw [Affine.slope_of_Y_ne rfl hy, div_eq_iff (sub_ne_zero.mpr hy), negY_eq]
  simp only [curve, ZMod.natCast_mod, Nat.cast_mul, Nat.cast_ofNat]
  linear_combination (-3 * a.1 ^ 2 : ZMod p) * hone

theorem multiple_sound {G : (curve b).Point} {a : ℕ × ℕ} (hG : HasCoords G a) {k bits : ℕ}
    (hk : k / 2 ^ bits = 1) (steps : ℕ) (hle : steps ≤ bits) {r : ℕ × ℕ}
    (h : multiple p a k bits steps = some r) : HasCoords ((k / 2 ^ (bits - steps)) • G) r := by
  induction steps generalizing r with
  | zero =>
    simp only [multiple, Option.some.injEq] at h
    subst h
    simpa [hk] using hG
  | succ steps ih =>
    simp only [multiple, Option.bind_eq_bind, Option.bind_eq_some_iff] at h
    obtain ⟨d, ⟨c, hc, hd⟩, hr⟩ := h
    have hdouble := doubleCoords_sound (ih (by omega) hc) hd
    have hshift : k / 2 ^ (bits - steps) = k / 2 ^ (bits - (steps + 1)) / 2 := by
      rw [Nat.div_div_eq_div_mul, ← pow_succ]
      congr 2
      omega
    rw [hshift] at hdouble
    generalize k / 2 ^ (bits - (steps + 1)) = m at hdouble hr ⊢
    rw [← two_nsmul, smul_smul] at hdouble
    split_ifs at hr with hbit
    · have hsum := addCoords_sound hdouble hG hr
      rwa [← succ_nsmul, show 2 * (m / 2) + 1 = m by omega] at hsum
    · simp only [Option.some.injEq] at hr
      subst hr
      rwa [show 2 * (m / 2) = m by omega] at hdouble

end Ladder

end ShortWeierstrass
