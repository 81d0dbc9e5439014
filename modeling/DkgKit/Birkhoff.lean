import DkgKit.BirkhoffMatrix
import DkgKit.PointEncoding
import DkgKit.SignerSet
import DkgKit.Solver

/-! Birkhoff interpolation in the scalar field: the derivative basis, the
interpolation coefficients of a signer set and derivative shares of a polynomial. -/

open Polynomial Matrix BigEndian BirkhoffMatrix LoopRules

namespace DkgKit

section Basis

def scalarPow (base : Scalar) (exponent : UInt16) : Scalar :=
  (List.range exponent.toNat).foldl (fun value _ => value * base) 1

def factorProduct (first last : ℕ) : Scalar :=
  (List.range' first (last + 1 - first)).foldl
    (fun (coefficient : Scalar) (factor : ℕ) => coefficient * factor) 1

/-- The first factor is computed in `u16`, so that the sum may overflow. -/
def derivativeBasisScalar (degree derivativeOrder x : UInt16) : Result Scalar := do
  if derivativeOrder > degree then .ok 0
  else
    let first ← checkedAdd (degree - derivativeOrder) 1
    let coefficient := factorProduct first.toNat degree.toNat
    .ok (coefficient * scalarPow (x.toNat : Scalar) (degree - derivativeOrder))

theorem scalarPow_eq (base : Scalar) (exponent : UInt16) :
    scalarPow base exponent = base ^ exponent.toNat := by
  rw [scalarPow]
  induction exponent.toNat with
  | zero => simp
  | succ k ih => rw [List.range_succ, List.foldl_append, ih, List.foldl_cons, List.foldl_nil, pow_succ]

theorem foldl_range'_eq_ascFactorial (first len : ℕ) :
    (List.range' first len).foldl (fun (c : Scalar) (factor : ℕ) => c * factor) 1 =
      (first.ascFactorial len : Scalar) := by
  induction len with
  | zero => simp
  | succ len ih =>
    rw [List.range'_1_concat, List.foldl_append, ih, List.foldl_cons, List.foldl_nil,
      Nat.ascFactorial_succ, Nat.cast_mul, mul_comm]

theorem derivativeBasisScalar_eq {degree derivativeOrder : UInt16}
    (h : ¬(degree.toNat = 65535 ∧ derivativeOrder.toNat = 0)) (x : UInt16) :
    derivativeBasisScalar degree derivativeOrder x =
      .ok (basis degree.toNat derivativeOrder.toNat (x.toNat : Scalar)) := by
  rw [derivativeBasisScalar]
  split_ifs with hlt
  · rw [gt_iff_lt, UInt16.lt_iff_toNat_lt] at hlt
    rw [basis_of_lt hlt]
  · rw [gt_iff_lt, UInt16.lt_iff_toNat_lt, not_lt] at hlt
    have hsub : (degree - derivativeOrder).toNat = degree.toNat - derivativeOrder.toNat :=
      UInt16.toNat_sub_of_le _ _ (UInt16.le_iff_toNat_le.mpr hlt)
    obtain ⟨first, hfirst⟩ : ∃ first, checkedAdd (degree - derivativeOrder) 1 = .ok first := by
      have hlt := degree.toNat_lt
      rw [checkedAdd, if_pos (by rw [hsub, UInt16.toNat_one]; omega)]
      exact ⟨_, rfl⟩
    have hval := checkedAdd_eq_ok.mp hfirst
    rw [hsub, UInt16.toNat_one] at hval
    have hlen : degree.toNat + 1 - first.toNat = derivativeOrder.toNat := by omega
    have hfact := Nat.add_descFactorial_eq_ascFactorial (degree.toNat - derivativeOrder.toNat)
      derivativeOrder.toNat
    rw [Nat.sub_add_cancel hlt, ← hval] at hfact
    rw [hfirst, ok_bind, factorProduct, hlen, foldl_range'_eq_ascFactorial, scalarPow_eq, hsub, basis,
      hfact]

/-- The first factor `65535 - 0 + 1` is out of range. -/
theorem derivativeBasisScalar_last (x : UInt16) :
    derivativeBasisScalar 65535 0 x = .error (.panic .overflow) := rfl

theorem basis_eq_factorial (degree derivativeOrder : UInt16) (x : Scalar) :
    basis degree.toNat derivativeOrder.toNat x = if derivativeOrder ≤ degree then
      ((degree.toNat.factorial / (degree.toNat - derivativeOrder.toNat).factorial : ℕ) : Scalar) *
        x ^ (degree.toNat - derivativeOrder.toNat) else 0 := by
  split_ifs with hle
  · rw [UInt16.le_iff_toNat_le] at hle
    rw [basis, Nat.descFactorial_eq_div hle]
  · rw [UInt16.le_iff_toNat_le, not_le] at hle
    exact basis_of_lt hle x

end Basis

section Polynomials

def expectOk {α : Type} (message : String) : Result α → Result α
  | .error (.err _) => .error (.panic (.expect message))
  | r => r

def addDerivativeTerms (x derivativeOrder : UInt16) : List (Scalar × ℕ) → Scalar → Result Scalar
  | [], sum => .ok sum
  | (coefficient, degree) :: rest, sum => do
    let value ← expectOk "valid derivative basis"
      (derivativeBasisScalar (UInt16.ofNat degree) derivativeOrder x)
    addDerivativeTerms x derivativeOrder rest (sum + coefficient * value)

def polynomialDerivativeValue (coefficients : List Scalar) (x derivativeOrder : UInt16) :
    Result Scalar :=
  addDerivativeTerms x derivativeOrder coefficients.zipIdx 0

noncomputable def toPolynomial (coefficients : List Scalar) : Scalar[X] :=
  ofVector coefficients.get

theorem degree_toPolynomial_lt (coefficients : List Scalar) :
    (toPolynomial coefficients).degree < coefficients.length := degree_ofVector_lt _

theorem addDerivativeTerms_eq (x derivativeOrder : UInt16) (coefficients : List Scalar) {start : ℕ}
    (h : start + coefficients.length ≤ 65536)
    (hlast : ¬(start + coefficients.length = 65536 ∧ derivativeOrder.toNat = 0)) (sum : Scalar) :
    addDerivativeTerms x derivativeOrder (coefficients.zipIdx start) sum =
      .ok (sum + ∑ k : Fin coefficients.length, coefficients.get k *
        basis (start + k) derivativeOrder.toNat (x.toNat : Scalar)) := by
  induction coefficients generalizing start sum with
  | nil => simp [addDerivativeTerms]
  | cons c rest ih =>
    rw [List.length_cons] at h hlast
    have hdeg : (UInt16.ofNat start).toNat = start := toNat_ofNat_u16 (by omega)
    have hsum : ∑ k : Fin (c :: rest).length, (c :: rest).get k *
        basis (start + k) derivativeOrder.toNat (x.toNat : Scalar) =
          c * basis start derivativeOrder.toNat (x.toNat : Scalar) + ∑ k : Fin rest.length,
            rest.get k * basis (start + 1 + k) derivativeOrder.toNat (x.toNat : Scalar) := by
      refine (Fin.sum_univ_succ _).trans ?_
      simp [Nat.add_assoc, Nat.add_comm 1]
    rw [List.zipIdx_cons, addDerivativeTerms, derivativeBasisScalar_eq (by omega), expectOk, ok_bind,
      ih (by omega) (by omega), hsum, hdeg, add_assoc]
    simp

theorem polynomialDerivativeValue_eq_of_fits {coefficients : List Scalar} {derivativeOrder : UInt16}
    (h : coefficients.length ≤ 65536)
    (hlast : ¬(coefficients.length = 65536 ∧ derivativeOrder.toNat = 0)) (x : UInt16) :
    polynomialDerivativeValue coefficients x derivativeOrder =
      .ok ((derivative^[derivativeOrder.toNat] (toPolynomial coefficients)).eval (x.toNat : Scalar)) := by
  rw [polynomialDerivativeValue, addDerivativeTerms_eq x derivativeOrder coefficients (by omega)
    (by omega), toPolynomial, eval_iterate_derivative_ofVector, zero_add]
  simp

theorem polynomialDerivativeValue_eq {coefficients : List Scalar} (h : coefficients.length ≤ 65535)
    (x derivativeOrder : UInt16) : polynomialDerivativeValue coefficients x derivativeOrder =
      .ok ((derivative^[derivativeOrder.toNat] (toPolynomial coefficients)).eval (x.toNat : Scalar)) :=
  polynomialDerivativeValue_eq_of_fits (by omega) (by omega) x

theorem basis_ok_of_addDerivativeTerms {x derivativeOrder : UInt16} {terms : List (Scalar × ℕ)}
    {sum value : Scalar} (h : addDerivativeTerms x derivativeOrder terms sum = .ok value) :
    ∀ term ∈ terms, ∃ b, derivativeBasisScalar (UInt16.ofNat term.2) derivativeOrder x = .ok b := by
  induction terms generalizing sum with
  | nil => simp
  | cons term rest ih =>
    rw [addDerivativeTerms, bind_eq_ok] at h
    obtain ⟨b, hb, hrest⟩ := h
    rw [List.forall_mem_cons]
    refine ⟨⟨b, ?_⟩, ih hrest⟩
    cases hterm : derivativeBasisScalar (UInt16.ofNat term.2) derivativeOrder x with
    | ok b' =>
      rw [hterm] at hb
      exact hb
    | error fault =>
      rw [hterm] at hb
      cases fault with
      | err _ => cases hb
      | panic _ => cases hb

theorem polynomialDerivativeValue_last_ne_ok {coefficients : List Scalar}
    (h : coefficients.length = 65536) (x : UInt16) (value : Scalar) :
    polynomialDerivativeValue coefficients x 0 ≠ .ok value := by
  intro hok
  have hmem : (coefficients[65535], 65535) ∈ coefficients.zipIdx := by
    rw [List.mem_zipIdx_iff_getElem?]
    exact List.getElem?_eq_getElem _
  obtain ⟨b, hb⟩ := basis_ok_of_addDerivativeTerms hok _ hmem
  rw [show UInt16.ofNat 65535 = 65535 from rfl, derivativeBasisScalar_last] at hb
  cases hb

/-- The basis is exact except at the last degree without a derivative, and so is the
value of a polynomial unless it has a coefficient of that degree. -/
theorem derivativeBasisScalar_exact_iff (degree derivativeOrder x : UInt16) :
    (derivativeBasisScalar degree derivativeOrder x = .ok (if derivativeOrder ≤ degree then
        ((degree.toNat.factorial / (degree.toNat - derivativeOrder.toNat).factorial : ℕ) : Scalar) *
          (x.toNat : Scalar) ^ (degree.toNat - derivativeOrder.toNat) else 0) ↔
      ¬(degree = 65535 ∧ derivativeOrder = 0)) ∧
    ∀ coefficients : List Scalar, coefficients.length ≤ 65536 →
      (polynomialDerivativeValue coefficients x derivativeOrder =
          .ok ((derivative^[derivativeOrder.toNat] (toPolynomial coefficients)).eval
            (x.toNat : Scalar)) ↔
        ¬(coefficients.length = 65536 ∧ derivativeOrder = 0)) := by
  have hdegree : degree = 65535 ↔ degree.toNat = 65535 := by rw [← UInt16.toNat_inj]; rfl
  have horder : derivativeOrder = 0 ↔ derivativeOrder.toNat = 0 := by rw [← UInt16.toNat_inj]; rfl
  refine ⟨⟨?_, fun h => ?_⟩, fun coefficients hlen => ⟨?_, fun h => ?_⟩⟩
  · rintro hok ⟨rfl, rfl⟩
    rw [derivativeBasisScalar_last] at hok
    cases hok
  · rw [hdegree, horder] at h
    rw [derivativeBasisScalar_eq h, basis_eq_factorial]
  · rintro hok ⟨hlast, rfl⟩
    exact polynomialDerivativeValue_last_ne_ok hlast x _ hok
  · rw [horder] at h
    exact polynomialDerivativeValue_eq_of_fits hlen h x

/-- At the last degree the basis overflows; with wrapping arithmetic the first factor would
be `0`, and so the product, where the power of `1` is `1`. -/
theorem derivativeBasisScalar_inexact :
    derivativeBasisScalar 65535 0 1 = .error (.panic .overflow) ∧
      (65535 - 0 + 1 : UInt16) = 0 ∧ factorProduct 0 65535 * scalarPow 1 65535 = 0 ∧
      (((65535 : ℕ).factorial / (65535 - 0).factorial : ℕ) : Scalar) * 1 ^ (65535 - 0) = 1 ∧
      ∀ value, polynomialDerivativeValue (List.replicate 65536 1) 1 0 ≠ .ok value := by
  refine ⟨rfl, rfl, ?_, ?_, polynomialDerivativeValue_last_ne_ok List.length_replicate 1⟩
  · rw [factorProduct, foldl_range'_eq_ascFactorial, Nat.zero_ascFactorial, Nat.cast_zero, zero_mul]
  · rw [Nat.sub_zero, Nat.div_self (Nat.factorial_pos _), Nat.cast_one, one_pow, one_mul]

end Polynomials

section Coefficients

structure BirkhoffPoint where
  participantId : ParticipantId
  x : UInt16
  derivativeOrder : UInt16
  deriving DecidableEq, Repr

def BirkhoffPoint.new (participantId : ParticipantId) (x derivativeOrder : UInt16) :
    Result BirkhoffPoint :=
  if x = 0 then fail (.protocol "Birkhoff x-coordinate cannot be zero")
  else .ok ⟨participantId, x, derivativeOrder⟩

structure BirkhoffCoefficient where
  participantId : ParticipantId
  derivativeOrder : UInt16
  coefficientBytes : Bytes 32

def birkhoffMatrix (points : List BirkhoffPoint) : Result Rows :=
  collectResults (fun point => collectResults
    (fun degree => derivativeBasisScalar (UInt16.ofNat degree) point.derivativeOrder point.x)
    (List.range points.length)) points

def transposeRows (n : ℕ) (matrix : Rows) : Result Rows :=
  forRange 0 n (fun transpose row => forRange 0 n (fun transpose col => do
    let value ← entry matrix row col
    assignEntry transpose col row value) transpose) (List.replicate n (List.replicate n 0))

def birkhoffInterpolationCoefficients (points : List BirkhoffPoint) :
    Result (List BirkhoffCoefficient) := do
  if points.isEmpty then fail (.protocol "Birkhoff point set cannot be empty")
  else
    let n := points.length
    let matrix ← birkhoffMatrix points
    let transpose ← transposeRows n matrix
    let target ← assign (List.replicate n (0 : Scalar)) 0 1
    let coefficients ← solveScalarSystem transpose target
    .ok ((points.zip coefficients).map fun (point, coefficient) =>
      ⟨point.participantId, point.derivativeOrder, scalarToBytes coefficient⟩)

def conditions (points : List BirkhoffPoint) : List (ℕ × ℕ) :=
  points.map fun point => (point.x.toNat, point.derivativeOrder.toNat)

@[simp] theorem length_conditions (points : List BirkhoffPoint) :
    (conditions points).length = points.length := List.length_map _

theorem birkhoffMatrix_eq {points : List BirkhoffPoint} (h : points.length ≤ 65535) :
    birkhoffMatrix points = .ok (toRows (matrix Scalar (conditions points))) := by
  let row (a : ℕ × ℕ) : List Scalar :=
    List.ofFn fun k : Fin (conditions points).length => basis k a.2 (a.1 : Scalar)
  have hrow : ∀ point : BirkhoffPoint, collectResults (fun degree =>
      derivativeBasisScalar (UInt16.ofNat degree) point.derivativeOrder point.x)
        (List.range points.length) = .ok (row (point.x.toNat, point.derivativeOrder.toNat)) := by
    intro point
    rw [collectResults_eq_map (g := fun k =>
      basis k point.derivativeOrder.toNat (point.x.toNat : Scalar))]
    · congr 1
      apply List.ext_getElem
      · simp [row]
      · intro k hk hk'
        simp [row]
    · intro k hk
      rw [List.mem_range] at hk
      have hdeg : (UInt16.ofNat k).toNat = k := toNat_ofNat_u16 (by omega)
      rw [derivativeBasisScalar_eq (by omega), hdeg]
  rw [birkhoffMatrix, collectResults_eq_map fun point _ => hrow point, toRows]
  congr 1
  apply List.ext_getElem
  · simp
  · intro i hi hi'
    simp [row, matrix, conditions]

theorem transposeRows_toRows {n : ℕ} (M : Matrix (Fin n) (Fin n) Scalar) :
    transposeRows n (toRows M) = .ok (toRows Mᵀ) := by
  -- before row `r` the columns before `r` are filled
  let outer (r : ℕ) : Matrix (Fin n) (Fin n) Scalar := fun a b => if b.val < r then M b a else 0
  let inner (r : Fin n) (k : ℕ) : Matrix (Fin n) (Fin n) Scalar :=
    fun a b => if b < r ∨ (b = r ∧ a.val < k) then M b a else 0
  have hzero : List.replicate n (List.replicate n (0 : Scalar)) = toRows (outer 0) := by
    simp [toRows, outer, List.ofFn_const]
  have hlast : outer (0 + n) = Mᵀ := by
    funext a b
    simp [outer]
  have hinner : ∀ r : Fin n, forRange 0 n (fun transpose col => do
      let value ← entry (toRows M) r col
      assignEntry transpose col r value) (toRows (outer r)) = .ok (toRows (outer (r + 1))) := by
    intro r
    have hstart : outer r = inner r 0 := by
      funext a b
      simp [outer, inner]
    have hend : inner r (0 + n) = outer (r + 1) := by
      funext a b
      simp only [outer, inner, Nat.zero_add, a.isLt, and_true, Nat.lt_succ_iff_lt_or_eq,
        Fin.ext_iff, Fin.lt_def]
    rw [hstart]
    refine (forRange_eq_ok (fun k => toRows (inner r k)) fun k _ hk => ?_).trans (by rw [hend])
    obtain ⟨c, rfl⟩ : ∃ c : Fin n, c.val = k := ⟨⟨k, by omega⟩, rfl⟩
    rw [entry_toRows, ok_bind, assignEntry_toRows]
    congr 2
    funext a b
    by_cases hab : a = c ∧ b = r
    · simp [inner, hab.1, hab.2]
    · have hlt : b = r → (a.val < c.val + 1 ↔ a.val < c.val) := fun hb => by
        have hne : a ≠ c := fun ha => hab ⟨ha, hb⟩
        have := Fin.val_ne_of_ne hne
        omega
      simp only [inner, if_neg hab]
      refine if_congr ?_ rfl rfl
      exact or_congr_right (and_congr_right fun hb => (hlt hb).symm)
  rw [transposeRows, hzero]
  refine (forRange_eq_ok (fun r => toRows (outer r)) fun r _ hr => ?_).trans (by rw [hlast])
  exact hinner ⟨r, by omega⟩

/-- Weighted points whose derivative values combine to `f(0)`. -/
def Combines (pairs : List (BirkhoffPoint × Scalar)) : Prop :=
  ∀ f : Scalar[X], f.degree < pairs.length → f.eval 0 = (pairs.map fun a =>
    a.2 * (derivative^[a.1.derivativeOrder.toNat] f).eval (a.1.x.toNat : Scalar)).sum

def weightedCoefficient (pair : BirkhoffPoint × Scalar) : BirkhoffCoefficient :=
  ⟨pair.1.participantId, pair.1.derivativeOrder, scalarToBytes pair.2⟩

theorem Combines.perm {pairs pairs' : List (BirkhoffPoint × Scalar)} (h : Combines pairs)
    (hperm : pairs.Perm pairs') : Combines pairs' := by
  intro f hf
  rw [h f (hperm.length_eq ▸ hf)]
  exact (hperm.map _).sum_eq

theorem assign_zero_one {n : ℕ} (hn : 0 < n) : assign (List.replicate n (0 : Scalar)) 0 1 =
    .ok (List.ofFn (Pi.single (⟨0, hn⟩ : Fin n) 1)) := by
  have h := assign_ofFn (fun _ : Fin n => (0 : Scalar)) ⟨0, hn⟩ 1
  rwa [List.ofFn_const] at h

theorem map_fst_zip_ofFn {points : List BirkhoffPoint} {n : ℕ} (hn : n = points.length)
    (c : Fin n → Scalar) : (points.zip (List.ofFn c)).map Prod.fst = points :=
  List.map_fst_zip (by rw [List.length_ofFn, hn])

theorem exists_eq_zip_ofFn {points : List BirkhoffPoint} {pairs : List (BirkhoffPoint × Scalar)}
    {n : ℕ} (hfst : pairs.map Prod.fst = points) (hn : n = points.length) :
    ∃ c : Fin n → Scalar, pairs = points.zip (List.ofFn c) := by
  subst hfst
  rw [List.length_map] at hn
  refine ⟨fun i => (pairs.get (i.cast hn)).2, ?_⟩
  apply List.ext_getElem
  · simp [hn]
  · intro i hi hi'
    simp

theorem sum_zip_ofFn (points : List BirkhoffPoint) (c : Fin (conditions points).length → Scalar)
    (f : Scalar[X]) : ((points.zip (List.ofFn c)).map fun a =>
      a.2 * (derivative^[a.1.derivativeOrder.toNat] f).eval (a.1.x.toNat : Scalar)).sum =
    ∑ i, c i * (derivative^[((conditions points).get i).2] f).eval
      (((conditions points).get i).1 : Scalar) := by
  rw [← List.sum_ofFn]
  congr 1
  apply List.ext_getElem
  · simp
  · intro i hi hi'
    rw [List.getElem_map, List.getElem_zip, List.getElem_ofFn, List.getElem_ofFn]
    simp [conditions]

theorem Combines.unique {pairs pairs' : List (BirkhoffPoint × Scalar)} (h : Combines pairs)
    (h' : Combines pairs') (hpoints : pairs'.map Prod.fst = pairs.map Prod.fst)
    (hdet : (matrix Scalar (conditions (pairs.map Prod.fst))).det ≠ 0) : pairs' = pairs := by
  obtain ⟨c, hc⟩ := exists_eq_zip_ofFn rfl (length_conditions (pairs.map Prod.fst))
  obtain ⟨c', hc'⟩ := exists_eq_zip_ofFn hpoints (length_conditions (pairs.map Prod.fst))
  have hlen : pairs'.length = pairs.length := by
    rw [← List.length_map Prod.fst, hpoints, List.length_map]
  have heq : c' = c := by
    refine weights_unique hdet fun f hf => ?_
    rw [length_conditions, List.length_map] at hf
    rw [← sum_zip_ofFn, ← sum_zip_ofFn, ← hc, ← hc', ← h f hf, ← h' f (hlen ▸ hf)]
  rw [hc', heq, ← hc]

/-- The coefficients exist exactly when the Birkhoff determinant does not vanish. -/
theorem interpolation_cases {points : List BirkhoffPoint} (hne : points ≠ [])
    (hlen : points.length ≤ 65535) :
    ((matrix Scalar (conditions points)).det ≠ 0 ∧ ∃ pairs, pairs.map Prod.fst = points ∧
      Combines pairs ∧
      birkhoffInterpolationCoefficients points = .ok (pairs.map weightedCoefficient)) ∨
    ((matrix Scalar (conditions points)).det = 0 ∧
      birkhoffInterpolationCoefficients points = fail singularSystem) := by
  have hn : points.length = (conditions points).length := (length_conditions points).symm
  have hpos : 0 < (conditions points).length := hn ▸ List.length_pos_iff.mpr hne
  have hempty : points.isEmpty = false := by simpa using hne
  have hrun : birkhoffInterpolationCoefficients points = (solveScalarSystem
      (toRows (matrix Scalar (conditions points))ᵀ) (List.ofFn (Pi.single ⟨0, hpos⟩ 1)) >>=
        fun coefficients => .ok ((points.zip coefficients).map weightedCoefficient)) := by
    rw [birkhoffInterpolationCoefficients, hempty]
    simp only [Bool.false_eq_true, if_false, birkhoffMatrix_eq hlen, ok_bind, hn,
      transposeRows_toRows, assign_zero_one hpos]
    rfl
  rw [hrun]
  rcases solveScalarSystem_cases (matrix Scalar (conditions points))ᵀ (Pi.single ⟨0, hpos⟩ 1) with
    ⟨c, hsolve, hdet, hc⟩ | ⟨hsolve, hdet⟩
  · rw [Matrix.det_transpose] at hdet
    have hfst := map_fst_zip_ofFn (length_conditions points) c
    refine .inl ⟨hdet, points.zip (List.ofFn c), hfst, fun f hf => ?_, by rw [hsolve]; rfl⟩
    rw [← List.length_map Prod.fst, hfst, hn] at hf
    rw [sum_zip_ofFn, eval_zero_eq_sum hpos hc hf]
  · rw [Matrix.det_transpose] at hdet
    exact .inr ⟨hdet, by rw [hsolve]; rfl⟩

/-- Weights, given by participant, that combine the derivative values to `f(0)`. -/
def Weights (points : List BirkhoffPoint) (w : ParticipantId → Scalar) : Prop :=
  ∀ f : Scalar[X], f.degree < points.length → f.eval 0 = (points.map fun point =>
    w point.participantId *
      (derivative^[point.derivativeOrder.toNat] f).eval (point.x.toNat : Scalar)).sum

def coefficientOf (w : ParticipantId → Scalar) (point : BirkhoffPoint) : BirkhoffCoefficient :=
  ⟨point.participantId, point.derivativeOrder, scalarToBytes (w point.participantId)⟩

def weighted (w : ParticipantId → Scalar) (point : BirkhoffPoint) : BirkhoffPoint × Scalar :=
  (point, w point.participantId)

theorem combines_weighted {points : List BirkhoffPoint} {w : ParticipantId → Scalar} :
    Combines (points.map (weighted w)) ↔ Weights points w := by
  rw [Combines, Weights, List.length_map]
  simp only [List.map_map]
  rfl

theorem exists_weighted {points : List BirkhoffPoint} {pairs : List (BirkhoffPoint × Scalar)}
    (hfst : pairs.map Prod.fst = points) (hnd : (points.map BirkhoffPoint.participantId).Nodup) :
    ∃ w, pairs = points.map (weighted w) := by
  subst hfst
  rw [List.map_map] at hnd
  let lookup (id : ParticipantId) := lastWith (BirkhoffPoint.participantId ∘ Prod.fst) pairs id
  refine ⟨fun id => ((lookup id).map Prod.snd).getD 0, ?_⟩
  conv_lhs => rw [← List.map_id pairs]
  rw [List.map_map]
  refine List.map_congr_left fun a ha => ?_
  have hfind : lookup a.1.participantId = some a := (lastWith_eq_some hnd).mpr ⟨ha, rfl⟩
  simp [weighted, hfind]

theorem birkhoffInterpolationCoefficients_cases {points : List BirkhoffPoint} (hne : points ≠ [])
    (hlen : points.length ≤ 65535) (hnd : (points.map BirkhoffPoint.participantId).Nodup) :
    ((matrix Scalar (conditions points)).det ≠ 0 ∧ ∃ w, Weights points w ∧
      birkhoffInterpolationCoefficients points = .ok (points.map (coefficientOf w))) ∨
    ((matrix Scalar (conditions points)).det = 0 ∧
      birkhoffInterpolationCoefficients points = fail singularSystem) := by
  refine (interpolation_cases hne hlen).imp_left ?_
  rintro ⟨hdet, pairs, hfst, hpairs, hok⟩
  obtain ⟨w, rfl⟩ := exists_weighted hfst hnd
  refine ⟨hdet, w, combines_weighted.mp hpairs, ?_⟩
  rw [hok, List.map_map]
  rfl

theorem Weights.perm {points points' : List BirkhoffPoint} {w : ParticipantId → Scalar}
    (hw : Weights points w) (hperm : points.Perm points') : Weights points' w :=
  combines_weighted.mp ((combines_weighted.mpr hw).perm (hperm.map _))

theorem Weights.unique {points points' : List BirkhoffPoint} {w w' : ParticipantId → Scalar}
    (hw : Weights points w) (hw' : Weights points' w') (hperm : points.Perm points')
    (hdet : (matrix Scalar (conditions points)).det ≠ 0) {point : BirkhoffPoint}
    (hmem : point ∈ points) : w point.participantId = w' point.participantId := by
  have hfst : ∀ v, (points.map (weighted v)).map Prod.fst = points := fun v => by
    rw [List.map_map]
    exact List.map_id points
  have heq : points.map (weighted w) = points.map (weighted w') :=
    (combines_weighted.mpr (hw'.perm hperm.symm)).unique (combines_weighted.mpr hw)
      ((hfst w).trans (hfst w').symm) ((hfst w').symm ▸ hdet)
  exact congrArg Prod.snd (List.map_inj_left.mp heq point hmem)

theorem conditions_perm {points points' : List BirkhoffPoint} (h : points.Perm points') :
    (conditions points).Perm (conditions points') := h.map _

end Coefficients

section SignerPoints

def birkhoffPointsFromHierarchicalSignerSet (signers : List ParticipantId)
    (config : HierarchicalThresholdConfig) : Result (List BirkhoffPoint) := do
  validateHierarchicalSignerSet signers config
  collectResults (fun signer => do
    let rank ← okOr (.missingRankedParticipant signer) (config.rankOf signer)
    BirkhoffPoint.new signer signer rank) signers

namespace HierarchicalThresholdConfig

def point (config : HierarchicalThresholdConfig) (signer : ParticipantId) : BirkhoffPoint :=
  ⟨signer, signer, (config.rankOf signer).getD 0⟩

def points (config : HierarchicalThresholdConfig) (signers : List ParticipantId) :
    List BirkhoffPoint := signers.map config.point

theorem map_participantId_points (config : HierarchicalThresholdConfig)
    (signers : List ParticipantId) :
    (config.points signers).map BirkhoffPoint.participantId = signers := by
  rw [points, List.map_map]
  exact List.map_id' signers

def determinant (config : HierarchicalThresholdConfig) (signers : List ParticipantId) : Scalar :=
  (matrix Scalar (conditions (config.points signers))).det

theorem determinant_ne_zero_perm {config : HierarchicalThresholdConfig}
    {signers signers' : List ParticipantId} (h : signers.Perm signers') :
    config.determinant signers ≠ 0 ↔ config.determinant signers' ≠ 0 :=
  det_ne_zero_perm (conditions_perm (h.map _))

end HierarchicalThresholdConfig

theorem birkhoffPointsFromHierarchicalSignerSet_eq_ok {config : HierarchicalThresholdConfig}
    (hc : config.Accepted) {signers : List ParticipantId} {points : List BirkhoffPoint} :
    birkhoffPointsFromHierarchicalSignerSet signers config = .ok points ↔
      config.SignerSet signers ∧ 0 ∉ signers ∧ points = config.points signers := by
  simp only [birkhoffPointsFromHierarchicalSignerSet, bind_eq_ok,
    validateHierarchicalSignerSet_eq_ok hc, collectResults_eq_ok, okOr_eq_ok]
  have hpoint : ∀ {signer : ParticipantId} {point : BirkhoffPoint},
      (∃ rank, config.rankOf signer = some rank ∧ BirkhoffPoint.new signer signer rank = .ok point) ↔
        (config.rankOf signer).isSome ∧ signer ≠ 0 ∧ point = config.point signer := by
    intro signer point
    cases hrank : config.rankOf signer with
    | none => simp
    | some rank =>
      by_cases hz : signer = 0
      · simp [BirkhoffPoint.new, hz]
      · simp [BirkhoffPoint.new, hz, HierarchicalThresholdConfig.point, hrank, eq_comm]
  simp only [hpoint]
  constructor
  · rintro ⟨_, hset, hall⟩
    refine ⟨hset, ?_, ?_⟩
    · intro hz
      obtain ⟨i, hi, hget⟩ := List.getElem_of_mem hz
      have hlen := hall.length_eq
      exact (hall.get hi (hlen ▸ hi)).2.1 hget
    · apply List.ext_getElem
      · simp [HierarchicalThresholdConfig.points, hall.length_eq]
      · intro i hi hi'
        simpa [HierarchicalThresholdConfig.points] using (hall.get (hall.length_eq ▸ hi) hi).2.2
  · rintro ⟨hset, hz, rfl⟩
    refine ⟨(), hset, ?_⟩
    rw [HierarchicalThresholdConfig.points, List.forall₂_map_right_iff, List.forall₂_same]
    exact fun s hs => ⟨hset.members s hs, fun h => hz (h ▸ hs), rfl⟩

theorem signerCoefficients_cases {config : HierarchicalThresholdConfig} (hc : config.Accepted)
    {signers : List ParticipantId} (hset : config.SignerSet signers) :
    (config.determinant signers ≠ 0 ∧ ∃ w, Weights (config.points signers) w ∧
      birkhoffInterpolationCoefficients (config.points signers) =
        .ok ((config.points signers).map (coefficientOf w))) ∨
    (config.determinant signers = 0 ∧
      birkhoffInterpolationCoefficients (config.points signers) = fail singularSystem) := by
  have hpos := hc.threshold_pos
  have hen := hset.enough
  have hle := hset.length_le
  have hlt := hc.length_lt
  apply birkhoffInterpolationCoefficients_cases
  · intro hnil
    rw [HierarchicalThresholdConfig.points, List.map_eq_nil_iff] at hnil
    simp only [hnil, List.length_nil] at hen
    omega
  · rw [HierarchicalThresholdConfig.points, List.length_map]
    omega
  · rw [HierarchicalThresholdConfig.map_participantId_points]
    exact hset.distinct

/-- A signer set with interpolation coefficients. -/
structure HierarchicalThresholdConfig.Quorum (config : HierarchicalThresholdConfig)
    (signers : List ParticipantId) : Prop extends config.SignerSet signers where
  ids_ne_zero : 0 ∉ signers
  det_ne_zero : config.determinant signers ≠ 0

namespace HierarchicalThresholdConfig

variable {config : HierarchicalThresholdConfig} {signers signers' : List ParticipantId}

theorem Quorum.perm (h : config.Quorum signers) (hperm : signers.Perm signers') :
    config.Quorum signers' where
  toSignerSet := h.toSignerSet.perm hperm
  ids_ne_zero := fun hz => h.ids_ne_zero (hperm.mem_iff.mpr hz)
  det_ne_zero := (determinant_ne_zero_perm hperm).mp h.det_ne_zero

theorem Quorum.exists_weights (hc : config.Accepted) (h : config.Quorum signers) :
    ∃ w, Weights (config.points signers) w ∧
      birkhoffPointsFromHierarchicalSignerSet signers config = .ok (config.points signers) ∧
      birkhoffInterpolationCoefficients (config.points signers) =
        .ok ((config.points signers).map (coefficientOf w)) := by
  have hpoints := (birkhoffPointsFromHierarchicalSignerSet_eq_ok hc).mpr
    ⟨h.toSignerSet, h.ids_ne_zero, rfl⟩
  rcases signerCoefficients_cases hc h.toSignerSet with ⟨-, w, hw, hcoeff⟩ | ⟨hzero, -⟩
  · exact ⟨w, hw, hpoints, hcoeff⟩
  · exact absurd hzero h.det_ne_zero

theorem quorum_of_coefficients (hc : config.Accepted) {points : List BirkhoffPoint}
    {coefficients : List BirkhoffCoefficient}
    (hpoints : birkhoffPointsFromHierarchicalSignerSet signers config = .ok points)
    (hcoeff : birkhoffInterpolationCoefficients points = .ok coefficients) :
    config.Quorum signers := by
  obtain ⟨hset, hz, rfl⟩ := (birkhoffPointsFromHierarchicalSignerSet_eq_ok hc).mp hpoints
  rcases signerCoefficients_cases hc hset with ⟨hdet, -⟩ | ⟨-, hfail⟩
  · exact ⟨hset, hz, hdet⟩
  · rw [hfail] at hcoeff
    exact absurd hcoeff (fail_ne_ok _ _)

theorem Quorum.length_points (h : config.Quorum signers) :
    config.threshold.toNat ≤ (config.points signers).length := by
  rw [points, List.length_map]
  exact h.enough

end HierarchicalThresholdConfig

/-- Two participants of ranks zero and one who sign together: a policy to evaluate results on. -/
def pairConfig : HierarchicalThresholdConfig := ⟨2, [⟨1, 0, none⟩, ⟨2, 1, none⟩]⟩

theorem pairConfig_new :
    HierarchicalThresholdConfig.new 2 pairConfig.participants = .ok pairConfig := rfl

theorem pairConfig_signerSet : validateHierarchicalSignerSet [1, 2] pairConfig = .ok () := rfl

theorem pairConfig_quorum : pairConfig.Quorum [1, 2] where
  toSignerSet := (validateHierarchicalSignerSet_eq_ok
    (HierarchicalThresholdConfig.accepted_of_new pairConfig_new)).mp pairConfig_signerSet
  ids_ne_zero := by decide
  det_ne_zero := @RankOrdered.det_zmod_ne_zero _ ⟨by decide, by decide, by decide⟩ _ 2 (by decide)
    (by decide) (by norm_num [groupOrder, Nat.factorial, conditions, HierarchicalThresholdConfig.points])

end SignerPoints

end DkgKit
