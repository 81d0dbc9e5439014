import Mathlib.Data.List.Prime
import Mathlib.NumberTheory.LucasPrimality
import Mathlib.Tactic.NormNum.Prime

/-! Modular powers that the kernel evaluates quickly, and primality of large
numbers from Lucas witnesses. -/

namespace LucasCertificate

def powMod (m base : ℕ) : ℕ → ℕ → ℕ
  | 0, _ => 1
  | digits + 1, e => powMod m base digits (e / 16) ^ 16 * base ^ (e % 16) % m

theorem powMod_cast (m base digits e : ℕ) (he : e < 16 ^ digits) :
    (powMod m base digits e : ZMod m) = (base : ZMod m) ^ e := by
  induction digits generalizing e with
  | zero =>
    have : e = 0 := by simpa using he
    simp [powMod, this]
  | succ digits ih =>
    have hlt : e / 16 < 16 ^ digits := by rw [pow_succ] at he; omega
    rw [powMod, ZMod.natCast_mod, Nat.cast_mul, Nat.cast_pow, Nat.cast_pow, ih _ hlt,
      ← pow_mul, ← pow_add, mul_comm, Nat.div_add_mod]

/-- A number, a generator of its units, and the prime factors of its predecessor
with multiplicity. -/
structure Entry where
  number : ℕ
  root : ℕ
  factors : List ℕ

def Entry.check (digits : ℕ) (e : Entry) : Bool :=
  decide (1 < e.number) && decide (e.number ≤ 16 ^ digits) && e.factors.prod == e.number - 1 &&
    powMod e.number e.root digits (e.number - 1) % e.number == 1 &&
    e.factors.all fun r => powMod e.number e.root digits ((e.number - 1) / r) % e.number != 1

/-- Every factor of an entry is certified by an entry after it. -/
def valid (digits : ℕ) : List Entry → Bool
  | [] => true
  | e :: rest =>
    valid digits rest && e.check digits && e.factors.all fun r => (rest.map Entry.number).contains r

theorem powMod_mod_eq_one_iff {p a e : ℕ} (digits : ℕ) (hp : 1 < p) (he : e < 16 ^ digits) :
    powMod p a digits e % p = 1 ↔ (a : ZMod p) ^ e = 1 := by
  have hiff := ZMod.natCast_eq_natCast_iff' (powMod p a digits e) 1 p
  rw [Nat.cast_one, powMod_cast p a digits e he, Nat.mod_eq_of_lt hp] at hiff
  exact hiff.symm

theorem Entry.prime_of_check {digits : ℕ} {e : Entry} (hprime : ∀ r ∈ e.factors, r.Prime)
    (h : e.check digits = true) : e.number.Prime := by
  simp only [Entry.check, Bool.and_eq_true, decide_eq_true_eq, beq_iff_eq, List.all_eq_true,
    bne_iff_ne] at h
  obtain ⟨⟨⟨⟨hp, hdigits⟩, hprod⟩, hone⟩, hne⟩ := h
  refine lucas_primality e.number e.root ((powMod_mod_eq_one_iff digits hp (by omega)).mp hone) ?_
  intro r hr hdvd
  have hmem : r ∈ e.factors :=
    mem_list_primes_of_dvd_prod hr.prime (fun s hs => (hprime s hs).prime) (hprod ▸ hdvd)
  have hlt : (e.number - 1) / r < 16 ^ digits := (Nat.div_le_self _ _).trans_lt (by omega)
  exact fun he => hne r hmem ((powMod_mod_eq_one_iff digits hp hlt).mpr he)

theorem prime_of_valid {digits : ℕ} {certificate : List Entry}
    (h : valid digits certificate = true) : ∀ e ∈ certificate, e.number.Prime := by
  induction certificate with
  | nil => simp
  | cons e rest ih =>
    simp only [valid, Bool.and_eq_true, List.all_eq_true, List.contains_iff_mem,
      List.mem_map] at h
    obtain ⟨⟨hrest, hcheck⟩, hfactors⟩ := h
    have hprime : ∀ r ∈ e.factors, r.Prime := by
      intro r hr
      obtain ⟨e', he', rfl⟩ := hfactors r hr
      exact ih hrest e' he'
    intro e' he'
    rcases List.mem_cons.mp he' with rfl | he'
    · exact Entry.prime_of_check hprime hcheck
    · exact ih hrest e' he'

end LucasCertificate
