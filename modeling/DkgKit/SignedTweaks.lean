import Mathlib.Algebra.Module.Basic

/-! Maps `p ↦ ±p + b • g` of a module. Adding multiples of `g` and changing the sign of the
result stay within them, so that a chain of such steps is described by one sign and one scalar. -/

namespace SignedTweaks

structure SignedTweak (R : Type*) where
  negate : Bool
  offset : R

namespace SignedTweak

section Operations

variable {R : Type*} [Ring R]

def identity : SignedTweak R := ⟨false, 0⟩

def add (t : SignedTweak R) (b : R) : SignedTweak R := ⟨t.negate, t.offset + b⟩

def negateIf (t : SignedTweak R) (negate : Bool) : SignedTweak R :=
  ⟨t.negate ^^ negate, if negate then -t.offset else t.offset⟩

end Operations

section Action

variable {R M : Type*} [Ring R] [AddCommGroup M] [Module R M] (g : M)

def apply (t : SignedTweak R) (p : M) : M := (if t.negate then -p else p) + t.offset • g

@[simp] theorem apply_identity (p : M) : (identity : SignedTweak R).apply g p = p := by
  simp [apply, identity]

@[simp] theorem apply_add (t : SignedTweak R) (b : R) (p : M) :
    (t.add b).apply g p = t.apply g p + b • g := by
  rw [apply, apply, add, add_smul, add_assoc]

@[simp] theorem apply_negateIf (t : SignedTweak R) (negate : Bool) (p : M) :
    (t.negateIf negate).apply g p = if negate then -t.apply g p else t.apply g p := by
  cases negate with
  | false => simp [apply, negateIf]
  | true => cases hn : t.negate <;> simp [apply, negateIf, hn, add_comm]

end Action

end SignedTweak

end SignedTweaks
