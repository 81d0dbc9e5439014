import Mathlib.Data.List.Forall2
import Mathlib.Logic.Function.Basic

/-! Queues read by selection. A pass with a stateful test takes some elements out and
leaves the others in order; a queue of keyed elements, read one key at a time, behaves
as a family of independent queues. -/

namespace SelectiveQueue

section Passes

variable {α σ : Type*}

/-- Keep the elements that pass, in place; the test may change its state. -/
def retain (keep : σ → α → Bool × σ) : List α → σ → List α × σ
  | [], s => ([], s)
  | a :: rest, s =>
    let (kept, s') := retain keep rest (keep s a).2
    (if (keep s a).1 then a :: kept else kept, s')

/-- The elements that a pass takes, those it leaves, and the state after it. -/
def sift (pick : σ → α → Bool × σ) : List α → σ → List α × List α × σ
  | [], s => ([], [], s)
  | a :: rest, s =>
    let (taken, left, s') := sift pick rest (pick s a).2
    if (pick s a).1 then (a :: taken, left, s') else (taken, a :: left, s')

theorem retain_eq_sift (pick : σ → α → Bool × σ) (l taken : List α) (s : σ) :
    retain (fun (acc : List α × σ) a =>
        if (pick acc.2 a).1 then (false, acc.1 ++ [a], (pick acc.2 a).2)
        else (true, acc.1, (pick acc.2 a).2)) l (taken, s) =
      ((sift pick l s).2.1, taken ++ (sift pick l s).1, (sift pick l s).2.2) := by
  induction l generalizing taken s with
  | nil => simp [retain, sift]
  | cons a rest ih =>
    cases h : (pick s a).1 <;> simp [retain, sift, h, ih]

theorem sift_pure (p : α → Bool) (l : List α) (s : σ) :
    sift (fun s a => (p a, s)) l s = (l.filter p, l.filter fun a => !p a, s) := by
  induction l with
  | nil => rfl
  | cons a rest ih =>
    cases h : p a <;> simp [sift, h, ih]

theorem filter_eq_nil_of_filter_not {p : α → Bool} {l : List α}
    (h : (l.filter fun a => !p a) = l) : l.filter p = [] := by
  rw [List.filter_eq_self] at h
  rw [List.filter_eq_nil_iff]
  intro a ha
  simpa using h a ha

end Passes

section Keyed

variable {κ : Type*} [DecidableEq κ] {β : κ → Type*}

/-- The elements under a key, in order. -/
def fiber (k : κ) : List (Σ k, β k) → List (β k)
  | [] => []
  | ⟨k', b⟩ :: rest => if h : k' = k then h ▸ b :: fiber k rest else fiber k rest

def push (queues : ∀ k, List (β k)) (k : κ) (b : β k) : ∀ k, List (β k) :=
  Function.update queues k (queues k ++ [b])

def clear (queues : ∀ k, List (β k)) (k : κ) : ∀ k, List (β k) := Function.update queues k []

theorem fiber_cons_self (k : κ) (b : β k) (l : List (Σ k, β k)) :
    fiber k (⟨k, b⟩ :: l) = b :: fiber k l := dif_pos rfl

theorem fiber_cons_of_ne {k : κ} {x : Σ k, β k} (h : x.1 ≠ k) (l : List (Σ k, β k)) :
    fiber k (x :: l) = fiber k l := dif_neg h

theorem fiber_append (k : κ) (l l' : List (Σ k, β k)) :
    fiber k (l ++ l') = fiber k l ++ fiber k l' := by
  induction l with
  | nil => rfl
  | cons x rest ih =>
    obtain ⟨k', b⟩ := x
    by_cases h : k' = k <;> simp [fiber, h, ih]

theorem fiber_push (l : List (Σ k, β k)) (k : κ) (b : β k) :
    (fun k' => fiber k' (l ++ [⟨k, b⟩])) = push (fun k' => fiber k' l) k b := by
  funext k'
  rw [fiber_append]
  by_cases h : k = k'
  · subst h
    simp [fiber, push]
  · simp [fiber, push, h, Function.update_of_ne (Ne.symm h)]

theorem fiber_filter_ne_self (l : List (Σ k, β k)) (k : κ) :
    fiber k (l.filter fun x => x.1 ≠ k) = [] := by
  induction l with
  | nil => rfl
  | cons x rest ih =>
    obtain ⟨i, b⟩ := x
    by_cases hi : i = k
    · rw [List.filter_cons_of_neg (by simpa using hi)]
      exact ih
    · rw [List.filter_cons_of_pos (by simpa using hi), fiber, dif_neg hi]
      exact ih

theorem fiber_filter_ne (l : List (Σ k, β k)) {k k' : κ} (h : k' ≠ k) :
    fiber k' (l.filter fun x => x.1 ≠ k) = fiber k' l := by
  induction l with
  | nil => rfl
  | cons x rest ih =>
    obtain ⟨i, b⟩ := x
    by_cases hi : i = k
    · have hik : i ≠ k' := fun heq => h (heq.symm.trans hi)
      rw [List.filter_cons_of_neg (by simpa using hi), fiber, dif_neg hik]
      exact ih
    · rw [List.filter_cons_of_pos (by simpa using hi), fiber, fiber, ih]

theorem fiber_clear (l : List (Σ k, β k)) (k : κ) :
    (fun k' => fiber k' (l.filter fun x => x.1 ≠ k)) = clear (fun k' => fiber k' l) k := by
  funext k'
  by_cases h : k' = k
  · subst h
    rw [clear, Function.update_self, fiber_filter_ne_self]
  · rw [clear, Function.update_of_ne h, fiber_filter_ne l h]

theorem filter_eq_map_fiber (l : List (Σ k, β k)) (k : κ) :
    (l.filter fun x => x.1 = k) = (fiber k l).map (Sigma.mk k) := by
  induction l with
  | nil => rfl
  | cons x rest ih =>
    obtain ⟨i, b⟩ := x
    by_cases hi : i = k
    · subst hi
      simp [fiber, ih]
    · simp [fiber, hi, ih]

/-- The queues after the elements have been pushed in order. -/
def deliver (queues : ∀ k, List (β k)) (sent : List (Σ k, β k)) : ∀ k, List (β k) :=
  fun k => queues k ++ fiber k sent

theorem deliver_nil (queues : ∀ k, List (β k)) : deliver queues [] = queues := by
  funext k
  exact List.append_nil _

theorem push_deliver (queues : ∀ k, List (β k)) (sent : List (Σ k, β k)) (k : κ) (b : β k) :
    push (deliver queues sent) k b = deliver queues (sent ++ [⟨k, b⟩]) := by
  funext k'
  by_cases h : k' = k
  · subst h
    simp [push, deliver, fiber_append, fiber]
  · rw [push, Function.update_of_ne h, deliver, deliver, fiber_append]
    simp [fiber, Ne.symm h]

theorem deliver_deliver (queues : ∀ k, List (β k)) (sent sent' : List (Σ k, β k)) :
    deliver (deliver queues sent) sent' = deliver queues (sent ++ sent') := by
  funext k
  rw [deliver, deliver, deliver, fiber_append, List.append_assoc]

theorem fiber_map_const {α : Type*} (k : κ) (f : α → β k) (l : List α) :
    fiber k (l.map fun a => ⟨k, f a⟩) = l.map f := by
  induction l with
  | nil => rfl
  | cons a rest ih => simp [fiber, ih]

theorem fiber_of_forall_ne {k : κ} {l : List (Σ k, β k)} (h : ∀ x ∈ l, x.1 ≠ k) : fiber k l = [] := by
  induction l with
  | nil => rfl
  | cons x rest ih =>
    rw [List.forall_mem_cons] at h
    rw [fiber, dif_neg h.1]
    exact ih h.2

/-- A queue that was empty is empty again after its elements have been read. -/
theorem clear_deliver {queues : ∀ k, List (β k)} {k : κ} (hempty : queues k = [])
    {sent : List (Σ k, β k)} (hsent : ∀ x ∈ sent, x.1 = k) : clear (deliver queues sent) k = queues := by
  funext k'
  by_cases h : k' = k
  · subst h
    rw [clear, Function.update_self, hempty]
  · have hnone : fiber k' sent = [] :=
      fiber_of_forall_ne fun x hx heq => h (heq.symm.trans (hsent x hx))
    rw [clear, Function.update_of_ne h, deliver, hnone, List.append_nil]

/-- The queues after several of them have been read. -/
def clearAll (queues : ∀ k, List (β k)) (keys : List κ) : ∀ k, List (β k) :=
  fun k => if k ∈ keys then [] else queues k

theorem clearAll_nil (queues : ∀ k, List (β k)) : clearAll queues [] = queues := by
  funext k
  exact if_neg List.not_mem_nil

theorem clear_clearAll (queues : ∀ k, List (β k)) (keys : List κ) (k : κ) :
    clear (clearAll queues keys) k = clearAll queues (keys ++ [k]) := by
  funext k'
  by_cases h : k' = k
  · subst h
    simp [clear, clearAll]
  · rw [clear, Function.update_of_ne h]
    simp [clearAll, h]

theorem clearAll_deliver {queues : ∀ k, List (β k)} {keys : List κ} (hempty : ∀ k ∈ keys, queues k = [])
    {sent : List (Σ k, β k)} (hsent : ∀ x ∈ sent, x.1 ∈ keys) :
    clearAll (deliver queues sent) keys = queues := by
  funext k
  by_cases h : k ∈ keys
  · rw [clearAll, if_pos h, hempty k h]
  · have hnone : fiber k sent = [] := fiber_of_forall_ne fun x hx heq => h (heq ▸ hsent x hx)
    rw [clearAll, if_neg h, deliver, hnone, List.append_nil]

end Keyed

end SelectiveQueue
