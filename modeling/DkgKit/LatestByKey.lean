import Mathlib.Data.List.Basic
import Mathlib.Data.List.Induction
import Mathlib.Data.List.Nodup

/-! A store that keeps, of everything written to it, the latest entry for each key. -/

namespace LatestByKey

variable {α κ : Type*} [DecidableEq κ] (key : α → κ)

def replace (stored : List α) (a : α) : List α := (stored.filter fun b => key b ≠ key a) ++ [a]

/-- The store after a log of writes. -/
def latest (log : List α) : List α := log.foldl (replace key) []

theorem foldl_replace (log stored : List α) :
    log.foldl (replace key) stored = (stored.filter fun b => ∀ a ∈ log, key b ≠ key a) ++ latest key log := by
  induction log using List.reverseRecOn with
  | nil => simp [latest]
  | append_singleton log a ih =>
    have hstep : ∀ stored, (log ++ [a]).foldl (replace key) stored =
        replace key (log.foldl (replace key) stored) a := fun _ => List.foldl_concat _ _ _ _
    have hfilter : ∀ b, decide (∀ c ∈ log ++ [a], key b ≠ key c) =
        (decide (key b ≠ key a) && decide (∀ c ∈ log, key b ≠ key c)) := by
      intro b
      simp [and_comm, or_imp, forall_and]
    have hlatest : latest key (log ++ [a]) = replace key (latest key log) a := hstep []
    rw [hstep, ih, hlatest, replace, replace, List.filter_append, List.filter_filter, List.append_assoc]
    simp only [hfilter]

theorem latest_append (log log' : List α) :
    latest key (log ++ log') = ((latest key log).filter fun b => ∀ a ∈ log', key b ≠ key a) ++ latest key log' := by
  rw [latest, List.foldl_append]
  exact foldl_replace key log' _

theorem latest_sublist (log : List α) : (latest key log).Sublist log := by
  induction log using List.reverseRecOn with
  | nil => exact List.Sublist.refl _
  | append_singleton log a ih =>
    rw [latest_append]
    exact (List.filter_sublist.trans ih).append (List.Sublist.refl _)

/-- A write is still there exactly if no later one has its key. -/
theorem mem_latest_iff {before after : List α} {a : α} (hnd : (before ++ a :: after).Nodup) :
    a ∈ latest key (before ++ a :: after) ↔ ∀ b ∈ after, key b ≠ key a := by
  have hafter : a ∉ latest key after := fun h =>
    (List.nodup_cons.mp hnd.of_append_right).1 ((latest_sublist key after).subset h)
  have hbefore : a ∉ latest key before := fun h =>
    List.disjoint_of_nodup_append hnd ((latest_sublist key before).subset h) List.mem_cons_self
  have hself : latest key [a] = [a] := rfl
  rw [latest_append, ← List.singleton_append, latest_append, hself]
  simp [hafter, hbefore, eq_comm]

end LatestByKey
