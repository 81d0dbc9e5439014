import Mathlib.Algebra.Order.BigOperators.Group.List
import Mathlib.Algebra.Order.Ring.Nat
import Mathlib.Data.List.Nodup
import Mathlib.Data.List.Sort

/-! Counting in lists: the position of a value in the sorted list, and counts
grouped by a key. -/

namespace ListCounting

variable {α β : Type*}

section Sorted

variable [LinearOrder β] (key : α → β)

theorem getElem_le_iff_lt_countP {l : List α} (hl : l.Pairwise (fun a b => key a ≤ key b)) {i : ℕ}
    (hi : i < l.length) (bound : β) :
    key l[i] ≤ bound ↔ i < l.countP fun a => key a ≤ bound := by
  induction l generalizing i with
  | nil => simp at hi
  | cons a rest ih =>
    rw [List.pairwise_cons] at hl
    by_cases ha : key a ≤ bound
    · rw [List.countP_cons_of_pos (by simpa using ha)]
      cases i with
      | zero => simp [ha]
      | succ i =>
        rw [List.getElem_cons_succ, ih hl.2 (by simpa using hi)]
        omega
    · -- nothing after `a` is within the bound either
      have hrest : ∀ x ∈ a :: rest, ¬ key x ≤ bound := by
        intro x hx hxb
        rcases List.mem_cons.mp hx with rfl | hx
        · exact ha hxb
        · exact ha ((hl.1 x hx).trans hxb)
      have hzero : (a :: rest).countP (fun a => key a ≤ bound) = 0 := by
        rw [List.countP_eq_zero]
        simpa using hrest
      rw [hzero]
      simp only [Nat.not_lt_zero, iff_false]
      exact hrest _ (List.getElem_mem hi)

theorem getElem_insertionSort_le_iff {l : List α} {i : ℕ}
    (hi : i < (l.insertionSort fun a b => key a ≤ key b).length) (bound : β) :
    key (l.insertionSort fun a b => key a ≤ key b)[i] ≤ bound ↔
      i < l.countP fun a => key a ≤ bound := by
  have : Std.Total fun a b => key a ≤ key b := ⟨fun a b => le_total (key a) (key b)⟩
  have : IsTrans α fun a b => key a ≤ key b := ⟨fun _ _ _ => le_trans⟩
  rw [getElem_le_iff_lt_countP key (List.pairwise_insertionSort _ l) hi bound,
    (List.perm_insertionSort (fun a b => key a ≤ key b) l).countP_eq]

theorem lt_countP_take_insertionSort {l : List α} {i t : ℕ} {bound : β} (hit : i < t)
    (h : i < l.countP fun a => key a ≤ bound) :
    i < ((l.insertionSort fun a b => key a ≤ key b).take t).countP fun a => key a ≤ bound := by
  have : Std.Total fun a b => key a ≤ key b := ⟨fun a b => le_total (key a) (key b)⟩
  have : IsTrans α fun a b => key a ≤ key b := ⟨fun _ _ _ => le_trans⟩
  have hi : i < (l.insertionSort fun a b => key a ≤ key b).length := by
    rw [List.length_insertionSort]
    exact h.trans_le List.countP_le_length
  have hpairwise := (List.pairwise_insertionSort (fun a b => key a ≤ key b) l).sublist
    (List.take_sublist t _)
  rw [← getElem_le_iff_lt_countP key hpairwise (by rw [List.length_take]; exact lt_min hit hi),
    List.getElem_take]
  exact (getElem_insertionSort_le_iff key hi bound).mpr h

end Sorted

section Keys

variable [BEq β] [LawfulBEq β]

theorem filter_key_eq_singleton {l : List α} {key : α → β} (hnd : (l.map key).Nodup) {a : α}
    (ha : a ∈ l) : l.filter (fun b => key b == key a) = [a] := by
  induction l with
  | nil => exact absurd ha List.not_mem_nil
  | cons b rest ih =>
    rw [List.map_cons, List.nodup_cons] at hnd
    rcases List.mem_cons.mp ha with rfl | ha
    · have hnone : rest.filter (fun b => key b == key a) = [] := by
        rw [List.filter_eq_nil_iff]
        intro b hb hkey
        exact hnd.1 (List.mem_map.mpr ⟨b, hb, beq_iff_eq.mp hkey⟩)
      rw [List.filter_cons_of_pos (by simp), hnone]
    · have hne : key b ≠ key a := by
        intro hkey
        exact hnd.1 (List.mem_map.mpr ⟨a, ha, hkey.symm⟩)
      rw [List.filter_cons_of_neg (by simpa using hne), ih hnd.2 ha]

theorem countP_key_cons {l : List α} (key : α → β) {k : β} {keys : List β} (hk : k ∉ keys) :
    (l.countP fun a => key a ∈ k :: keys) =
      (l.countP fun a => key a == k) + l.countP fun a => key a ∈ keys := by
  induction l with
  | nil => simp
  | cons a rest ih =>
    rw [List.countP_cons, List.countP_cons, List.countP_cons, ih]
    by_cases ha : key a = k
    · have hone : decide (key a ∈ k :: keys) = true := by simp [ha]
      have hzero : decide (key a ∈ keys) = false := by simp [ha, hk]
      rw [hone, hzero, ha, beq_self_eq_true]
      simp only [if_true, Bool.false_eq_true, if_false]
      omega
    · have hsame : decide (key a ∈ k :: keys) = decide (key a ∈ keys) := by simp [ha]
      have hzero : (key a == k) = false := by simpa using ha
      rw [hsame, hzero]
      simp only [Bool.false_eq_true, if_false]
      omega

theorem sum_countP_key {l : List α} (key : α → β) {keys : List β} (hkeys : keys.Nodup) :
    (keys.map fun k => l.countP fun a => key a == k).sum = l.countP fun a => key a ∈ keys := by
  induction keys with
  | nil => simp
  | cons k rest ih =>
    rw [List.nodup_cons] at hkeys
    rw [List.map_cons, List.sum_cons, ih hkeys.2, countP_key_cons key hkeys.1]

end Keys

end ListCounting
