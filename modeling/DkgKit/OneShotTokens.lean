import Mathlib.Data.List.Nodup
import Mathlib.Logic.Function.Basic

/-! Tokens that are issued, held by at most one owner at a time, and used at most once. -/

namespace OneShotTokens

variable {ι τ : Type*}

/-- The tokens held by the owners, and those issued and used so far. -/
structure Ledger (ι τ : Type*) where
  held : ι → Option τ
  issued : List τ
  used : List τ

namespace Ledger

/-- Nothing has been issued. -/
def empty : Ledger ι τ := ⟨fun _ => none, [], []⟩

/-- A token that has been issued has one owner or has been used, never both. -/
structure Sound (ledger : Ledger ι τ) : Prop where
  used_nodup : ledger.used.Nodup
  used_issued : ∀ t ∈ ledger.used, t ∈ ledger.issued
  held_issued : ∀ i t, ledger.held i = some t → t ∈ ledger.issued
  held_unused : ∀ i t, ledger.held i = some t → t ∉ ledger.used
  held_once : ∀ i j t, ledger.held i = some t → ledger.held j = some t → i = j

variable {ledger : Ledger ι τ}

theorem sound_empty : (empty : Ledger ι τ).Sound where
  used_nodup := List.nodup_nil
  used_issued := by simp [empty]
  held_issued := by simp [empty]
  held_unused := by simp [empty]
  held_once := by simp [empty]

/-- A token that nobody gets. -/
theorem Sound.issue (h : ledger.Sound) (t : τ) :
    Sound { ledger with issued := ledger.issued ++ [t] } where
  used_nodup := h.used_nodup
  used_issued := fun u hu => List.mem_append_left _ (h.used_issued u hu)
  held_issued := fun i u hu => List.mem_append_left _ (h.held_issued i u hu)
  held_unused := h.held_unused
  held_once := h.held_once

variable [DecidableEq ι]

theorem held_of_update {i j : ι} {o : Option τ} {u : τ}
    (hu : Function.update ledger.held i o j = some u) :
    (j = i ∧ o = some u) ∨ (j ≠ i ∧ ledger.held j = some u) := by
  by_cases hj : j = i
  · subst hj
    rw [Function.update_self] at hu
    exact .inl ⟨rfl, hu⟩
  · rw [Function.update_of_ne hj] at hu
    exact .inr ⟨hj, hu⟩

/-- A new token replaces what its owner held. -/
theorem Sound.store (h : ledger.Sound) (i : ι) {t : τ} (hnew : t ∉ ledger.issued) :
    Sound ⟨Function.update ledger.held i (some t), ledger.issued ++ [t], ledger.used⟩ where
  used_nodup := h.used_nodup
  used_issued := fun u hu => List.mem_append_left _ (h.used_issued u hu)
  held_issued := by
    intro j u hu
    rcases held_of_update hu with ⟨-, ht⟩ | ⟨-, hu⟩
    · rw [← Option.some.inj ht]
      exact List.mem_append_right _ (List.mem_singleton_self t)
    · exact List.mem_append_left _ (h.held_issued j u hu)
  held_unused := by
    intro j u hu hused
    rcases held_of_update hu with ⟨-, ht⟩ | ⟨-, hu⟩
    · rw [← Option.some.inj ht] at hused
      exact hnew (h.used_issued t hused)
    · exact h.held_unused j u hu hused
  held_once := by
    intro j k u hj hk
    rcases held_of_update hj with ⟨hji, ht⟩ | ⟨-, hj⟩ <;> rcases held_of_update hk with ⟨hki, ht'⟩ | ⟨-, hk⟩
    · rw [hji, hki]
    · rw [← Option.some.inj ht] at hk
      exact absurd (h.held_issued k t hk) hnew
    · rw [← Option.some.inj ht'] at hj
      exact absurd (h.held_issued j t hj) hnew
    · exact h.held_once j k u hj hk

theorem held_of_update_none {i j : ι} {u : τ} (hu : Function.update ledger.held i none j = some u) :
    j ≠ i ∧ ledger.held j = some u := by
  rcases held_of_update hu with ⟨-, hnone⟩ | h
  · cases hnone
  · exact h

theorem Sound.discard (h : ledger.Sound) (i : ι) :
    Sound { ledger with held := Function.update ledger.held i none } where
  used_nodup := h.used_nodup
  used_issued := h.used_issued
  held_issued := fun j u hu => h.held_issued j u (held_of_update_none hu).2
  held_unused := fun j u hu => h.held_unused j u (held_of_update_none hu).2
  held_once := fun j k u hj hk => h.held_once j k u (held_of_update_none hj).2 (held_of_update_none hk).2

/-- The owner of a token uses it and no longer holds it. -/
theorem Sound.use (h : ledger.Sound) {i : ι} {t : τ} (ht : ledger.held i = some t) :
    Sound ⟨Function.update ledger.held i none, ledger.issued, ledger.used ++ [t]⟩ where
  used_nodup := by
    rw [List.nodup_append]
    refine ⟨h.used_nodup, List.nodup_singleton t, ?_⟩
    rintro u hu _ ht' rfl
    rw [List.mem_singleton.mp ht'] at hu
    exact h.held_unused i t ht hu
  used_issued := by
    intro u hu
    rcases List.mem_append.mp hu with hu | hu
    · exact h.used_issued u hu
    · exact h.held_issued i u (List.mem_singleton.mp hu ▸ ht)
  held_issued := fun j u hu => h.held_issued j u (held_of_update_none hu).2
  held_unused := by
    intro j u hu hused
    obtain ⟨hj, hu⟩ := held_of_update_none hu
    rcases List.mem_append.mp hused with hused | hused
    · exact h.held_unused j u hu hused
    · exact hj (h.held_once j i u hu (List.mem_singleton.mp hused ▸ ht))
  held_once := fun j k u hj hk => h.held_once j k u (held_of_update_none hj).2 (held_of_update_none hk).2

end Ledger

end OneShotTokens
