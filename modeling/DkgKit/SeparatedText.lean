import Mathlib.Data.List.Infix

/-! Texts made of fields between separators. A separator is a marker followed by a key
that does not contain the marker, so two occurrences of separators never overlap. -/

namespace SeparatedText

variable {α : Type*} {marker : α} {key key' a a' r r' : List α}

/-- The part of the longer prefix that runs over a separator swallows it whole. -/
theorem exists_of_prefix_lt {c : List α} (hkey : marker ∉ key)
    (h : marker :: key ++ r = c ++ marker :: key' ++ r') (hc : c ≠ []) :
    ∃ m, c = marker :: key ++ m ∧ r = m ++ marker :: key' ++ r' := by
  rw [List.append_assoc] at h
  rcases List.append_eq_append_iff.mp h with ⟨m, hcm, hr⟩ | ⟨m, hmk, hrest⟩
  · exact ⟨m, hcm, by rw [hr, List.append_assoc]⟩
  · cases m with
    | nil => exact ⟨[], by simpa using hmk.symm, by simpa using hrest.symm⟩
    | cons x m =>
      -- otherwise the marker of the second separator lies inside the first key
      exfalso
      rw [List.cons_append, List.cons_append, List.cons.injEq] at hrest
      cases c with
      | nil => exact hc rfl
      | cons y c =>
        rw [List.cons_append, List.cons.injEq] at hmk
        apply hkey
        rw [hmk.2, hrest.1]
        exact List.mem_append_right _ List.mem_cons_self

theorem append_separator_cases (hkey : marker ∉ key) (hkey' : marker ∉ key')
    (h : a ++ marker :: key ++ r = a' ++ marker :: key' ++ r') :
    (a = a' ∧ key ++ r = key' ++ r') ∨
      (∃ m, a' = a ++ marker :: key ++ m ∧ r = m ++ marker :: key' ++ r') ∨
      ∃ m, a = a' ++ marker :: key' ++ m ∧ r' = m ++ marker :: key ++ r := by
  have h' := h
  rw [List.append_assoc, List.append_assoc] at h'
  rcases List.append_eq_append_iff.mp h' with ⟨c, ha, hrest⟩ | ⟨c, ha, hrest⟩
  · rcases eq_or_ne c [] with rfl | hc
    · rw [List.append_nil] at ha
      rw [List.nil_append, List.cons_append, List.cons_append, List.cons.injEq] at hrest
      exact .inl ⟨ha.symm, hrest.2⟩
    · rw [← List.append_assoc] at hrest
      obtain ⟨m, rfl, hr⟩ := exists_of_prefix_lt hkey hrest hc
      exact .inr (.inl ⟨m, by rw [ha, List.append_assoc], hr⟩)
  · rcases eq_or_ne c [] with rfl | hc
    · rw [List.append_nil] at ha
      rw [List.nil_append, List.cons_append, List.cons_append, List.cons.injEq] at hrest
      exact .inl ⟨ha, hrest.2.symm⟩
    · rw [← List.append_assoc] at hrest
      obtain ⟨m, rfl, hr⟩ := exists_of_prefix_lt hkey' hrest hc
      exact .inr (.inr ⟨m, by rw [ha, List.append_assoc], hr⟩)

/-- The same separator on both sides, in neither part of the first split. -/
theorem split_unique (hkey : marker ∉ key) (ha : ¬marker :: key <:+: a) (hr : ¬marker :: key <:+: r)
    (h : a ++ marker :: key ++ r = a' ++ marker :: key ++ r') : a = a' ∧ r = r' := by
  rcases append_separator_cases hkey hkey h with ⟨haa, hrr⟩ | ⟨m, -, hm⟩ | ⟨m, hm, -⟩
  · exact ⟨haa, List.append_cancel_left hrr⟩
  · exact absurd ⟨m, r', hm.symm⟩ hr
  · exact absurd ⟨a', m, hm.symm⟩ ha

theorem ne_append_separator (a : List α) (marker : α) (key r : List α) : a ≠ a ++ marker :: key ++ r := by
  intro h
  have hlen := congrArg List.length h
  simp only [List.length_append, List.length_cons] at hlen
  omega

/-- A separator in either part moves the split there. -/
theorem notInfix_of_split_unique
    (h : ∀ a' r', a ++ marker :: key ++ r = a' ++ marker :: key ++ r' → a = a') :
    ¬marker :: key <:+: a ∧ ¬marker :: key <:+: r := by
  constructor
  · rintro ⟨x, y, hx⟩
    have hax := h x (y ++ marker :: key ++ r) (by
      rw [← hx]
      simp only [List.append_assoc])
    exact ne_append_separator x marker key y (hax.symm.trans hx.symm)
  · rintro ⟨x, y, hx⟩
    have hax := h (a ++ marker :: key ++ x) y (by
      rw [← hx]
      simp only [List.append_assoc])
    exact ne_append_separator a marker key x hax

/-- Two separators of which neither can stand where the other does. -/
theorem split_distinct (hkey : marker ∉ key) (hkey' : marker ∉ key')
    (hne : ∀ x y, key ++ x ≠ key' ++ y)
    (h : a ++ marker :: key ++ r = a' ++ marker :: key' ++ r') :
    (∃ m, a' = a ++ marker :: key ++ m ∧ r = m ++ marker :: key' ++ r') ∨
      ∃ m, a = a' ++ marker :: key' ++ m ∧ r' = m ++ marker :: key ++ r := by
  rcases append_separator_cases hkey hkey' h with ⟨-, hrr⟩ | h | h
  · exact absurd hrr (hne _ _)
  · exact .inl h
  · exact .inr h

/-- A field without the marker ends at the first separator. -/
theorem split_of_notMem (hkey : marker ∉ key) (hkey' : marker ∉ key') (hne : ∀ x y, key ++ x ≠ key' ++ y)
    (ha : marker ∉ a) (h : a ++ marker :: key ++ r = a' ++ marker :: key' ++ r') :
    ∃ m, a' = a ++ marker :: key ++ m ∧ r = m ++ marker :: key' ++ r' := by
  rcases split_distinct hkey hkey' hne h with h | ⟨m, hm, -⟩
  · exact h
  · exact absurd (hm ▸ List.mem_append_left _ (List.mem_append_right _ List.mem_cons_self)) ha

end SeparatedText
