import Mathlib.Data.List.Basic

/-! Programs over a state that may fail, and keep the state they have reached when they do:
what they return and leave behind, step by step and along loops. -/

namespace StatefulPrograms

variable {ε ε' σ τ α β : Type}

abbrev Program (ε σ : Type) := ExceptT ε (StateM σ)

/-- What a program returns from a state, and the state it leaves. -/
def outcome (p : Program ε σ α) (s : σ) : Except ε α × σ := Id.run (StateT.run (ExceptT.run p) s)

/-- A call on a part of the state. -/
def focus (read : σ → τ) (write : τ → σ → σ) (call : τ → Except ε α × τ) : Program ε σ α :=
  fun s => pure ((call (read s)).1, write (call (read s)).2 s)

/-- A computation that leaves the state alone. -/
def attempt (x : Except ε α) : Program ε σ α := fun s => pure (x, s)

section Steps

variable {p : Program ε σ α} {f : α → Program ε σ β} {s s' : σ} {a : α} {e : ε}

@[simp] theorem outcome_pure (a : α) (s : σ) : outcome (pure a : Program ε σ α) s = (.ok a, s) := rfl

@[simp] theorem outcome_get (s : σ) : outcome (get : Program ε σ σ) s = (.ok s, s) := rfl

@[simp] theorem outcome_modify (f : σ → σ) (s : σ) :
    outcome (modify f : Program ε σ PUnit) s = (.ok ⟨⟩, f s) := rfl

@[simp] theorem outcome_throw (e : ε) (s : σ) : outcome (throw e : Program ε σ α) s = (.error e, s) := rfl

@[simp] theorem outcome_attempt (x : Except ε α) (s : σ) :
    outcome (attempt x : Program ε σ α) s = (x, s) := rfl

theorem outcome_bind (p : Program ε σ α) (f : α → Program ε σ β) (s : σ) :
    outcome (p >>= f) s = match outcome p s with
      | (.ok a, s') => outcome (f a) s'
      | (.error e, s') => (.error e, s') := by
  rw [outcome, ExceptT.run_bind, StateT.run_bind]
  change Id.run ((ExceptT.run p).run s >>= _) = _
  rcases hp : outcome p s with ⟨a | e, s'⟩
  all_goals
    have hrun : Id.run ((ExceptT.run p).run s) = _ := hp
    rw [Id.run_bind, hrun]
    rfl

theorem bind_ok (h : outcome p s = (.ok a, s')) : outcome (p >>= f) s = outcome (f a) s' := by
  rw [outcome_bind, h]

theorem bind_error (h : outcome p s = (.error e, s')) : outcome (p >>= f) s = (.error e, s') := by
  rw [outcome_bind, h]

theorem outcome_focus {read : σ → τ} {write : τ → σ → σ} {call : τ → Except ε α × τ} {result : Except ε α}
    {t : τ} (h : call (read s) = (result, t)) : outcome (focus read write call) s = (result, write t s) := by
  have hfocus : outcome (focus read write call) s = ((call (read s)).1, write (call (read s)).2 s) := rfl
  rw [hfocus, h]

theorem outcome_adapt (g : ε → ε') (p : Program ε σ α) (s : σ) :
    outcome (ExceptT.adapt g p) s = ((outcome p s).1.mapError g, (outcome p s).2) := by
  rw [outcome]
  change Id.run ((Except.mapError g <$> ExceptT.run p).run s) = _
  rw [StateT.run_map, Id.run_map]
  rfl

end Steps

section Loops

variable {f : α → Program ε σ PUnit} {l : List α} {s : σ}

/-- What each pass of a loop keeps of the elements done so far, the loop keeps of all. -/
theorem forM_ok (P : List α → σ → Prop) (hstep : ∀ done a rest, l = done ++ a :: rest → ∀ s, P done s →
      ∃ s', outcome (f a) s = (.ok ⟨⟩, s') ∧ P (done ++ [a]) s') (hs : P [] s) :
    ∃ s', outcome (l.forM f) s = (.ok ⟨⟩, s') ∧ P l s' := by
  have hloop : ∀ rest done s, l = done ++ rest → P done s →
      ∃ s', outcome (rest.forM f) s = (.ok ⟨⟩, s') ∧ P l s' := by
    intro rest
    induction rest with
    | nil =>
      intro done s hl hdone
      rw [List.append_nil] at hl
      exact ⟨s, rfl, hl ▸ hdone⟩
    | cons a rest ih =>
      intro done s hl hdone
      obtain ⟨s', hfirst, hnext⟩ := hstep done a rest hl s hdone
      obtain ⟨s'', hrest, hfinal⟩ := ih (done ++ [a]) s' (by rw [hl, List.append_assoc]; rfl) hnext
      exact ⟨s'', (bind_ok hfirst).trans hrest, hfinal⟩
  exact hloop l [] s rfl hs

theorem forM_error {a : α} {rest : List α} {e : ε} {s' : σ} (h : outcome (f a) s = (.error e, s')) :
    outcome ((a :: rest).forM f) s = (.error e, s') := bind_error h

end Loops

end StatefulPrograms
