import Mathlib.Data.Finset.Card
import Mathlib.Data.Finset.Lattice.Lemmas
import Mathlib.Data.List.Nodup
import Mathlib.Data.List.Range

/-! Rules for loops whose body may fail: counting loops over a state, passes over a
list, those that collect the keys they have seen, and the faults a computation can end in. -/

namespace LoopRules

section Counting

variable {ε σ : Type*}

/-- `for k in a..(a + len)` over a state, leaving at the first failure. -/
def forRange (a len : ℕ) (body : σ → ℕ → Except ε σ) (s : σ) : Except ε σ :=
  (List.range' a len).foldlM body s

theorem forRange_eq_ok {a len : ℕ} {body : σ → ℕ → Except ε σ} (state : ℕ → σ)
    (hstep : ∀ k, a ≤ k → k < a + len → body (state k) k = .ok (state (k + 1))) :
    forRange a len body (state a) = .ok (state (a + len)) := by
  induction len generalizing a with
  | zero => rfl
  | succ len ih =>
    have htail := @ih (a + 1) fun k hk hk' => hstep k (by omega) (by omega)
    rw [forRange, List.range'_succ, List.foldlM_cons, hstep a le_rfl (by omega)]
    rw [show a + (len + 1) = a + 1 + len by omega]
    exact htail

theorem forRange_cases {a len : ℕ} {body : σ → ℕ → Except ε σ} {P : ℕ → σ → Prop} {e : ε}
    {Q : Prop} (hstep : ∀ k s, a ≤ k → k < a + len → P k s →
      (∃ s', body s k = .ok s' ∧ P (k + 1) s') ∨ (body s k = .error e ∧ Q)) {s : σ} (hs : P a s) :
    (∃ s', forRange a len body s = .ok s' ∧ P (a + len) s') ∨
      (forRange a len body s = .error e ∧ Q) := by
  induction len generalizing a s with
  | zero => exact .inl ⟨s, rfl, hs⟩
  | succ len ih =>
    rw [forRange, List.range'_succ, List.foldlM_cons]
    rcases hstep a s le_rfl (by omega) hs with ⟨s', hbody, hs'⟩ | ⟨hbody, hq⟩
    · rw [hbody, show a + (len + 1) = a + 1 + len by omega]
      exact ih (fun k s hk hk' => hstep k s (by omega) (by omega)) hs'
    · rw [hbody]
      exact .inr ⟨rfl, hq⟩

end Counting

section Passes

variable {ε α β σ τ : Type}

theorem except_bind_eq_ok {x : Except ε α} {f : α → Except ε β} {b : β} :
    (x >>= f) = .ok b ↔ ∃ a, x = .ok a ∧ f a = .ok b := by
  cases x with
  | error e => simp [bind, Except.bind]
  | ok a => simp [bind, Except.bind]

theorem mapM_eq_ok {f : α → Except ε β} {l : List α} {bs : List β} :
    l.mapM f = .ok bs ↔ List.Forall₂ (fun a b => f a = .ok b) l bs := by
  induction l generalizing bs with
  | nil => simp [pure, Except.pure, eq_comm]
  | cons a rest ih =>
    simp only [List.mapM_cons, except_bind_eq_ok, ih, pure, Except.pure, Except.ok.injEq,
      List.forall₂_cons_left_iff]
    constructor
    · rintro ⟨b, hb, bs', hbs, rfl⟩
      exact ⟨b, bs', hb, hbs, rfl⟩
    · rintro ⟨b, bs', hb, hbs, rfl⟩
      exact ⟨b, hb, bs', hbs, rfl⟩

/-- What every step keeps, a pass that succeeds keeps. -/
theorem foldlM_invariant {f : σ → α → Except ε σ} {P : σ → Prop}
    (hstep : ∀ s a s', P s → f s a = .ok s' → P s') {l : List α} {s s' : σ} (hs : P s)
    (h : l.foldlM f s = .ok s') : P s' := by
  induction l generalizing s with
  | nil => exact Except.ok.inj h ▸ hs
  | cons a rest ih =>
    rw [List.foldlM_cons, except_bind_eq_ok] at h
    obtain ⟨s₁, hs₁, hrest⟩ := h
    exact ih (hstep s a s₁ hs hs₁) hrest

/-- A pass that succeeds is simulated by the pass that each of its steps is simulated by. -/
theorem foldlM_simulation {f : σ → α → Except ε σ} {g : τ → α → Option τ} {φ : σ → τ}
    (hstep : ∀ s a s', f s a = .ok s' → g (φ s) a = some (φ s')) {l : List α} {s s' : σ}
    (h : l.foldlM f s = .ok s') : l.foldlM g (φ s) = some (φ s') := by
  induction l generalizing s with
  | nil => exact congrArg (fun s => some (φ s)) (Except.ok.inj h)
  | cons a rest ih =>
    rw [List.foldlM_cons, except_bind_eq_ok] at h
    obtain ⟨s₁, hs₁, hrest⟩ := h
    rw [List.foldlM_cons, hstep s a s₁ hs₁]
    exact ih hrest

end Passes

section Distinct

variable {ε α κ : Type} [DecidableEq κ]

/-- A pass that rejects a repeated key and checks every element, before and after
its key is recorded. -/
def distinctLoop (key : α → κ) (duplicate : α → ε) (before after : α → Except ε Unit) :
    List α → Finset κ → Except ε (Finset κ)
  | [], seen => .ok seen
  | a :: rest, seen => do
    before a
    if key a ∈ seen then .error (duplicate a)
    else
      after a
      distinctLoop key duplicate before after rest (insert (key a) seen)

theorem distinctLoop_cons_eq_ok {key : α → κ} {duplicate : α → ε} {before after : α → Except ε Unit}
    {a : α} {rest : List α} {seen seen' : Finset κ} :
    distinctLoop key duplicate before after (a :: rest) seen = .ok seen' ↔
      before a = .ok () ∧ key a ∉ seen ∧ after a = .ok () ∧
        distinctLoop key duplicate before after rest (insert (key a) seen) = .ok seen' := by
  rw [distinctLoop]
  cases before a with
  | error e => simp [bind, Except.bind]
  | ok _ =>
    by_cases hseen : key a ∈ seen
    · simp [bind, Except.bind, hseen]
    · cases after a with
      | error e => simp [bind, Except.bind, hseen]
      | ok _ => simp [bind, Except.bind, hseen]

theorem distinctLoop_eq_ok {key : α → κ} {duplicate : α → ε} {before after : α → Except ε Unit}
    {l : List α} {seen seen' : Finset κ} :
    distinctLoop key duplicate before after l seen = .ok seen' ↔
      (∀ a ∈ l, before a = .ok () ∧ after a = .ok ()) ∧ (l.map key).Nodup ∧
        (∀ a ∈ l, key a ∉ seen) ∧ seen' = seen ∪ (l.map key).toFinset := by
  induction l generalizing seen with
  | nil => simp [distinctLoop, eq_comm]
  | cons a rest ih =>
    have hunion : insert (key a) seen ∪ (rest.map key).toFinset =
        seen ∪ insert (key a) (rest.map key).toFinset := by
      rw [Finset.insert_union, Finset.union_insert]
    rw [distinctLoop_cons_eq_ok, ih, List.forall_mem_cons, List.forall_mem_cons, List.map_cons,
      List.nodup_cons, List.toFinset_cons, hunion]
    simp only [Finset.mem_insert, not_or, List.mem_map, not_exists, not_and]
    constructor
    · rintro ⟨hbefore, hseen, hafter, hchecks, hnd, hfresh, hs⟩
      exact ⟨⟨⟨hbefore, hafter⟩, hchecks⟩, ⟨fun b hb => (hfresh b hb).1, hnd⟩,
        ⟨hseen, fun b hb => (hfresh b hb).2⟩, hs⟩
    · rintro ⟨⟨⟨hbefore, hafter⟩, hchecks⟩, ⟨hnew, hnd⟩, ⟨hseen, hfresh⟩, hs⟩
      exact ⟨hbefore, hseen, hafter, hchecks, hnd, fun b hb => ⟨hnew b hb, hfresh b hb⟩, hs⟩

theorem distinctLoop_empty_eq_ok {key : α → κ} {duplicate : α → ε}
    {before after : α → Except ε Unit} {l : List α} {seen : Finset κ} :
    distinctLoop key duplicate before after l ∅ = .ok seen ↔
      (∀ a ∈ l, before a = .ok () ∧ after a = .ok ()) ∧ (l.map key).Nodup ∧
        seen = (l.map key).toFinset := by
  simp [distinctLoop_eq_ok]

/-- Lookup in the map collected from a list, where a later element replaces an
earlier one with the same key. -/
def lastWith (key : α → κ) (l : List α) (k : κ) : Option α :=
  l.reverse.find? fun a => key a == k

theorem mem_of_lastWith {key : α → κ} {l : List α} {k : κ} {a : α} (h : lastWith key l k = some a) :
    a ∈ l :=
  List.mem_reverse.mp (List.mem_of_find?_eq_some h)

theorem lastWith_eq_some {key : α → κ} {l : List α} (hnd : (l.map key).Nodup) {k : κ} {a : α} :
    lastWith key l k = some a ↔ a ∈ l ∧ key a = k := by
  constructor
  · intro h
    exact ⟨mem_of_lastWith h, by simpa using List.find?_some h⟩
  · rintro ⟨hmem, rfl⟩
    cases hfind : lastWith key l (key a) with
    | none =>
      rw [lastWith, List.find?_eq_none] at hfind
      exact absurd (beq_self_eq_true _) (hfind a (List.mem_reverse.mpr hmem))
    | some b =>
      have hkey : key b = key a := by simpa using List.find?_some hfind
      rw [List.inj_on_of_nodup_map hnd (mem_of_lastWith hfind) hmem hkey]

theorem find?_of_mem {key : α → κ} {l : List α} (hnd : (l.map key).Nodup) {a : α} (ha : a ∈ l) :
    (l.find? fun b => key b == key a) = some a := by
  have hnd' : (l.reverse.map key).Nodup := by rwa [List.map_reverse, List.nodup_reverse]
  have hlast := (lastWith_eq_some hnd').mpr ⟨List.mem_reverse.mpr ha, rfl⟩
  rwa [lastWith, List.reverse_reverse] at hlast

end Distinct

section Faults

variable {ε α β : Type} {P : ε → Prop}

def FaultsIn (P : ε → Prop) (x : Except ε α) : Prop := ∀ e, x = .error e → P e

theorem faultsIn_ok (a : α) : FaultsIn P (.ok a) := fun _ h => nomatch h

theorem faultsIn_error {e : ε} : FaultsIn P (.error e : Except ε α) ↔ P e := by
  simp [FaultsIn]

theorem faultsIn_bind {x : Except ε α} {f : α → Except ε β} :
    FaultsIn P (x >>= f) ↔ FaultsIn P x ∧ ∀ a, x = .ok a → FaultsIn P (f a) := by
  cases x <;> simp [FaultsIn, bind, Except.bind]

theorem faultsIn_ite {c : Prop} [Decidable c] {x y : Except ε α} :
    FaultsIn P (if c then x else y) ↔ (c → FaultsIn P x) ∧ (¬c → FaultsIn P y) := by
  split_ifs with h <;> simp [h]

theorem faultsIn_foldlM {f : β → α → Except ε β} {l : List α}
    (h : ∀ b, ∀ a ∈ l, FaultsIn P (f b a)) (b : β) : FaultsIn P (l.foldlM f b) := by
  induction l generalizing b with
  | nil => exact faultsIn_ok b
  | cons a rest ih =>
    rw [List.foldlM_cons, faultsIn_bind]
    exact ⟨h b a List.mem_cons_self,
      fun b' _ => ih (fun b a ha => h b a (List.mem_cons_of_mem _ ha)) b'⟩

theorem faultsIn_distinctLoop {κ : Type} [DecidableEq κ] {key : α → κ} {duplicate : α → ε}
    {before after : α → Except ε Unit} {l : List α} (hduplicate : ∀ a ∈ l, P (duplicate a))
    (hbefore : ∀ a ∈ l, FaultsIn P (before a)) (hafter : ∀ a ∈ l, FaultsIn P (after a))
    (seen : Finset κ) : FaultsIn P (distinctLoop key duplicate before after l seen) := by
  induction l generalizing seen with
  | nil => exact faultsIn_ok seen
  | cons a rest ih =>
    rw [List.forall_mem_cons] at hduplicate hbefore hafter
    simp only [distinctLoop, faultsIn_bind, faultsIn_ite, faultsIn_error]
    exact ⟨hbefore.1, fun _ _ => ⟨fun _ => hduplicate.1, fun _ => ⟨hafter.1, fun _ _ =>
      ih hduplicate.2 hbefore.2 hafter.2 _⟩⟩⟩

end Faults

end LoopRules
