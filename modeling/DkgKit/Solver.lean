import DkgKit.Core
import DkgKit.GaussJordan
import DkgKit.LoopRules
import DkgKit.Secp256k1

/-! `solve_scalar_system`: Gauss-Jordan elimination over vectors of vectors, index
by index. On a square input it runs the elimination steps of the library. -/

open Matrix GaussJordan LoopRules

namespace DkgKit

section Indexing

variable {α : Type}

def index (l : List α) (i : ℕ) : Result α :=
  match l[i]? with
  | some a => .ok a
  | none => .error (.panic .indexOutOfBounds)

def assign (l : List α) (i : ℕ) (a : α) : Result (List α) :=
  if i < l.length then .ok (l.set i a) else .error (.panic .indexOutOfBounds)

def swapItems (l : List α) (a b : ℕ) : Result (List α) := do
  let x ← index l a
  let y ← index l b
  .ok ((l.set a y).set b x)

end Indexing

abbrev Rows := List (List Scalar)

def entry (matrix : Rows) (row col : ℕ) : Result Scalar := do
  let r ← index matrix row
  index r col

def assignEntry (matrix : Rows) (row col : ℕ) (value : Scalar) : Result Rows := do
  let r ← index matrix row
  let r' ← assign r col value
  assign matrix row r'

def findPivot (matrix : Rows) (col : ℕ) : List ℕ → Result (Option ℕ)
  | [] => .ok none
  | row :: rest => do
    let value ← entry matrix row col
    if value ≠ 0 then .ok (some row) else findPivot matrix col rest

def singularSystem : DkgKitError := .protocol "singular Birkhoff interpolation system"

def eliminateEntry (factor : Scalar) (col row : ℕ) (matrix : Rows) (innerCol : ℕ) : Result Rows := do
  let value ← entry matrix row innerCol
  let pivotValue ← entry matrix col innerCol
  assignEntry matrix row innerCol (value - factor * pivotValue)

def eliminateRow (n col : ℕ) (state : Rows × List Scalar) (row : ℕ) :
    Result (Rows × List Scalar) := do
  if row = col then .ok state
  else
    let factor ← entry state.1 row col
    if factor = 0 then .ok state
    else
      let matrix ← forRange col (n - col) (eliminateEntry factor col row) state.1
      let value ← index state.2 row
      let pivotValue ← index state.2 col
      let target ← assign state.2 row (value - factor * pivotValue)
      .ok (matrix, target)

def movePivot (pivot col : ℕ) (state : Rows × List Scalar) : Result (Rows × List Scalar) := do
  if pivot = col then .ok state
  else
    let matrix ← swapItems state.1 pivot col
    let target ← swapItems state.2 pivot col
    .ok (matrix, target)

def invertPivot (pivotValue : Scalar) : Result Scalar :=
  if pivotValue = 0 then fail (.protocol "singular Birkhoff interpolation pivot")
  else .ok pivotValue⁻¹

def normalizePivot (col : ℕ) (state : Rows × List Scalar) : Result (Rows × List Scalar) := do
  let pivotValue ← entry state.1 col col
  let pivotInverse ← invertPivot pivotValue
  let row ← index state.1 col
  let matrix ← assign state.1 col (row.take col ++ (row.drop col).map (· * pivotInverse))
  let value ← index state.2 col
  let target ← assign state.2 col (value * pivotInverse)
  .ok (matrix, target)

def eliminateColumn (n : ℕ) (state : Rows × List Scalar) (col : ℕ) :
    Result (Rows × List Scalar) := do
  let found ← findPivot state.1 col (List.range' col (n - col))
  let pivot ← okOr singularSystem found
  let state ← movePivot pivot col state
  let state ← normalizePivot col state
  forRange 0 n (eliminateRow n col) state

def solveScalarSystem (matrix : Rows) (target : List Scalar) : Result (List Scalar) := do
  let n := matrix.length
  if target.length ≠ n ∨ matrix.any (fun row => row.length ≠ n) then
    fail (.protocol "Birkhoff linear system must be square")
  else
    let state ← forRange 0 n (eliminateColumn n) (matrix, target)
    .ok state.2

section Vectors

variable {n : ℕ} {α : Type}

@[simp] theorem index_ofFn (f : Fin n → α) (i : Fin n) : index (List.ofFn f) i = .ok (f i) := by
  simp [index]

@[simp] theorem assign_ofFn [DecidableEq (Fin n)] (f : Fin n → α) (i : Fin n) (a : α) :
    assign (List.ofFn f) i a = .ok (List.ofFn (Function.update f i a)) := by
  rw [assign, if_pos (by simp)]
  congr 1
  apply List.ext_getElem
  · simp
  · intro j hj hj'
    rw [List.getElem_set, List.getElem_ofFn, List.getElem_ofFn, Function.update_apply]
    simp only [Fin.ext_iff, eq_comm]

theorem swapItems_ofFn (f : Fin n → α) (a b : Fin n) :
    swapItems (List.ofFn f) a b = .ok (List.ofFn fun i => f (Equiv.swap a b i)) := by
  simp only [swapItems, index_ofFn, ok_bind]
  congr 1
  apply List.ext_getElem
  · simp
  · intro j hj hj'
    have hjn : j < n := by simpa using hj'
    rw [List.getElem_set, List.getElem_set, List.getElem_ofFn, List.getElem_ofFn]
    by_cases hb : b.val = j
    · subst hb
      simp
    · by_cases ha : a.val = j
      · subst ha
        simp [hb]
      · rw [if_neg hb, if_neg ha, Equiv.swap_apply_of_ne_of_ne]
        · exact fun h => ha (Fin.ext_iff.mp h).symm
        · exact fun h => hb (Fin.ext_iff.mp h).symm

end Vectors

section Simulation

variable {n : ℕ}

def toRows (M : Matrix (Fin n) (Fin n) Scalar) : Rows := List.ofFn fun i => List.ofFn (M i)

def toState (s : System n Scalar) : Rows × List Scalar := (toRows s.matrix, List.ofFn s.target)

@[simp] theorem entry_toRows (M : Matrix (Fin n) (Fin n) Scalar) (i j : Fin n) :
    entry (toRows M) i j = .ok (M i j) := by
  simp [entry, toRows]

theorem index_toRows (M : Matrix (Fin n) (Fin n) Scalar) (i : Fin n) :
    index (toRows M) i = .ok (List.ofFn (M i)) := by
  simp [toRows]

theorem assign_toRows (M : Matrix (Fin n) (Fin n) Scalar) (i : Fin n) (row : Fin n → Scalar) :
    assign (toRows M) i (List.ofFn row) =
      .ok (toRows fun a b => if a = i then row b else M a b) := by
  simp only [toRows, assign_ofFn]
  congr 2
  funext a
  by_cases ha : a = i
  · subst ha
    simp
  · simp [ha]

theorem assignEntry_toRows (M : Matrix (Fin n) (Fin n) Scalar) (i j : Fin n) (v : Scalar) :
    assignEntry (toRows M) i j v = .ok (toRows fun a b => if a = i ∧ b = j then v else M a b) := by
  rw [assignEntry, index_toRows, ok_bind, assign_ofFn, ok_bind, assign_toRows]
  congr 2
  funext a b
  by_cases ha : a = i
  · subst ha
    by_cases hb : b = j <;> simp [hb]
  · simp [ha]

theorem findPivot_toRows (M : Matrix (Fin n) (Fin n) Scalar) (c : Fin n) {rows : List ℕ}
    (hrows : ∀ r ∈ rows, r < n) :
    (∃ r : Fin n, findPivot (toRows M) c rows = .ok (some r) ∧ r.val ∈ rows ∧ M r c ≠ 0) ∨
      (findPivot (toRows M) c rows = .ok none ∧ ∀ r : Fin n, r.val ∈ rows → M r c = 0) := by
  induction rows with
  | nil => exact .inr ⟨rfl, by simp⟩
  | cons row rest ih =>
    rw [List.forall_mem_cons] at hrows
    have hentry : entry (toRows M) row c = .ok (M ⟨row, hrows.1⟩ c) :=
      entry_toRows M ⟨row, hrows.1⟩ c
    simp only [findPivot, hentry, ok_bind]
    split_ifs with hval
    · exact .inl ⟨⟨row, hrows.1⟩, rfl, List.mem_cons_self, hval⟩
    · rcases ih hrows.2 with ⟨r, hfind, hmem, hne⟩ | ⟨hfind, hall⟩
      · exact .inl ⟨r, hfind, List.mem_cons_of_mem _ hmem, hne⟩
      · refine .inr ⟨hfind, fun r hr => ?_⟩
        rcases List.mem_cons.mp hr with hr | hr
        · obtain rfl : r = ⟨row, hrows.1⟩ := Fin.ext hr
          exact not_not.mp hval
        · exact hall r hr

theorem movePivot_toState (s : System n Scalar) (r c : Fin n) :
    movePivot r c (toState s) = .ok (toState (s.swapRows r c)) := by
  rw [movePivot]
  split_ifs with h
  · obtain rfl : r = c := Fin.ext h
    simp [System.swapRows, toState, toRows]
  · simp only [toState, toRows, swapItems_ofFn, ok_bind, System.swapRows]

theorem scaledTail_ofFn {f : Fin n → Scalar} {c : Fin n} (hf : ∀ j < c, f j = 0) (u : Scalar) :
    (List.ofFn f).take c ++ ((List.ofFn f).drop c).map (· * u) = List.ofFn fun j => f j * u := by
  apply List.ext_getElem
  · simp
  · intro j hj hj'
    have hjn : j < n := by simpa using hj'
    rw [List.getElem_append]
    split_ifs with hjc
    · have hlt : j < c.val := by
        simp only [List.length_take, List.length_ofFn] at hjc
        omega
      simp [hf ⟨j, hjn⟩ hlt]
    · have hge : c.val ≤ j := by
        simp only [List.length_take, List.length_ofFn] at hjc
        omega
      simp [Nat.add_sub_cancel' hge]

theorem normalizePivot_toState {s : System n Scalar} {c : Fin n} (hpivot : s.matrix c c ≠ 0)
    (hrow : ∀ j < c, s.matrix c j = 0) :
    normalizePivot c (toState s) = .ok (toState (s.scaleRow c (s.matrix c c)⁻¹)) := by
  simp only [normalizePivot, toState, entry_toRows, invertPivot, if_neg hpivot, ok_bind,
    index_toRows, scaledTail_ofFn hrow, assign_toRows, index_ofFn, assign_ofFn]
  congr 3
  · funext i j
    by_cases hi : i = c
    · subst hi
      simp [System.scaleRow]
    · simp [System.scaleRow, hi]
  · funext i
    by_cases hi : i = c
    · subst hi
      simp [System.scaleRow]
    · simp [System.scaleRow, hi]

/-- Row `r` with its entries in the columns from `c` up to `k` reduced. -/
def partialRow (M : Matrix (Fin n) (Fin n) Scalar) (c r : Fin n) (k : ℕ) :
    Matrix (Fin n) (Fin n) Scalar :=
  fun i j => if i = r ∧ c ≤ j ∧ j.val < k then M r j - M r c * M c j else M i j

theorem eliminateEntries_toRows (M : Matrix (Fin n) (Fin n) Scalar) {c r : Fin n} (hrc : r ≠ c) :
    forRange c (n - c) (eliminateEntry (M r c) c r) (toRows M) =
      .ok (toRows (partialRow M c r n)) := by
  have hstart : toRows M = toRows (partialRow M c r c) := by
    congr 1
    funext i j
    rw [partialRow, if_neg]
    rintro ⟨-, hcj, hjc⟩
    omega
  have hend : c.val + (n - c) = n := by omega
  rw [hstart]
  refine (forRange_eq_ok (fun k => toRows (partialRow M c r k)) fun k hk hk' => ?_).trans
    (by rw [hend])
  obtain ⟨j, rfl⟩ : ∃ j : Fin n, j.val = k := ⟨⟨k, by omega⟩, rfl⟩
  have hr : partialRow M c r j r j = M r j := by simp [partialRow]
  have hc : partialRow M c r j c j = M c j := by simp [partialRow, hrc.symm]
  simp only [eliminateEntry, entry_toRows, ok_bind, hr, hc, assignEntry_toRows]
  congr 2
  funext a b
  by_cases ha : a = r
  · subst ha
    by_cases hb : b = j
    · subst hb
      simp [partialRow, Fin.le_iff_val_le_val, hk]
    · have hlt : b.val < j.val + 1 ↔ b.val < j.val := by omega
      simp [partialRow, hb, hlt]
  · simp [partialRow, ha]

/-- The system with the rows before `k` cleared. -/
def clearedBefore (s : System n Scalar) (c : Fin n) (k : ℕ) : System n Scalar :=
  ⟨fun i j => if i.val < k then (s.clearColumn c).matrix i j else s.matrix i j,
    fun i => if i.val < k then (s.clearColumn c).target i else s.target i⟩

section ClearedBefore

variable {s : System n Scalar} {c r i : Fin n}

theorem clearedBefore_matrix_self : (clearedBefore s c r).matrix r = s.matrix r := by
  funext j
  simp [clearedBefore]

theorem clearedBefore_target_self : (clearedBefore s c r).target r = s.target r := by
  simp [clearedBefore]

theorem clearedBefore_matrix_pivot (k : ℕ) : (clearedBefore s c k).matrix c = s.matrix c := by
  funext j
  simp [clearedBefore, System.clearColumn]

theorem clearedBefore_target_pivot (k : ℕ) : (clearedBefore s c k).target c = s.target c := by
  simp [clearedBefore, System.clearColumn]

theorem clearedBefore_matrix_succ : (clearedBefore s c (r + 1)).matrix i =
    if i = r then (s.clearColumn c).matrix r else (clearedBefore s c r).matrix i := by
  funext j
  by_cases hi : i = r
  · simp [clearedBefore, hi]
  · have hlt : i.val < r.val + 1 ↔ i.val < r.val := by
      have := Fin.val_ne_of_ne hi
      omega
    simp only [clearedBefore, hlt, if_neg hi]

theorem clearedBefore_target_succ : (clearedBefore s c (r + 1)).target i =
    if i = r then (s.clearColumn c).target r else (clearedBefore s c r).target i := by
  by_cases hi : i = r
  · simp [clearedBefore, hi]
  · have hlt : i.val < r.val + 1 ↔ i.val < r.val := by
      have := Fin.val_ne_of_ne hi
      omega
    simp only [clearedBefore, hlt, if_neg hi]

theorem clearedBefore_succ_of_eq (hrow : (s.clearColumn c).matrix r = s.matrix r)
    (htarget : (s.clearColumn c).target r = s.target r) :
    clearedBefore s c (r + 1) = clearedBefore s c r := by
  refine System.ext (funext fun i => ?_) (funext fun i => ?_)
  · rw [clearedBefore_matrix_succ]
    split_ifs with hi
    · rw [hi, clearedBefore_matrix_self, hrow]
    · rfl
  · rw [clearedBefore_target_succ]
    split_ifs with hi
    · rw [hi, clearedBefore_target_self, htarget]
    · rfl

theorem partialRow_clearedBefore (hrow : ∀ j < c, s.matrix c j = 0) (hrc : r ≠ c) :
    partialRow (clearedBefore s c r).matrix c r n = (clearedBefore s c (r + 1)).matrix := by
  funext i j
  rw [clearedBefore_matrix_succ, partialRow, clearedBefore_matrix_self, clearedBefore_matrix_pivot]
  by_cases hi : i = r
  · by_cases hj : c ≤ j
    · simp [hi, hj, System.clearColumn, hrc]
    · simp [hi, hj, System.clearColumn, hrc, clearedBefore_matrix_self, hrow j (not_le.mp hj)]
  · simp [hi]

end ClearedBefore

theorem eliminateRow_clearedBefore {s : System n Scalar} {c : Fin n}
    (hrow : ∀ j < c, s.matrix c j = 0) (r : Fin n) :
    eliminateRow n c (toState (clearedBefore s c r)) r =
      .ok (toState (clearedBefore s c (r + 1))) := by
  rw [eliminateRow]
  split_ifs with hrc
  · -- the pivot row stays
    obtain rfl : r = c := Fin.ext hrc
    rw [clearedBefore_succ_of_eq] <;> simp [System.clearColumn]
  · have hne : r ≠ c := fun h => hrc (congrArg Fin.val h)
    rw [toState, entry_toRows, ok_bind]
    split_ifs with hzero
    · -- nothing to subtract
      rw [clearedBefore_matrix_self] at hzero
      rw [clearedBefore_succ_of_eq, toState]
      · funext j
        simp [System.clearColumn, hzero]
      · simp [System.clearColumn, hzero]
    · rw [eliminateEntries_toRows _ hne, ok_bind, index_ofFn, ok_bind, index_ofFn, ok_bind,
        assign_ofFn, ok_bind, partialRow_clearedBefore hrow hne, toState]
      congr 3
      funext i
      rw [clearedBefore_target_succ, clearedBefore_matrix_self, clearedBefore_target_self,
        clearedBefore_target_pivot, Function.update_apply]
      simp [System.clearColumn, hne]

theorem eliminateRows_toState {s : System n Scalar} {c : Fin n} (hrow : ∀ j < c, s.matrix c j = 0) :
    forRange 0 n (eliminateRow n c) (toState s) = .ok (toState (s.clearColumn c)) := by
  have hstart : s = clearedBefore s c 0 := by simp [clearedBefore]
  have hend : clearedBefore s c (0 + n) = s.clearColumn c := by simp [clearedBefore]
  rw [hstart]
  refine (forRange_eq_ok (fun k => toState (clearedBefore s c k)) fun k _ hk => ?_).trans
    (by rw [hend, ← hstart])
  exact eliminateRow_clearedBefore hrow ⟨k, by omega⟩

theorem eliminateColumn_toState {s : System n Scalar} {c : Fin n} (hs : s.Reduced c) :
    (∃ r : Fin n, c ≤ r ∧ s.matrix r c ≠ 0 ∧
      eliminateColumn n (toState s) c = .ok (toState (s.eliminate r c))) ∨
    ((∀ r : Fin n, c ≤ r → s.matrix r c = 0) ∧
      eliminateColumn n (toState s) c = fail singularSystem) := by
  have hrows : ∀ r : ℕ, r ∈ List.range' c (n - c) ↔ c.val ≤ r ∧ r < n := fun r => by
    rw [List.mem_range'_1]
    omega
  rw [eliminateColumn]
  rcases findPivot_toRows s.matrix c (fun r hr => ((hrows r).mp hr).2) with
    ⟨r, hfind, hmem, hpivot⟩ | ⟨hfind, hzero⟩
  · have hcr : c ≤ r := ((hrows r).mp hmem).1
    have hcc : (s.swapRows r c).matrix c c = s.matrix r c := by simp [System.swapRows]
    have hzero : ∀ j < c, (s.swapRows r c).matrix c j = 0 := fun j hj => by
      have hrj : r ≠ j := by omega
      simp [System.swapRows, hs r j hj, hrj]
    have hscaled : ∀ j < c, ((s.swapRows r c).scaleRow c (s.matrix r c)⁻¹).matrix c j = 0 :=
      fun j hj => by simp [System.scaleRow, hzero j hj]
    refine .inl ⟨r, hcr, hpivot, ?_⟩
    rw [show (toState s).1 = toRows s.matrix from rfl, hfind, ok_bind, okOr, ok_bind,
      movePivot_toState, ok_bind, normalizePivot_toState (by rwa [hcc]) hzero, hcc, ok_bind,
      eliminateRows_toState hscaled]
    rfl
  · refine .inr ⟨fun r hcr => hzero r ((hrows r).mpr ⟨hcr, r.isLt⟩), ?_⟩
    rw [show (toState s).1 = toRows s.matrix from rfl, hfind, ok_bind, okOr]
    rfl

end Simulation

section Results

variable {n : ℕ} (M : Matrix (Fin n) (Fin n) Scalar) (b : Fin n → Scalar)

/-- Elimination finds the solution, or stops because there is no unique one. -/
theorem solveScalarSystem_cases :
    (∃ x, solveScalarSystem (toRows M) (List.ofFn b) = .ok (List.ofFn x) ∧ M.det ≠ 0 ∧ M *ᵥ x = b) ∨
      (solveScalarSystem (toRows M) (List.ofFn b) = fail singularSystem ∧ M.det = 0) := by
  let s₀ : System n Scalar := ⟨M, b⟩
  have hlen : (toRows M).length = n := by simp [toRows]
  have hsquare : ¬((List.ofFn b).length ≠ n ∨
      (toRows M).any (fun row => row.length ≠ n) = true) := by
    simp [toRows]
  -- the state before column `k` is equivalent to the input, with `k` columns reduced
  have hloop := @forRange_cases _ _ 0 n (eliminateColumn n)
    (fun k state => ∃ s : System n Scalar, state = toState s ∧ s₀.Equivalent s ∧ s.Reduced k)
    (.err singularSystem) (M.det = 0) (fun k state _ hk ⟨s, hstate, heq, hred⟩ => by
      subst hstate
      rcases @eliminateColumn_toState n s ⟨k, by omega⟩ hred with
        ⟨r, hcr, hpivot, hstep⟩ | ⟨hzero, hstep⟩
      · exact .inl ⟨_, hstep, _, rfl, heq.trans (System.eliminate_equivalent hpivot),
          System.eliminate_reduced hred hcr hpivot⟩
      · exact .inr ⟨hstep, System.det_eq_zero_of_no_pivot heq hred hzero⟩)
    (toState s₀) ⟨s₀, rfl, System.Equivalent.refl s₀, fun i j hj => absurd hj (Nat.not_lt_zero _)⟩
  simp only [solveScalarSystem, hlen, if_neg hsquare]
  rcases hloop with ⟨_, hok, s, rfl, heq, hred⟩ | ⟨herr, hdet⟩
  · have hfinal := System.det_ne_zero_of_reduced heq (by simpa using hred)
    refine .inl ⟨s.target, ?_, hfinal⟩
    rw [show ((toRows M, List.ofFn b) : Rows × List Scalar) = toState s₀ from rfl, hok]
    rfl
  · refine .inr ⟨?_, hdet⟩
    rw [show ((toRows M, List.ofFn b) : Rows × List Scalar) = toState s₀ from rfl, herr]
    rfl

def notSquare : DkgKitError := .protocol "Birkhoff linear system must be square"

theorem exists_toRows {matrix : Rows} (h : ∀ row ∈ matrix, row.length = matrix.length) :
    ∃ M : Matrix (Fin matrix.length) (Fin matrix.length) Scalar, matrix = toRows M := by
  refine ⟨fun i j => (matrix.get i).get (j.cast (h _ (List.get_mem matrix i)).symm), ?_⟩
  apply List.ext_getElem
  · simp [toRows]
  · intro i hi hi'
    apply List.ext_getElem
    · simp [toRows, h _ (List.getElem_mem hi)]
    · intro j hj hj'
      simp [toRows]

/-- The checks on the shape come first, and every input that passes them is a matrix. -/
theorem solveScalarSystem_shape (matrix : Rows) (target : List Scalar) :
    (solveScalarSystem matrix target = fail notSquare ∧
      (target.length ≠ matrix.length ∨ ∃ row ∈ matrix, row.length ≠ matrix.length)) ∨
    ∃ (M : Matrix (Fin matrix.length) (Fin matrix.length) Scalar) (b : Fin matrix.length → Scalar),
      matrix = toRows M ∧ target = List.ofFn b := by
  by_cases hshape : target.length ≠ matrix.length ∨ ∃ row ∈ matrix, row.length ≠ matrix.length
  · refine .inl ⟨?_, hshape⟩
    rw [solveScalarSystem, if_pos (by simpa using hshape)]
    rfl
  · push Not at hshape
    obtain ⟨htarget, hrows⟩ := hshape
    obtain ⟨M, hM⟩ := exists_toRows hrows
    refine .inr ⟨M, fun i => target.get (i.cast htarget.symm), hM, ?_⟩
    apply List.ext_getElem
    · simp [htarget]
    · intro i hi hi'
      simp

theorem solveScalarSystem_faultsIn (matrix : Rows) (target : List Scalar) :
    FaultsIn (fun fault => fault = .err notSquare ∨ fault = .err singularSystem)
      (solveScalarSystem matrix target) := by
  rcases solveScalarSystem_shape matrix target with ⟨hfail, -⟩ | ⟨M, b, hM, hb⟩
  · rw [hfail, faultsIn_fail]
    exact .inl rfl
  · have hcases := solveScalarSystem_cases M b
    rw [← hM, ← hb] at hcases
    rcases hcases with ⟨x, hok, -⟩ | ⟨hfail, -⟩
    · rw [hok]
      exact faultsIn_ok _
    · rw [hfail, faultsIn_fail]
      exact .inr rfl

/-- The solver is complete on square systems, and refuses everything else without an access
out of bounds and without reaching the guard on the inverted pivot. -/
theorem solveScalarSystem_correct :
    (∀ (n : ℕ) (M : Matrix (Fin n) (Fin n) Scalar) (b : Fin n → Scalar),
      ((∃ x, solveScalarSystem (toRows M) (List.ofFn b) = .ok x) ↔ IsUnit M) ∧
      (∀ x, solveScalarSystem (toRows M) (List.ofFn b) = .ok x →
        ∃ y, x = List.ofFn y ∧ M *ᵥ y = b) ∧
      (¬IsUnit M → solveScalarSystem (toRows M) (List.ofFn b) =
        fail (.protocol "singular Birkhoff interpolation system"))) ∧
    ∀ (matrix : Rows) (target : List Scalar),
      (target.length ≠ matrix.length ∨ (∃ row ∈ matrix, row.length ≠ matrix.length) →
        solveScalarSystem matrix target =
          fail (.protocol "Birkhoff linear system must be square")) ∧
      (∀ panic, solveScalarSystem matrix target ≠ .error (.panic panic)) ∧
      solveScalarSystem matrix target ≠ fail (.protocol "singular Birkhoff interpolation pivot") := by
  have hunit : ∀ {n : ℕ} (M : Matrix (Fin n) (Fin n) Scalar), IsUnit M ↔ M.det ≠ 0 := fun M => by
    rw [Matrix.isUnit_iff_isUnit_det, isUnit_iff_ne_zero]
  refine ⟨fun n M b => ?_, fun matrix target => ⟨fun hshape => ?_, fun panic hpanic => ?_, ?_⟩⟩
  · rw [hunit]
    rcases solveScalarSystem_cases M b with ⟨y, hok, hdet, hy⟩ | ⟨hfail, hdet⟩
    · rw [hok]
      exact ⟨iff_of_true ⟨_, rfl⟩ hdet, fun x hx => ⟨y, (Except.ok.inj hx).symm, hy⟩,
        fun h => absurd hdet h⟩
    · rw [hfail]
      exact ⟨iff_of_false (not_exists.mpr fun x => fail_ne_ok _ x) (not_not.mpr hdet),
        fun x hx => absurd hx (fail_ne_ok _ _), fun _ => rfl⟩
  · rcases solveScalarSystem_shape matrix target with ⟨hfail, -⟩ | ⟨M, b, hM, hb⟩
    · exact hfail
    · refine absurd hshape (not_or.mpr ⟨?_, ?_⟩)
      · simp [hb]
      · rw [hM]
        simp [toRows]
  · rcases solveScalarSystem_faultsIn matrix target _ hpanic with h | h
    · cases h
    · cases h
  · intro hpivot
    rcases solveScalarSystem_faultsIn matrix target _ hpivot with h | h
    · simp [notSquare] at h
    · simp [singularSystem] at h

end Results

end DkgKit
