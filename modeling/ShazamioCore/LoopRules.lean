import Mathlib

/-!
# Rules for loops that may stop

A loop is a fold in `Option`, `none` where a step stops it. An invariant counted by the
passes done carries over a whole loop, and a loop is known by any part of its state that
evolves on its own. A loop of additions through an index leaves in each cell what its own
indices brought.
-/
namespace LoopRules

variable {σ τ β : Type}

/-- A counted loop keeps its invariant, and a part of its state that each step changes by
what it is alone ends as the loop over that part does. -/
theorem foldlM_range_simulates (J : Nat → σ → Prop) (obs : σ → τ) (step : σ → Nat → Option σ)
    (obsStep : τ → Nat → Option τ) (s : σ) (n : Nat) (hstart : J 0 s)
    (hinv : ∀ k < n, ∀ s s', J k s → step s k = some s' → J (k + 1) s')
    (hobs : ∀ k < n, ∀ s, J k s → (step s k).map obs = obsStep (obs s) k) :
    (∀ s', (List.range n).foldlM step s = some s' → J n s') ∧
      ((List.range n).foldlM step s).map obs = (List.range n).foldlM obsStep (obs s) := by
  induction n with
  | zero =>
    refine ⟨fun s' h => ?_, rfl⟩
    obtain rfl : s = s' := by simpa using h
    exact hstart
  | succ n ih =>
    obtain ⟨hJ, hfold⟩ := ih (fun k hk => hinv k (by omega)) (fun k hk => hobs k (by omega))
    simp only [List.range_succ, List.foldlM_append, List.foldlM_cons, List.foldlM_nil, ← hfold,
      Option.bind_eq_bind, Option.pure_def]
    cases h : (List.range n).foldlM step s with
    | none => simp
    | some s₁ =>
      refine ⟨fun s' h' => hinv n (by omega) s₁ s' (hJ s₁ h) (by simpa using h'), ?_⟩
      simpa using hobs n (by omega) s₁ (hJ s₁ h)

/-- A loop that skips what fails a test is the loop over what passes it. -/
theorem foldlM_test (test : β → Option Bool) (p : β → Bool) (step : σ → β → Option σ)
    (l : List β) (s : σ) (h : ∀ b ∈ l, test b = some (p b)) :
    l.foldlM (fun s b => do if ← test b then step s b else return s) s =
      (l.filter p).foldlM step s := by
  induction l generalizing s with
  | nil => rfl
  | cons b l ih =>
    have hb := h b List.mem_cons_self
    have htail := fun s => ih s fun i hi => h i (List.mem_cons_of_mem b hi)
    rw [List.foldlM_cons, hb]
    cases hp : p b with
    | true =>
      rw [List.filter_cons_of_pos hp, List.foldlM_cons]
      simp only [← htail]
      rfl
    | false =>
      rw [List.filter_cons_of_neg (by simp [hp]), ← htail]
      rfl

/-- A change of state that every step carries along is carried along by the loop. -/
theorem foldlM_map_state (f : σ → τ) (step : σ → β → Option σ) (step' : τ → β → Option τ)
    (h : ∀ s b, step' (f s) b = (step s b).map f) (l : List β) (s : σ) :
    l.foldlM step' (f s) = (l.foldlM step s).map f := by
  induction l generalizing s with
  | nil => rfl
  | cons b l ih =>
    rw [List.foldlM_cons, List.foldlM_cons, h]
    cases step s b with
    | none => rfl
    | some s' => exact ih s'

/-- A loop stops when one of its steps does, where the state has no say in that. -/
theorem foldlM_eq_none_iff (step : σ → β → Option σ) (stops : β → Prop)
    (h : ∀ s b, step s b = none ↔ stops b) (l : List β) (s : σ) :
    l.foldlM step s = none ↔ ∃ b ∈ l, stops b := by
  induction l generalizing s with
  | nil => simp
  | cons b l ih =>
    rw [List.foldlM_cons, List.exists_mem_cons_iff]
    cases hb : step s b with
    | none =>
      have hstops := (h s b).mp hb
      simp [hstops]
    | some s' =>
      have hruns : ¬stops b := by
        rw [← h s b, hb]
        simp
      simp [hruns, ih]

section Scatter

variable {M : Type} (slot : Nat → Nat)

/-- A write to a cell, refused where there is no such cell. -/
def modifyAt (cells : List M) (index : Nat) (f : M → M) : Option (List M) :=
  if index < cells.length then some (cells.modify index f) else none

/-- No write is refused where every index has its cell. -/
theorem foldlM_modifyAt (f : β → M → M) (xs : List (β × Nat)) (cells : List M)
    (h : ∀ x ∈ xs, slot x.2 < cells.length) :
    xs.foldlM (fun cells (x, i) => modifyAt cells (slot i) (f x)) cells =
      some (xs.foldl (fun cells (x, i) => cells.modify (slot i) (f x)) cells) := by
  induction xs generalizing cells with
  | nil => rfl
  | cons entry xs ih =>
    obtain ⟨x, i⟩ := entry
    have hcell : modifyAt cells (slot i) (f x) = _ := if_pos (h (x, i) List.mem_cons_self)
    simp only [List.foldlM_cons, List.foldl_cons, hcell, Option.bind_eq_bind, Option.bind_some]
    apply ih
    intro y hy
    rw [List.length_modify]
    exact h y (List.mem_cons_of_mem _ hy)

theorem length_foldl_modify (f : β → M → M) (xs : List (β × Nat)) (cells : List M) :
    (xs.foldl (fun cells (x, i) => cells.modify (slot i) (f x)) cells).length =
      cells.length := by
  induction xs generalizing cells with
  | nil => rfl
  | cons x xs ih => rw [List.foldl_cons, ih, List.length_modify]

variable [AddCommMonoid M] (share : β → M)

/-- A cell ends with the sum of what is added at the indices that fall to it. -/
theorem getElem?_foldl_modify (xs : List (β × Nat)) (cells : List M)
    (cell : Nat) :
    (xs.foldl (fun cells (x, i) => cells.modify (slot i) (· + share x)) cells)[cell]? =
      cells[cell]?.map (· + (xs.map fun x => if slot x.2 = cell then share x.1 else 0).sum) := by
  induction xs generalizing cells with
  | nil => simp
  | cons x xs ih =>
    rw [List.foldl_cons, ih, List.getElem?_modify, List.map_cons, List.sum_cons]
    by_cases hcell : slot x.2 = cell
    · cases cells[cell]? with
      | none => rfl
      | some value => simp [hcell, add_assoc]
    · simp [hcell]

/-- Of a list in windows of one width, those elements count whose place falls to the window. -/
theorem sum_zipIdx_window (xs : List β) (windows width : Nat)
    (hlength : windows * width = xs.length) (window : Fin windows) :
    (xs.zipIdx.map fun x => if x.2 / width = window then share x.1 else 0).sum =
      ∑ j : Fin width, share (xs.get (Fin.cast hlength (finProdFinEquiv (window, j)))) := by
  have hlist : (xs.zipIdx.map fun x => if x.2 / width = window then share x.1 else 0) =
      List.ofFn fun i : Fin xs.length =>
        if i / width = (window : Nat) then share (xs.get i) else 0 := by
    apply List.ext_getElem
    · simp
    · intro i hi hi'
      simp
  have hplace (v : Fin windows) (j : Fin width) :
      (finProdFinEquiv (v, j) : Nat) / width = v := by
    rw [finProdFinEquiv_apply_val, Nat.add_mul_div_left _ _ j.pos, Nat.div_eq_of_lt j.isLt,
      Nat.zero_add]
  rw [hlist, List.sum_ofFn, ← Equiv.sum_comp (finProdFinEquiv.trans (finCongr hlength)),
    Fintype.sum_prod_type, Finset.sum_eq_single window]
  · apply Finset.sum_congr rfl
    intro j _
    exact if_pos (hplace window j)
  · intro v _ hv
    apply Finset.sum_eq_zero
    intro j _
    apply if_neg
    intro h
    exact hv (Fin.ext ((hplace v j).symm.trans h))
  · intro h
    exact absurd (Finset.mem_univ window) h

end Scatter

section Rows

/-- A list cut into as many rows of one width as it has whole ones. -/
def rows (width : Nat) (xs : List β) : List (List β) :=
  (List.range (xs.length / width)).map fun i => (xs.drop (i * width)).take width

theorem length_of_mem_rows {width : Nat} {xs row : List β} (h : row ∈ rows width xs) :
    row.length = width := by
  obtain ⟨i, hi, rfl⟩ := List.mem_map.mp h
  rw [List.mem_range] at hi
  have hwhole : (i + 1) * width ≤ xs.length :=
    (Nat.mul_le_mul_right width hi).trans (Nat.div_mul_le_self _ _)
  rw [Nat.succ_mul] at hwhole
  rw [List.length_take, List.length_drop]
  omega

theorem flatten_take_rows (width : Nat) (xs : List β) (n : Nat) :
    ((List.range n).map fun i => (xs.drop (i * width)).take width).flatten =
      xs.take (n * width) := by
  induction n with
  | zero => simp
  | succ n ih =>
    rw [List.range_succ, List.map_append, List.flatten_append, ih, Nat.succ_mul, List.take_add]
    simp

/-- Where nothing is left over, the rows laid end to end are the list. -/
theorem flatten_rows {width : Nat} {xs : List β} (h : width ∣ xs.length) :
    (rows width xs).flatten = xs := by
  rw [rows, flatten_take_rows, Nat.div_mul_cancel h, List.take_length]

/-- Rows laid end to end are cut apart again. -/
theorem rows_flatten {width : Nat} (hwidth : 0 < width) (parts : List (List β))
    (h : ∀ part ∈ parts, part.length = width) : rows width parts.flatten = parts := by
  induction parts with
  | nil => simp [rows]
  | cons part parts ih =>
    obtain ⟨hpart, hparts⟩ := List.forall_mem_cons.mp h
    have hcount : (part :: parts).flatten.length / width = parts.flatten.length / width + 1 := by
      rw [List.flatten_cons, List.length_append, hpart, Nat.add_div_left _ hwidth]
    have hlater (i : Nat) :
        ((part :: parts).flatten.drop ((i + 1) * width)).take width =
          (parts.flatten.drop (i * width)).take width := by
      rw [List.flatten_cons, Nat.succ_mul, Nat.add_comm, ← hpart, List.drop_length_add_append]
    rw [rows, hcount, List.range_succ_eq_map, List.map_cons, List.map_map]
    congr 1
    · rw [Nat.zero_mul, List.drop_zero, List.flatten_cons, ← hpart, List.take_left]
    · refine Eq.trans (List.map_congr_left fun i _ => ?_) (ih hparts)
      exact hlater i

variable {M : Type} (f : β → M → M) (width : Nat)

/-- Writes that all fall to the first cell leave the others as they are. -/
theorem foldl_modify_first (xs : List (β × Nat)) (h : ∀ x ∈ xs, x.2 < width) (cell : M)
    (cells : List M) :
    xs.foldl (fun cells (x, i) => cells.modify (i / width) (f x)) (cell :: cells) =
      xs.foldl (fun cell x => f x.1 cell) cell :: cells := by
  induction xs generalizing cell with
  | nil => rfl
  | cons x xs ih =>
    obtain ⟨hx, hxs⟩ := List.forall_mem_cons.mp h
    obtain ⟨x, i⟩ := x
    simp only [List.foldl_cons, Nat.div_eq_of_lt hx, List.modify_zero_cons, ih hxs]

/-- Writes one window on fall to the cells after the first. -/
theorem foldl_modify_later (hwidth : 0 < width) (xs : List (β × Nat)) (cell : M)
    (cells : List M) :
    xs.foldl (fun cells (x, i) => cells.modify ((width + i) / width) (f x)) (cell :: cells) =
      cell :: xs.foldl (fun cells (x, i) => cells.modify (i / width) (f x)) cells := by
  induction xs generalizing cells with
  | nil => rfl
  | cons x xs ih =>
    obtain ⟨x, i⟩ := x
    simp only [List.foldl_cons, Nat.add_div_left _ hwidth, List.modify_succ_cons] at ih ⊢
    exact ih _

/-- A loop over rows laid end to end folds each row into its own cell. -/
theorem foldl_modify_rows (hwidth : 0 < width) (start : M) (rows : List (List β))
    (h : ∀ row ∈ rows, row.length = width) :
    rows.flatten.zipIdx.foldl (fun cells (x, i) => cells.modify (i / width) (f x))
        (List.replicate rows.length start) =
      rows.map fun row => row.foldl (fun cell x => f x cell) start := by
  induction rows with
  | nil => rfl
  | cons row rows ih =>
    obtain ⟨hrow, hrows⟩ := List.forall_mem_cons.mp h
    have hfirst : ∀ x ∈ row.zipIdx, x.2 < width := by
      intro x hx
      obtain ⟨-, hlt, -⟩ := List.mem_zipIdx hx
      omega
    have hown : row.zipIdx.foldl (fun cell x => f x.1 cell) start =
        row.foldl (fun cell x => f x cell) start := by
      rw [← List.foldl_map (f := Prod.fst) (g := fun cell x => f x cell), List.zipIdx_map_fst]
    rw [List.flatten_cons, List.zipIdx_append, Nat.zero_add, hrow, List.foldl_append,
      List.length_cons, List.replicate_succ, foldl_modify_first f width _ hfirst, hown,
      List.zipIdx_eq_map_add, List.foldl_map, List.map_cons, ← ih hrows]
    exact foldl_modify_later f width hwidth _ _ _

end Rows

end LoopRules
