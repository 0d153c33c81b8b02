import Mathlib.Algebra.BigOperators.Group.List.Basic
import Mathlib.Data.List.DropRight
import Mathlib.Data.List.Infix
import Mathlib.Tactic.Linarith

namespace Nesting

variable {α : Type*} (w : α → ℤ)

def depth (xs : List α) : ℤ := (xs.map w).sum

@[simp] theorem depth_nil : depth w [] = 0 := rfl

@[simp] theorem depth_cons (x : α) (xs : List α) : depth w (x :: xs) = w x + depth w xs := by
  rw [depth, List.map_cons, List.sum_cons, depth]

@[simp] theorem depth_append (xs ys : List α) : depth w (xs ++ ys) = depth w xs + depth w ys := by
  rw [depth, List.map_append, List.sum_append, depth, depth]

structure Balanced (xs : List α) : Prop where
  nonneg : ∀ p, p <+: xs → 0 ≤ depth w p
  closed : depth w xs = 0

def balances : ℤ → List α → Bool
  | d, [] => d == 0
  | d, x :: xs => decide (0 ≤ d + w x) && balances (d + w x) xs

theorem balances_iff {d : ℤ} {xs : List α} (hd : 0 ≤ d) :
    balances w d xs = true ↔ (∀ p, p <+: xs → 0 ≤ d + depth w p) ∧ d + depth w xs = 0 := by
  induction xs generalizing d with
  | nil =>
    rw [balances, beq_iff_eq, depth_nil, add_zero]
    refine ⟨fun h => ⟨fun p hp => ?_, h⟩, fun h => h.2⟩
    rw [List.prefix_nil.mp hp, depth_nil, add_zero]
    exact hd
  | cons x xs ih =>
    rw [balances, Bool.and_eq_true, decide_eq_true_eq, depth_cons, ← add_assoc]
    constructor
    · rintro ⟨hx, hrest⟩
      obtain ⟨hnonneg, hclosed⟩ := (ih hx).mp hrest
      refine ⟨fun p hp => ?_, hclosed⟩
      obtain rfl | ⟨q, rfl, hq⟩ := List.prefix_cons_iff.mp hp
      · rw [depth_nil, add_zero]
        exact hd
      · rw [depth_cons, ← add_assoc]
        exact hnonneg q hq
    · rintro ⟨hnonneg, hclosed⟩
      have hx : 0 ≤ d + w x := by
        have hfirst := hnonneg [x] (List.cons_prefix_cons.mpr ⟨rfl, List.nil_prefix⟩)
        rw [depth_cons, depth_nil, add_zero] at hfirst
        exact hfirst
      refine ⟨hx, (ih hx).mpr ⟨fun q hq => ?_, hclosed⟩⟩
      have hnext := hnonneg (x :: q) (List.cons_prefix_cons.mpr ⟨rfl, hq⟩)
      rw [depth_cons, ← add_assoc] at hnext
      exact hnext

theorem balanced_iff {xs : List α} : Balanced w xs ↔ balances w 0 xs = true := by
  rw [balances_iff w le_rfl]
  simp only [zero_add]
  exact ⟨fun h => ⟨h.nonneg, h.closed⟩, fun h => ⟨h.1, h.2⟩⟩

variable {w}

theorem Balanced.depth_le {xs ys : List α} (h : Balanced w (xs ++ ys)) : depth w ys ≤ 0 := by
  have hstart := h.nonneg xs (List.prefix_append xs ys)
  have hclosed := h.closed
  rw [depth_append] at hclosed
  linarith

section Lines

variable [DecidableEq α] {sep : α}

def lastLine (sep : α) (xs : List α) : List α := xs.rtakeWhile fun x => decide (x ≠ sep)

def firstLine (sep : α) (xs : List α) : List α := xs.takeWhile fun x => decide (x ≠ sep)

theorem sep_not_mem_firstLine (xs : List α) : sep ∉ firstLine sep xs := by
  intro h
  simpa using List.mem_takeWhile_imp h

theorem sep_not_mem_lastLine (xs : List α) : sep ∉ lastLine sep xs := by
  intro h
  simpa using List.mem_rtakeWhile_imp h

theorem firstLine_append {xs : List α} (h : sep ∉ xs) (ys : List α) :
    firstLine sep (xs ++ ys) = xs ++ firstLine sep ys := by
  apply List.takeWhile_append_of_pos
  intro x hx
  rw [decide_eq_true_eq]
  rintro rfl
  exact h hx

theorem lastLine_append_cons (xs : List α) {ys : List α} (h : sep ∉ ys) : lastLine sep (xs ++ sep :: ys) = ys := by
  have hys : ∀ y ∈ ys.reverse, decide (y ≠ sep) = true := by
    intro y hy
    rw [decide_eq_true_eq]
    rintro rfl
    exact h (List.mem_reverse.mp hy)
  rw [lastLine, List.rtakeWhile, List.reverse_append, List.reverse_cons, List.append_assoc,
    List.takeWhile_append_of_pos hys]
  simp

theorem lastLine_of_not_mem {xs : List α} (h : sep ∉ xs) : lastLine sep xs = xs := by
  rw [lastLine, List.rtakeWhile_eq_self_iff]
  intro x hx
  rw [decide_eq_true_eq]
  rintro rfl
  exact h hx

theorem lastLine_cases (sep : α) (xs : List α) :
    (sep ∉ xs ∧ lastLine sep xs = xs) ∨ ∃ rest, xs = rest ++ sep :: lastLine sep xs := by
  by_cases hmem : sep ∈ xs
  · obtain ⟨ys, zs, hsplit, hys⟩ := List.eq_append_cons_of_mem (List.mem_reverse.mpr hmem)
    have hxs : xs = zs.reverse ++ sep :: ys.reverse := by
      rw [← List.reverse_reverse xs, hsplit]
      simp
    refine .inr ⟨zs.reverse, ?_⟩
    rw [hxs, lastLine_append_cons _ (by simpa using hys)]
  · exact .inl ⟨hmem, lastLine_of_not_mem hmem⟩

theorem exists_append_lastLine (sep : α) (xs : List α) : ∃ rest, xs = rest ++ lastLine sep xs := by
  obtain ⟨-, h⟩ | ⟨rest, h⟩ := lastLine_cases sep xs
  · exact ⟨[], h.symm⟩
  · refine ⟨rest ++ [sep], ?_⟩
    rw [List.append_assoc]
    exact h

theorem length_splitOn (xs : List α) : (xs.splitOn sep).length = xs.count sep + 1 := by
  induction xs with
  | nil => rfl
  | cons x xs ih =>
    rw [List.splitOn_cons_eq_if_modifyHead, List.count_cons]
    split <;> simp [ih]

theorem splitOn_eq_cons (sep : α) (xs : List α) : ∃ rest, xs.splitOn sep = firstLine sep xs :: rest := by
  induction xs with
  | nil => exact ⟨[], rfl⟩
  | cons x xs ih =>
    obtain ⟨rest, hrest⟩ := ih
    rw [List.splitOn_cons_eq_if_modifyHead, firstLine, List.takeWhile_cons]
    by_cases hx : x = sep
    · simp [hx]
    · refine ⟨rest, ?_⟩
      rw [if_neg (by simpa using hx), if_pos (by simpa using hx), hrest, List.modifyHead_cons]
      rfl

theorem drop_splitOn (xs ys : List α) :
    ((xs ++ ys).splitOn sep).drop (xs.count sep) = (lastLine sep xs ++ ys).splitOn sep := by
  obtain ⟨hmem, hlast⟩ | ⟨rest, hrest⟩ := lastLine_cases sep xs
  · rw [List.count_eq_zero_of_not_mem hmem, List.drop_zero, hlast]
  · have hnone : (lastLine sep xs).count sep = 0 := List.count_eq_zero_of_not_mem (sep_not_mem_lastLine xs)
    have hcount : xs.count sep = (rest.splitOn sep).length := by
      rw [length_splitOn]
      conv_lhs => rw [hrest]
      rw [List.count_append, List.count_cons_self, hnone]
    have hlines : (xs ++ ys).splitOn sep = rest.splitOn sep ++ (lastLine sep xs ++ ys).splitOn sep := by
      conv_lhs => rw [hrest]
      rw [List.append_assoc, List.cons_append, List.splitOn_append_cons_self]
    rw [hlines, hcount, List.drop_left]

def EndsLine (sep : α) (xs part : List α) : Prop := part = xs ∨ ∃ rest, xs = part ++ sep :: rest

theorem EndsLine.take_splitOn {xs part : List α} (h : EndsLine sep xs part) :
    (xs.splitOn sep).take (part.count sep + 1) = part.splitOn sep := by
  obtain rfl | ⟨rest, rfl⟩ := h
  · exact List.take_of_length_le (length_splitOn part).le
  · rw [List.splitOn_append_cons_self, ← length_splitOn, List.take_left]

theorem endsLine_firstLine (xs ys : List α) : EndsLine sep (xs ++ ys) (xs ++ firstLine sep ys) := by
  by_cases hmem : sep ∈ ys
  · obtain ⟨zs, rest, rfl, hzs⟩ := List.eq_append_cons_of_mem hmem
    refine .inr ⟨rest, ?_⟩
    rw [firstLine_append hzs, firstLine, List.takeWhile_cons_of_neg (by simp), List.append_nil, List.append_assoc]
  · refine .inl ?_
    rw [← List.append_nil ys, firstLine_append hmem]
    rfl

theorem exists_line_end {xs : List α} {i : ℕ} (h : i < xs.count sep) :
    ∃ part rest, xs = part ++ sep :: rest ∧ part.count sep = i := by
  induction xs generalizing i with
  | nil => exact absurd h (Nat.not_lt_zero i)
  | cons x xs ih =>
    by_cases hx : x = sep
    · subst hx
      cases i with
      | zero => exact ⟨[], xs, rfl, rfl⟩
      | succ i =>
        rw [List.count_cons_self] at h
        obtain ⟨part, rest, hxs, hcount⟩ := ih (Nat.lt_of_succ_lt_succ h)
        refine ⟨x :: part, rest, ?_, ?_⟩
        · rw [hxs, List.cons_append]
        · rw [List.count_cons_self, hcount]
    · rw [List.count_cons_of_ne hx] at h
      obtain ⟨part, rest, hxs, hcount⟩ := ih h
      refine ⟨x :: part, rest, ?_, ?_⟩
      · rw [hxs, List.cons_append]
      · rw [List.count_cons_of_ne hx, hcount]

theorem sum_depth_splitOn (hsep : w sep = 0) (xs : List α) : ((xs.splitOn sep).map (depth w)).sum = depth w xs := by
  induction xs with
  | nil => rfl
  | cons x xs ih =>
    rw [List.splitOn_cons_eq_if_modifyHead, depth_cons, ← ih]
    obtain ⟨first, rest, hsplit⟩ := List.exists_cons_of_ne_nil (List.splitOn_ne_nil sep xs)
    rw [hsplit]
    by_cases hx : x = sep
    · simp [hx, hsep]
    · rw [if_neg (by simpa using hx)]
      simp [add_assoc]

end Lines

end Nesting
