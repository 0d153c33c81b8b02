import Mathlib.Data.List.Basic

namespace Unwinding

variable {σ α ν ω : Type*} (step : σ → α → σ) (answer : σ → α → ω) (mine : α → Bool)

def answers : σ → List α → List ω
  | _, [] => []
  | s, a :: as => if mine a then answer s a :: answers (step s a) as else answers (step s a) as

structure Separated (view : σ → ν) (I : σ → Prop) (P : α → Prop) : Prop where
  keep : ∀ s a, I s → P a → I (step s a)
  hidden : ∀ s a, I s → P a → mine a = false → view (step s a) = view s
  own : ∀ s t a, I s → I t → P a → mine a = true → view s = view t →
    view (step s a) = view (step t a) ∧ answer s a = answer t a

variable {step answer mine} {view : σ → ν} {I : σ → Prop} {P : α → Prop}

theorem Separated.alone (h : Separated step answer mine view I P) {as : List α} (has : ∀ a ∈ as, P a) {s t : σ}
    (hs : I s) (ht : I t) (hview : view s = view t) :
    view (as.foldl step s) = view ((as.filter mine).foldl step t) ∧
      answers step answer mine s as = answers step answer mine t (as.filter mine) := by
  induction as generalizing s t with
  | nil => exact ⟨hview, rfl⟩
  | cons a as ih =>
    have ha : P a := has a List.mem_cons_self
    have hrest : ∀ b ∈ as, P b := fun b hb => has b (List.mem_cons_of_mem a hb)
    cases hmine : mine a with
    | false =>
      have hsame : view (step s a) = view t := (h.hidden s a hs ha hmine).trans hview
      rw [List.filter_cons_of_neg (by simp [hmine]), List.foldl_cons, answers, hmine]
      exact ih hrest (h.keep s a hs ha) ht hsame
    | true =>
      obtain ⟨hsame, hanswer⟩ := h.own s t a hs ht ha hmine hview
      obtain ⟨hlast, hanswers⟩ := ih hrest (h.keep s a hs ha) (h.keep t a ht ha) hsame
      rw [List.filter_cons_of_pos hmine, List.foldl_cons, List.foldl_cons, answers, answers, hmine, if_pos rfl,
        if_pos rfl, hanswer, hanswers]
      exact ⟨hlast, rfl⟩

end Unwinding
