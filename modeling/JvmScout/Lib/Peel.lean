import Mathlib.Data.List.Forall2
import Mathlib.Tactic.Basic

namespace Peel

variable {α β γ : Type*}

def Peels (s s' : List α) (P : Prop) : Prop := ∀ r r', s ++ r = s' ++ r' ↔ P ∧ r = r'

namespace Peels

variable {s s' t t' : List α} {P Q : Prop}

theorem self (s : List α) : Peels s s True := by
  intro r r'
  rw [List.append_cancel_left_eq, true_and]

theorem append (h : Peels s s' P) (h' : Peels t t' Q) : Peels (s ++ t) (s' ++ t') (P ∧ Q) := by
  intro r r'
  rw [List.append_assoc, List.append_assoc, h, h', and_assoc]

theorem congr (h : Peels s s' P) (hPQ : P ↔ Q) : Peels s s' Q := by
  intro r r'
  rw [h, hPQ]

theorem eq_iff (h : Peels s s' P) : s = s' ↔ P := by
  have hend := h [] []
  rwa [List.append_nil, List.append_nil, and_iff_left rfl] at hend

theorem before (h : Peels t t' P) (s : List α) : Peels (s ++ t) (s ++ t') P :=
  ((self s).append h).congr (iff_of_eq (true_and P))

theorem after (h : Peels s s' P) (t : List α) : Peels (s ++ t) (s' ++ t) P :=
  (h.append (self t)).congr (iff_of_eq (and_true P))

end Peels

def parts (f : Bool → β → List α) : Bool → List β → List α
  | _, [] => []
  | b, x :: xs => f b x ++ parts f true xs

namespace Peels

variable {f : Bool → β → List α} {g : Bool → γ → List α} {R : β → γ → Prop}

theorem marked {mark : List α} (h : ∀ b x y, Peels (f b x) (g b y) (R x y))
    (hf : ∀ b x r r', f b x ++ r ≠ mark ++ r') (hg : ∀ b y r r', g b y ++ r ≠ mark ++ r')
    (b : Bool) (xs : List β) (ys : List γ) :
    Peels (parts f b xs ++ mark) (parts g b ys ++ mark) (List.Forall₂ R xs ys) := by
  induction xs generalizing b ys with
  | nil =>
    cases ys with
    | nil => exact (self mark).congr (iff_of_true trivial .nil)
    | cons y ys =>
      intro r r'
      rw [List.forall₂_nil_left_iff, parts, parts, List.append_assoc (g b y), List.append_assoc (g b y)]
      refine iff_of_false (fun heq => hg b y _ _ heq.symm) fun hnil => ?_
      cases hnil.1
  | cons x xs ih =>
    cases ys with
    | nil =>
      intro r r'
      rw [List.forall₂_nil_right_iff, parts, parts, List.append_assoc (f b x), List.append_assoc (f b x)]
      refine iff_of_false (fun heq => hf b x _ _ heq) fun hnil => ?_
      cases hnil.1
    | cons y ys =>
      rw [parts, parts, List.append_assoc, List.append_assoc, List.forall₂_cons]
      exact (h b x y).append (ih true ys)

end Peels

end Peel
