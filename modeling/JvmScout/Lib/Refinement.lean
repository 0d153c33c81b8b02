import Mathlib.Data.List.Basic

namespace Refinement

variable {σ τ α ω : Type*}

def runs (step : σ → α → σ × ω) : σ → List α → σ × List ω
  | s, [] => (s, [])
  | s, a :: as =>
    let rest := runs step (step s a).1 as
    (rest.1, (step s a).2 :: rest.2)

def Along (spec : τ → α → τ × ω) (P : τ → α → Prop) : τ → List α → Prop
  | _, [] => True
  | t, a :: as => P t a ∧ Along spec P (spec t a).1 as

def Refines (step : σ → α → σ × ω) (spec : τ → α → τ × ω) (P : τ → α → Prop) (R : σ → τ → Prop) : Prop :=
  ∀ s t a, R s t → P t a → (step s a).2 = (spec t a).2 ∧ R (step s a).1 (spec t a).1

variable {step : σ → α → σ × ω} {spec : τ → α → τ × ω} {P : τ → α → Prop} {R : σ → τ → Prop}

theorem Refines.runs (h : Refines step spec P R) {as : List α} {s : σ} {t : τ} (hst : R s t)
    (halong : Along spec P t as) :
    (Refinement.runs step s as).2 = (Refinement.runs spec t as).2 ∧
      R (Refinement.runs step s as).1 (Refinement.runs spec t as).1 := by
  induction as generalizing s t with
  | nil => exact ⟨rfl, hst⟩
  | cons a as ih =>
    obtain ⟨hallowed, hrest⟩ := halong
    obtain ⟨hanswer, hnext⟩ := h s t a hst hallowed
    obtain ⟨hanswers, hlast⟩ := ih hnext hrest
    exact ⟨List.cons_eq_cons.mpr ⟨hanswer, hanswers⟩, hlast⟩

end Refinement
