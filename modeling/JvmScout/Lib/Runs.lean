import Mathlib.Algebra.BigOperators.Group.List.Basic
import Mathlib.Algebra.Ring.Nat
import Mathlib.Data.List.Basic
import Mathlib.Tactic.Basic

/-!
Finite runs of a labelled machine whose step may refuse a label, and the rules
that carry a fact about one step to every state a run reaches.
-/

namespace Runs

variable {σ α : Type*}

def run (step : σ → α → Option σ) : σ → List α → Option σ
  | s, [] => some s
  | s, a :: as => (step s a).bind fun t => run step t as

def AllSteps (step : σ → α → Option σ) (P : σ → α → Prop) : σ → List α → Prop
  | _, [] => True
  | s, a :: as => P s a ∧ ∀ t, step s a = some t → AllSteps step P t as

variable {step : σ → α → Option σ}

@[simp] theorem run_nil (s : σ) : run step s [] = some s := rfl

theorem run_cons {s u : σ} {a : α} {as : List α} :
    run step s (a :: as) = some u ↔ ∃ t, step s a = some t ∧ run step t as = some u := by
  simp [run, Option.bind_eq_some_iff]

theorem run_append {s u : σ} {as bs : List α} :
    run step s (as ++ bs) = some u ↔ ∃ t, run step s as = some t ∧ run step t bs = some u := by
  induction as generalizing s with
  | nil => simp
  | cons a as ih =>
    constructor
    · intro h
      obtain ⟨v, hv, h⟩ := run_cons.mp h
      obtain ⟨t, ht, hu⟩ := ih.mp h
      exact ⟨t, run_cons.mpr ⟨v, hv, ht⟩, hu⟩
    · rintro ⟨t, ht, hu⟩
      obtain ⟨v, hv, ht⟩ := run_cons.mp ht
      exact run_cons.mpr ⟨v, hv, ih.mpr ⟨t, ht, hu⟩⟩

theorem allSteps_append {P : σ → α → Prop} {s : σ} {as bs : List α} (has : AllSteps step P s as)
    (hbs : ∀ t, run step s as = some t → AllSteps step P t bs) : AllSteps step P s (as ++ bs) := by
  induction as generalizing s with
  | nil => exact hbs s rfl
  | cons a as ih =>
    refine ⟨has.1, fun u hu => ih (has.2 u hu) fun t ht => ?_⟩
    apply hbs
    exact run_cons.mpr ⟨u, hu, ht⟩

theorem allSteps_of_forall {P : σ → α → Prop} {as : List α} (h : ∀ a ∈ as, ∀ s, P s a) (s : σ) :
    AllSteps step P s as := by
  induction as generalizing s with
  | nil => trivial
  | cons a as ih =>
    refine ⟨h a List.mem_cons_self s, fun t _ => ?_⟩
    apply ih
    exact fun b hb => h b (List.mem_cons_of_mem a hb)

theorem allSteps_congr {I : σ → Prop} {P Q : σ → α → Prop}
    (keep : ∀ s a t, I s → P s a → step s a = some t → I t) (same : ∀ s a, I s → (P s a ↔ Q s a))
    {s : σ} (hs : I s) (as : List α) : AllSteps step P s as ↔ AllSteps step Q s as := by
  induction as generalizing s with
  | nil => exact Iff.rfl
  | cons a as ih =>
    constructor
    · rintro ⟨hp, hrest⟩
      exact ⟨(same s a hs).mp hp, fun t ht => (ih (keep s a t hs hp ht)).mp (hrest t ht)⟩
    · rintro ⟨hq, hrest⟩
      have hp : P s a := (same s a hs).mpr hq
      exact ⟨hp, fun t ht => (ih (keep s a t hs hp ht)).mpr (hrest t ht)⟩

theorem allSteps_of_invariant {I : σ → Prop} {P Q : σ → α → Prop}
    (keep : ∀ s a t, I s → P s a → step s a = some t → I t) (give : ∀ s a, I s → P s a → Q s a)
    {s : σ} {as : List α} (hs : I s) (hp : AllSteps step P s as) : AllSteps step Q s as := by
  induction as generalizing s with
  | nil => trivial
  | cons a as ih =>
    refine ⟨give s a hs hp.1, fun t ht => ?_⟩
    exact ih (keep s a t hs hp.1 ht) (hp.2 t ht)

theorem run_invariant {I : σ → Prop} {s t : σ} {as : List α}
    (hstep : ∀ s, ∀ a ∈ as, ∀ t, I s → step s a = some t → I t)
    (hs : I s) (hr : run step s as = some t) : I t := by
  induction as generalizing s with
  | nil =>
    cases hr
    exact hs
  | cons a as ih =>
    obtain ⟨u, hu, hr⟩ := run_cons.mp hr
    apply ih (fun s b hb => hstep s b (List.mem_cons_of_mem a hb)) _ hr
    exact hstep s a List.mem_cons_self u hs hu

theorem run_guarded {I : σ → Prop} {P : σ → α → Prop}
    (hstep : ∀ s a t, I s → P s a → step s a = some t → I t)
    {s t : σ} {as : List α} (hs : I s) (hp : AllSteps step P s as)
    (hr : run step s as = some t) : I t := by
  induction as generalizing s with
  | nil =>
    cases hr
    exact hs
  | cons a as ih =>
    obtain ⟨u, hu, hr⟩ := run_cons.mp hr
    exact ih (hstep s a u hs hp.1 hu) (hp.2 u hu) hr

theorem run_cause {B : σ → Prop} {s t : σ} {as : List α} (hs : ¬ B s) (ht : B t) (hr : run step s as = some t) :
    ∃ before a after u v, as = before ++ a :: after ∧ run step s before = some u ∧ ¬ B u ∧ step u a = some v ∧
      B v := by
  induction as generalizing s with
  | nil =>
    cases hr
    exact absurd ht hs
  | cons a as ih =>
    obtain ⟨v, hv, hr⟩ := run_cons.mp hr
    by_cases hb : B v
    · exact ⟨[], a, as, s, v, rfl, rfl, hs, hv, hb⟩
    · obtain ⟨before, b, after, u, w, rfl, hrun, hu, hstep, hw⟩ := ih hb hr
      exact ⟨a :: before, b, after, u, w, rfl, run_cons.mpr ⟨v, hv, hrun⟩, hu, hstep, hw⟩

theorem run_potential {I : σ → Prop} {m : σ → ℕ} {c g : α → ℕ} {s t : σ} {as : List α}
    (keep : ∀ s a t, I s → step s a = some t → I t)
    (pay : ∀ s a t, I s → step s a = some t → m t + c a ≤ m s + g a)
    (hs : I s) (hr : run step s as = some t) :
    m t + (as.map c).sum ≤ m s + (as.map g).sum := by
  induction as generalizing s with
  | nil =>
    cases hr
    simp
  | cons a as ih =>
    obtain ⟨u, hu, hr⟩ := run_cons.mp hr
    have hfirst := pay s a u hs hu
    have hrest := ih (keep s a u hs hu) hr
    simp only [List.map_cons, List.sum_cons]
    omega

/-- A run keeps `I` as long as its steps meet `P`; the first step that does not
leads into `B`, which no step leaves. -/
theorem run_dichotomy {I B : σ → Prop} {P : σ → α → Prop} {s t : σ} {as : List α}
    (good : ∀ s, ∀ a ∈ as, ∀ t, I s → P s a → step s a = some t → I t)
    (slip : ∀ s, ∀ a ∈ as, ∀ t, I s → ¬ P s a → step s a = some t → B t)
    (stuck : ∀ s, ∀ a ∈ as, ∀ t, B s → step s a = some t → B t)
    (hs : I s) (hr : run step s as = some t) :
    (AllSteps step P s as ∧ I t) ∨ (¬ AllSteps step P s as ∧ B t) := by
  induction as generalizing s with
  | nil =>
    cases hr
    exact .inl ⟨trivial, hs⟩
  | cons a as ih =>
    have later {b : α} (hb : b ∈ as) : b ∈ a :: as := List.mem_cons_of_mem a hb
    obtain ⟨u, hu, hr⟩ := run_cons.mp hr
    by_cases hp : P s a
    · have hgood : I u := good s a List.mem_cons_self u hs hp hu
      rcases ih (fun s b hb => good s b (later hb)) (fun s b hb => slip s b (later hb))
        (fun s b hb => stuck s b (later hb)) hgood hr with ⟨hall, ht⟩ | ⟨hnot, ht⟩
      · refine .inl ⟨⟨hp, fun v hv => ?_⟩, ht⟩
        rw [hu] at hv
        cases hv
        exact hall
      · exact .inr ⟨fun hall => hnot (hall.2 u hu), ht⟩
    · have hslip : B u := slip s a List.mem_cons_self u hs hp hu
      refine .inr ⟨fun hall => hp hall.1, ?_⟩
      exact run_invariant (fun s b hb => stuck s b (later hb)) hslip hr

end Runs
