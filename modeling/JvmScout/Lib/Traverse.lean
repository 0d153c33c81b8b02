import Mathlib.Data.List.Forall2
import Mathlib.Tactic.Basic

namespace Traverse

variable {α β γ ε : Type}

theorem bind_eq_ok {x : Except ε α} {f : α → Except ε β} {b : β} :
    x >>= f = .ok b ↔ ∃ a, x = .ok a ∧ f a = .ok b := by
  cases x with
  | error e => simp [bind, Except.bind]
  | ok a => simp [bind, Except.bind]

theorem map_eq_ok {x : Except ε α} {f : α → β} {b : β} :
    x.map f = .ok b ↔ ∃ a, x = .ok a ∧ f a = b := by
  cases x with
  | error e => simp [Except.map]
  | ok a => simp [Except.map]

theorem pure_eq_ok {a b : α} : (pure a : Except ε α) = .ok b ↔ a = b := by
  simp [pure, Except.pure]

theorem toOption_eq_some {x : Except ε α} {a : α} : x.toOption = some a ↔ x = .ok a := by
  cases x with
  | error e => simp [Except.toOption]
  | ok b => simp [Except.toOption]

theorem option_mapM {f : α → Option β} {xs : List α} {ys : List β} :
    xs.mapM f = some ys ↔ List.Forall₂ (fun x y => f x = some y) xs ys := by
  induction xs generalizing ys with
  | nil => cases ys <;> simp
  | cons x xs ih =>
    simp only [List.mapM_cons, bind, Option.bind_eq_some_iff, pure, Option.some.injEq,
      List.forall₂_cons_left_iff]
    constructor
    · rintro ⟨y, hy, rest, hrest, rfl⟩
      exact ⟨y, rest, hy, ih.mp hrest, rfl⟩
    · rintro ⟨y, rest, hy, hrest, rfl⟩
      exact ⟨y, hy, rest, ih.mpr hrest, rfl⟩

theorem except_mapM {f : α → Except ε β} {xs : List α} {ys : List β} :
    xs.mapM f = .ok ys ↔ List.Forall₂ (fun x y => f x = .ok y) xs ys := by
  induction xs generalizing ys with
  | nil => cases ys <;> simp [pure, Except.pure]
  | cons x xs ih =>
    simp only [List.mapM_cons, bind_eq_ok, pure_eq_ok, List.forall₂_cons_left_iff]
    constructor
    · rintro ⟨y, hy, rest, hrest, rfl⟩
      exact ⟨y, rest, hy, ih.mp hrest, rfl⟩
    · rintro ⟨y, rest, hy, hrest, rfl⟩
      exact ⟨y, hy, rest, ih.mpr hrest, rfl⟩

theorem forall₂_iff_of_link {L R : α → β → Prop} {C : α → Prop} {xs : List α} {ys : List β}
    (link : List.Forall₂ L xs ys) (h : ∀ x y, L x y → (R x y ↔ C x)) :
    List.Forall₂ R xs ys ↔ ∀ x ∈ xs, C x := by
  induction link with
  | nil => simp
  | cons hxy _ ih => simp [h _ _ hxy, ih]

theorem forall₂_comp {S : α → β → Prop} {T : β → γ → Prop} {xs : List α} {ys : List β} {zs : List γ}
    (hs : List.Forall₂ S xs ys) (ht : List.Forall₂ T ys zs) :
    List.Forall₂ (fun x z => ∃ y, S x y ∧ T y z) xs zs := by
  induction hs generalizing zs with
  | nil =>
    cases ht
    exact .nil
  | cons hxy _ ih =>
    cases ht with
    | cons hyz ht => exact .cons ⟨_, hxy, hyz⟩ (ih ht)

structure Fuses (f : α → Except ε β) (g : β → Except ε γ) (h : α → Except ε γ) : Prop where
  ok : ∀ x y, f x = .ok y → ∃ z, g y = .ok z ∧ h x = .ok z
  error : ∀ x e, f x = .error e → h x = .error e

theorem Fuses.bind_eq {f : α → Except ε β} {g : β → Except ε γ} {h : α → Except ε γ} (hf : Fuses f g h) (x : α) :
    f x >>= g = h x := by
  cases hx : f x with
  | error e =>
    rw [hf.error x e hx]
    rfl
  | ok y =>
    obtain ⟨z, hz, hxz⟩ := hf.ok x y hx
    rw [hxz, ← hz]
    rfl

theorem Fuses.mapM {f : α → Except ε β} {g : β → Except ε γ} {h : α → Except ε γ} (hf : Fuses f g h) :
    Fuses (List.mapM f) (List.mapM g) (List.mapM h) where
  ok xs := by
    induction xs with
    | nil =>
      intro ys hys
      cases hys
      exact ⟨[], rfl, rfl⟩
    | cons x xs ih =>
      intro ys hys
      simp only [List.mapM_cons, bind_eq_ok, pure_eq_ok] at hys
      obtain ⟨y, hy, rest, hrest, rfl⟩ := hys
      obtain ⟨z, hz, hxz⟩ := hf.ok x y hy
      obtain ⟨zs, hzs, hxzs⟩ := ih rest hrest
      refine ⟨z :: zs, ?_, ?_⟩
      · rw [List.mapM_cons, hz, hzs]
        rfl
      · rw [List.mapM_cons, hxz, hxzs]
        rfl
  error xs := by
    induction xs with
    | nil =>
      intro e he
      cases he
    | cons x xs ih =>
      intro e he
      rw [List.mapM_cons] at he ⊢
      cases hx : f x with
      | error e' =>
        rw [hx] at he
        rw [hf.error x e' hx]
        cases he
        rfl
      | ok y =>
        obtain ⟨z, -, hxz⟩ := hf.ok x y hx
        cases hxs : xs.mapM f with
        | error e' =>
          rw [hx, hxs] at he
          rw [hxz, ih e' hxs]
          cases he
          rfl
        | ok ys =>
          rw [hx, hxs] at he
          cases he

end Traverse
