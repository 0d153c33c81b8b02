import JvmScout.Lib.Runs
import Mathlib.Logic.Function.Basic
import Mathlib.Logic.Relation

namespace Stutter

open Runs

variable {T A B W Ω : Type*} [DecidableEq T]

structure State (T A W : Type*) where
  threads : T → A
  world : W

def step (next : A → W → Option (A × W)) (s : State T A W) (t : T) : Option (State T A W) :=
  (next (s.threads t) s.world).map fun r => ⟨Function.update s.threads t r.1, r.2⟩

/-- A step of the thread's own: it goes on in every world, and changes neither the world nor what is
observed of the thread. -/
def Silent (next : B → W → Option (B × W)) (observe : B → Ω) (own : B → Prop) (b b' : B) : Prop :=
  own b ∧ observe b' = observe b ∧ ∀ w, next b w = some (b', w)

section Threads

variable (f : A → W → Option (A × W)) (g : B → W → Option (B × W)) (observe : B → Ω) (own : B → Prop)
  (M : A → B → Prop)

def Settles (a : A) (b : B) : Prop := ∃ b', Relation.ReflTransGen (Silent g observe own) b b' ∧ M a b'

def Related (s : State T A W) (s' : State T B W) : Prop :=
  s'.world = s.world ∧ ∀ t, Settles g observe own M (s.threads t) (s'.threads t)

structure Follows (observeA : A → Ω) (Well : A → Prop) : Prop where
  same : ∀ a b, M a b → observe b = observeA a
  refuses : ∀ a b w, M a b → f a w = none → g b w = none
  steps : ∀ a b w a' w', M a b → f a w = some (a', w') → Well a' →
    ∃ b', g b w = some (b', w') ∧ Settles g observe own M a' b'

end Threads

variable {f : A → W → Option (A × W)} {g : B → W → Option (B × W)} {observe : B → Ω} {observeA : A → Ω}
  {own : B → Prop} {M : A → B → Prop} {Well : A → Prop} {s s₁ : State T A W} {s' s₁' : State T B W}

theorem step_eq_some {next : A → W → Option (A × W)} {t : T} :
    step next s t = some s₁ ↔
      ∃ a w, next (s.threads t) s.world = some (a, w) ∧ ⟨Function.update s.threads t a, w⟩ = s₁ := by
  simp [step]

theorem Settles.observed (hM : ∀ a b, M a b → observe b = observeA a) {a : A} {b : B}
    (h : Settles g observe own M a b) : observe b = observeA a := by
  obtain ⟨b', hpath, hmatch⟩ := h
  induction hpath using Relation.ReflTransGen.head_induction_on with
  | refl => exact hM a b' hmatch
  | head hsilent _ ih => exact hsilent.2.1.symm.trans ih

theorem Settles.matches {a : A} {b : B} (hown : ¬ own b) (h : Settles g observe own M a b) : M a b := by
  obtain ⟨b', hpath, hmatch⟩ := h
  rcases hpath.cases_head with rfl | ⟨b₁, hsilent, -⟩
  · exact hmatch
  · exact absurd hsilent.1 hown

theorem Settles.of_path {a : A} {b b' : B} (hpath : Relation.ReflTransGen (Silent g observe own) b b')
    (h : Settles g observe own M a b') : Settles g observe own M a b := by
  obtain ⟨b'', hrest, hmatch⟩ := h
  exact ⟨b'', hpath.trans hrest, hmatch⟩

theorem Settles.head {a : A} {b b' : B} (hsilent : Silent g observe own b b') (h : Settles g observe own M a b') :
    Settles g observe own M a b := h.of_path (Relation.ReflTransGen.single hsilent)

theorem Settles.of_match {a : A} {b : B} (h : M a b) : Settles g observe own M a b := ⟨b, .refl, h⟩

theorem Related.update (h : Related g observe own M s s') (t : T) {a : A} {b : B} (w : W)
    (hset : Settles g observe own M a b) :
    Related g observe own M ⟨Function.update s.threads t a, w⟩ ⟨Function.update s'.threads t b, w⟩ := by
  refine ⟨rfl, fun u => ?_⟩
  dsimp only
  by_cases hu : u = t
  · subst hu
    rw [Function.update_self, Function.update_self]
    exact hset
  · rw [Function.update_of_ne hu, Function.update_of_ne hu]
    exact h.2 u

theorem Related.settle (h : Related g observe own M s s') (t : T) :
    ∃ n s₁' , run (step g) s' (List.replicate n t) = some s₁' ∧ Related g observe own M s s₁' ∧
      M (s.threads t) (s₁'.threads t) := by
  obtain ⟨b, hpath, hmatch⟩ := h.2 t
  generalize hb : s'.threads t = b₀ at hpath
  induction hpath using Relation.ReflTransGen.head_induction_on generalizing s' with
  | refl =>
    refine ⟨0, s', rfl, h, ?_⟩
    rw [hb]
    exact hmatch
  | @head b₀ b₁ hsilent hrest ih =>
    have hone : step g s' t = some ⟨Function.update s'.threads t b₁, s'.world⟩ := by
      rw [step, hb, hsilent.2.2]
      rfl
    have hnext := h.update t s'.world ⟨b, hrest, hmatch⟩
    rw [Function.update_eq_self, h.1] at hnext
    rw [h.1] at hone
    obtain ⟨n, s₁', hrun, hrelated, hlast⟩ := ih hnext (Function.update_self ..)
    exact ⟨n + 1, s₁', run_cons.mpr ⟨_, hone, hrun⟩, hrelated, hlast⟩

theorem Related.forth_step (hf : Follows f g observe own M observeA Well) (h : Related g observe own M s s') {t : T}
    (hstep : step f s t = some s₁) (hwell : Well (s₁.threads t)) :
    ∃ n s₁', run (step g) s' (List.replicate (n + 1) t) = some s₁' ∧ Related g observe own M s₁ s₁' := by
  obtain ⟨n, s₂', hrun, hrelated, hmatch⟩ := h.settle t
  obtain ⟨a, w, ha, rfl⟩ := step_eq_some.mp hstep
  dsimp only at hwell
  rw [Function.update_self] at hwell
  obtain ⟨b, hb, hset⟩ := hf.steps _ _ _ _ _ hmatch ha hwell
  refine ⟨n, ⟨Function.update s₂'.threads t b, w⟩, ?_, hrelated.update t w hset⟩
  rw [List.replicate_succ', run_append]
  refine ⟨s₂', hrun, run_cons.mpr ⟨_, step_eq_some.mpr ⟨b, w, ?_, rfl⟩, rfl⟩⟩
  rw [hrelated.1]
  exact hb

theorem Related.back_step (hf : Follows f g observe own M observeA Well) (h : Related g observe own M s s') {t : T}
    (hwell : ∀ s₁, step f s t = some s₁ → Well (s₁.threads t)) (hstep : step g s' t = some s₁') :
    Related g observe own M s s₁' ∨ ∃ s₁, step f s t = some s₁ ∧ Related g observe own M s₁ s₁' := by
  obtain ⟨b₁, w, hb₁, rfl⟩ := step_eq_some.mp hstep
  obtain ⟨b, hpath, hmatch⟩ := h.2 t
  rcases hpath.cases_head with heq | ⟨b₂, hsilent, hrest⟩
  · -- settled: the step is one of the other thread's
    subst heq
    rw [h.1] at hb₁
    right
    cases ha : f (s.threads t) s.world with
    | none =>
      rw [hf.refuses _ _ _ hmatch ha] at hb₁
      cases hb₁
    | some r =>
      obtain ⟨a, w'⟩ := r
      have hone : step f s t = some ⟨Function.update s.threads t a, w'⟩ := step_eq_some.mpr ⟨a, w', ha, rfl⟩
      have hgood := hwell _ hone
      dsimp only at hgood
      rw [Function.update_self] at hgood
      obtain ⟨b', hb', hset⟩ := hf.steps _ _ _ _ _ hmatch ha hgood
      rw [hb₁] at hb'
      cases hb'
      exact ⟨_, hone, h.update t w hset⟩
  · left
    rw [hsilent.2.2, Option.some.injEq, Prod.mk.injEq] at hb₁
    obtain ⟨rfl, rfl⟩ := hb₁
    have hnext := h.update t s'.world ⟨b, hrest, hmatch⟩
    rw [Function.update_eq_self, h.1] at hnext
    rw [h.1]
    exact hnext

theorem Related.goes_on (hf : Follows f g observe own M observeA Well) (h : Related g observe own M s s') {t : T}
    (hstep : step f s t = some s₁) (hwell : Well (s₁.threads t)) : (step g s' t).isSome := by
  obtain ⟨n, s₂', hrun, -⟩ := h.forth_step hf hstep hwell
  rw [List.replicate_succ] at hrun
  obtain ⟨u, hu, -⟩ := run_cons.mp hrun
  rw [hu]
  rfl

def AlwaysWell (f : A → W → Option (A × W)) (Well : A → Prop) (s : State T A W) : Prop :=
  ∀ ts s₁, run (step f) s ts = some s₁ → ∀ t, Well (s₁.threads t)

theorem AlwaysWell.step (h : AlwaysWell f Well s) {t : T} (hstep : step f s t = some s₁) : AlwaysWell f Well s₁ := by
  intro ts s₂ hrun
  exact h (t :: ts) s₂ (run_cons.mpr ⟨s₁, hstep, hrun⟩)

theorem AlwaysWell.of_kept {I : A → Prop} (hkeep : ∀ a w r, I a → f a w = some r → I r.1) (hwell : ∀ a, I a → Well a)
    (hs : ∀ t, I (s.threads t)) : AlwaysWell f Well s := by
  intro ts s₁ hrun t
  apply hwell
  refine run_invariant (I := fun s => ∀ u, I (s.threads u)) (fun s u _ s₂ hall hstep v => ?_) hs hrun t
  obtain ⟨a, w, hnext, rfl⟩ := step_eq_some.mp hstep
  dsimp only
  by_cases hv : v = u
  · subst hv
    rw [Function.update_self]
    exact hkeep _ _ _ (hall v) hnext
  · rw [Function.update_of_ne hv]
    exact hall v

theorem AlwaysWell.self (h : AlwaysWell f Well s) (t : T) : Well (s.threads t) := h [] s rfl t

theorem Related.back (hf : Follows f g observe own M observeA Well) (hwell : AlwaysWell f Well s) {ts' : List T}
    (h : Related g observe own M s s') (hrun : run (step g) s' ts' = some s₁') :
    ∃ ts s₁, ts.Sublist ts' ∧ run (step f) s ts = some s₁ ∧ Related g observe own M s₁ s₁' := by
  induction ts' generalizing s s' with
  | nil =>
    cases hrun
    exact ⟨[], s, .slnil, rfl, h⟩
  | cons t ts' ih =>
    obtain ⟨s₂', hstep, hrun⟩ := run_cons.mp hrun
    have hnext : ∀ s₁, step f s t = some s₁ → Well (s₁.threads t) := fun s₁ hs₁ => (hwell.step hs₁).self t
    rcases h.back_step hf hnext hstep with hsame | ⟨s₂, hs₂, hrelated⟩
    · obtain ⟨ts, s₁, hsub, hts, hlast⟩ := ih hwell hsame hrun
      exact ⟨ts, s₁, hsub.cons t, hts, hlast⟩
    · obtain ⟨ts, s₁, hsub, hts, hlast⟩ := ih (hwell.step hs₂) hrelated hrun
      exact ⟨t :: ts, s₁, hsub.cons_cons t, run_cons.mpr ⟨s₂, hs₂, hts⟩, hlast⟩

theorem Related.forth (hf : Follows f g observe own M observeA Well) (hwell : AlwaysWell f Well s) {ts : List T}
    (h : Related g observe own M s s') (hrun : run (step f) s ts = some s₁) :
    ∃ ts' s₁', ts.Sublist ts' ∧ run (step g) s' ts' = some s₁' ∧ Related g observe own M s₁ s₁' := by
  induction ts generalizing s s' with
  | nil =>
    cases hrun
    exact ⟨[], s', .slnil, rfl, h⟩
  | cons t ts ih =>
    obtain ⟨s₂, hstep, hrun⟩ := run_cons.mp hrun
    have hlater := hwell.step hstep
    obtain ⟨n, s₂', hsteps, hrelated⟩ := h.forth_step hf hstep (hlater.self t)
    obtain ⟨ts', s₁', hsub, hts', hlast⟩ := ih hlater hrelated hrun
    refine ⟨List.replicate (n + 1) t ++ ts', s₁', ?_, run_append.mpr ⟨s₂', hsteps, hts'⟩, hlast⟩
    rw [List.replicate_succ']
    simp only [List.append_assoc, List.singleton_append]
    exact (hsub.cons_cons t).trans (List.sublist_append_right _ _)

end Stutter
