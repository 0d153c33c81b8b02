import JvmScout.Agent.JvmtiShadow
import Mathlib.Data.List.Basic

/-!
Call trees of instrumented activations, with every way in which an activation can be
entered and left, and what the calls that `ShadowCodeTransform` injects make of the
thread's shadow store.
-/

namespace JvmScout.Agent.ShadowBalance

open JvmtiShadow

inductive Entry where
  | counted
  | swallowed
deriving DecidableEq

inductive Exit where
  | returned
  | unwound
  | returnThrew
deriving DecidableEq

mutual

/-- The invocation of `enterMethod` is inside the protected region: where it `failed`, the
catch-all runs although nothing was counted. -/
inductive Activation (V : Type) where
  | failed
  | ran (entry : Entry) (body : Body V) (exit : Exit)

inductive Body (V : Type) where
  | done
  | capture (slot : ℕ) (v : Option V) (rest : Body V)
  | call (callee : Activation V) (rest : Body V)

end

variable {V : Type}

def Entry.run (sh : JvmtiShadow V) : Entry → JvmtiShadow V
  | .counted => sh.enterMethod
  | .swallowed => sh

def Exit.run (sh : JvmtiShadow V) : Exit → JvmtiShadow V
  | .returned => sh.exitMethod
  | .unwound => sh.exitMethod
  | .returnThrew => sh.exitMethod.exitMethod

mutual

def Activation.run (sh : JvmtiShadow V) : Activation V → JvmtiShadow V
  | .failed => sh.exitMethod
  | .ran entry body exit => exit.run (body.run (entry.run sh))

def Body.run (sh : JvmtiShadow V) : Body V → JvmtiShadow V
  | .done => sh
  | .capture slot v rest => rest.run (sh.write slot v)
  | .call callee rest => rest.run (callee.run sh)

end

structure Live (V : Type) where
  depth : ℤ
  captured : ℕ → Option V

def Live.capture (slot : ℕ) (v : Option V) (me : Live V) : Live V :=
  if slot < maxSlots then { me with captured := Function.update me.captured slot v } else me

def Stored (sh : JvmtiShadow V) (me : Live V) : Prop :=
  0 ≤ me.depth → me.depth < maxDepth → ∀ slot < maxSlots, sh.frames me.depth.toNat slot = me.captured slot

mutual

def Activation.Balanced (outer : List (Live V)) (sh : JvmtiShadow V) : Activation V → Prop
  | .failed => (Activation.run sh .failed).depth = sh.depth
  | .ran entry body exit =>
    body.Balanced outer ⟨(entry.run sh).depth, fun _ => none⟩ (entry.run sh) ∧
      (Activation.run sh (.ran entry body exit)).depth = sh.depth

def Body.Balanced (outer : List (Live V)) (me : Live V) (sh : JvmtiShadow V) : Body V → Prop
  | .done => ∀ l ∈ me :: outer, Stored sh l
  | .capture slot v rest =>
    (∀ l ∈ me :: outer, Stored sh l) ∧ rest.Balanced outer (me.capture slot v) (sh.write slot v)
  | .call callee rest =>
    (∀ l ∈ me :: outer, Stored sh l) ∧ callee.Balanced (me :: outer) sh ∧ rest.Balanced outer me (callee.run sh)

end

def ThreadBalanced : JvmtiShadow V → List (Activation V) → Prop
  | _, [] => True
  | sh, a :: rest => a.Balanced [] sh ∧ ThreadBalanced (a.run sh) rest

mutual

def Activation.Sound (depth : ℤ) : Activation V → Prop
  | .failed => depth < 0
  | .ran entry body exit =>
    (0 ≤ depth → entry = .counted ∧ exit ≠ .returnThrew) ∧
      body.Sound (if entry = .counted then depth + 1 else depth)

def Body.Sound (depth : ℤ) : Body V → Prop
  | .done => True
  | .capture _ _ rest => rest.Sound depth
  | .call callee rest => callee.Sound depth ∧ rest.Sound depth

end

theorem enterMethod_depth (sh : JvmtiShadow V) : sh.enterMethod.depth = sh.depth + 1 := rfl

theorem exitMethod_depth (sh : JvmtiShadow V) :
    sh.exitMethod.depth = if 0 ≤ sh.depth then sh.depth - 1 else sh.depth := by
  unfold exitMethod
  split <;> rfl

theorem entry_depth (entry : Entry) (sh : JvmtiShadow V) :
    (entry.run sh).depth = if entry = .counted then sh.depth + 1 else sh.depth := by
  cases entry <;> rfl

theorem enterMethod_frames {sh : JvmtiShadow V} {e : ℕ} (he : (e : ℤ) ≤ sh.depth) :
    sh.enterMethod.frames e = sh.frames e := by
  apply clearRow_other
  omega

theorem exitMethod_frames {sh : JvmtiShadow V} {e : ℕ} (he : (e : ℤ) < sh.depth) :
    sh.exitMethod.frames e = sh.frames e := by
  unfold exitMethod
  split
  · apply clearRow_other
    omega
  · rfl

theorem entry_frames {sh : JvmtiShadow V} (entry : Entry) {e : ℕ} (he : (e : ℤ) ≤ sh.depth) :
    (entry.run sh).frames e = sh.frames e := by
  cases entry with
  | counted => exact enterMethod_frames he
  | swallowed => rfl

theorem exit_depth {entry : Entry} {exit : Exit} {d : ℤ} {sh : JvmtiShadow V} (hd : -1 ≤ d)
    (hsound : 0 ≤ d → entry = .counted ∧ exit ≠ .returnThrew)
    (hsh : sh.depth = if entry = .counted then d + 1 else d) : (exit.run sh).depth = d := by
  have hone : sh.exitMethod.depth = d := by
    rw [exitMethod_depth, hsh]
    cases entry with
    | counted =>
      rw [if_pos rfl]
      split <;> omega
    | swallowed =>
      have hlow : ¬ 0 ≤ d := fun h => nomatch (hsound h).1
      simp [hlow]
  cases exit with
  | returned => exact hone
  | unwound => exact hone
  | returnThrew =>
    have hlow : ¬ 0 ≤ d := fun h => (hsound h).2 rfl
    rw [Exit.run, exitMethod_depth, hone, if_neg hlow]

theorem exit_frames {exit : Exit} {d : ℤ} {sh : JvmtiShadow V} {e : ℕ} (he : (e : ℤ) ≤ d)
    (hsound : exit ≠ .returnThrew) (hsh : sh.depth = d + 1) : (exit.run sh).frames e = sh.frames e := by
  have hone : sh.exitMethod.frames e = sh.frames e := by
    apply exitMethod_frames
    omega
  cases exit with
  | returned => exact hone
  | unwound => exact hone
  | returnThrew => exact absurd rfl hsound

mutual

theorem Activation.Sound.frame {d : ℤ} (hd : -1 ≤ d) {sh : JvmtiShadow V} (hsh : sh.depth = d) :
    ∀ {a : Activation V}, a.Sound d → (a.run sh).depth = d ∧ ∀ e : ℕ, (e : ℤ) ≤ d → (a.run sh).frames e = sh.frames e
  | .failed, h => by
    have hlow : d < 0 := h
    rw [Activation.run]
    refine ⟨?_, fun e he => by omega⟩
    rw [exitMethod_depth, hsh, if_neg (by omega)]
  | .ran entry body exit, ⟨hends, hbody⟩ => by
    have hentry := entry_depth entry sh
    rw [hsh] at hentry
    have hlow : -1 ≤ if entry = .counted then d + 1 else d := by split <;> omega
    obtain ⟨hdepth, hrows⟩ := hbody.frame hlow hentry
    rw [Activation.run]
    refine ⟨exit_depth hd hends hdepth, fun e he => ?_⟩
    obtain ⟨hcounted, hexit⟩ := hends (by omega)
    rw [if_pos hcounted] at hdepth hrows
    rw [exit_frames he hexit hdepth, hrows e (by omega), entry_frames entry (by omega)]

theorem Body.Sound.frame {d : ℤ} (hd : -1 ≤ d) {sh : JvmtiShadow V} (hsh : sh.depth = d) :
    ∀ {b : Body V}, b.Sound d → (b.run sh).depth = d ∧ ∀ e : ℕ, (e : ℤ) < d → (b.run sh).frames e = sh.frames e
  | .done, _ => ⟨hsh, fun _ _ => rfl⟩
  | .capture slot v rest, h => by
    have hrest : rest.Sound d := h
    obtain ⟨hdepth, hrows⟩ := hrest.frame hd ((write_depth slot v sh).trans hsh)
    refine ⟨hdepth, fun e he => (hrows e he).trans ?_⟩
    apply write_other
    omega
  | .call callee rest, ⟨hcallee, hrest⟩ => by
    obtain ⟨hdepth, hrows⟩ := hcallee.frame hd hsh
    obtain ⟨hdepth', hrows'⟩ := hrest.frame hd hdepth
    exact ⟨hdepth', fun e he => (hrows' e he).trans (hrows e he.le)⟩

end

theorem Stored.of_row {sh sh' : JvmtiShadow V} {l : Live V} (h : Stored sh l)
    (hrow : 0 ≤ l.depth → sh'.frames l.depth.toNat = sh.frames l.depth.toNat) : Stored sh' l := by
  intro hlow hhigh slot hslot
  rw [hrow hlow]
  exact h hlow hhigh slot hslot

theorem stored_entered {entry : Entry} {sh : JvmtiShadow V} (hsound : 0 ≤ sh.depth → entry = .counted) :
    Stored (entry.run sh) ⟨(entry.run sh).depth, fun _ => none⟩ := by
  intro hlow hhigh slot _
  dsimp only at hlow hhigh ⊢
  rw [entry_depth] at hlow hhigh
  rw [entry_depth]
  cases entry with
  | counted =>
    rw [if_pos rfl] at hlow hhigh ⊢
    obtain ⟨e, he⟩ := Int.eq_ofNat_of_zero_le hlow
    have hrow := clearRow_self (d := e) (by omega) sh
    rw [Entry.run, enterMethod, he, Int.toNat_natCast]
    exact congrFun hrow slot
  | swallowed =>
    rw [if_neg (fun h => nomatch h)] at hlow
    exact absurd (hsound hlow) (fun h => nomatch h)

theorem Live.capture_depth (slot : ℕ) (v : Option V) (me : Live V) : (me.capture slot v).depth = me.depth := by
  unfold Live.capture
  split <;> rfl

theorem Stored.capture {sh : JvmtiShadow V} {me : Live V} (h : Stored sh me) (hd : sh.depth = me.depth) (slot : ℕ)
    (v : Option V) : Stored (sh.write slot v) (me.capture slot v) := by
  by_cases hslot : slot < maxSlots
  · intro hlow hhigh i hi
    rw [Live.capture_depth] at hlow hhigh ⊢
    obtain ⟨e, he⟩ := Int.eq_ofNat_of_zero_le hlow
    have hrow := h hlow hhigh i hi
    rw [he, Int.toNat_natCast] at hrow ⊢
    rw [write_self (hd.trans he) (by omega) hslot, Live.capture, if_pos hslot]
    dsimp only
    by_cases heq : i = slot
    · subst heq
      simp
    · rw [Function.update_of_ne heq, Function.update_of_ne heq]
      exact hrow
  · rw [write_past (by omega), Live.capture, if_neg hslot]
    exact h

theorem Stored.write_above {sh : JvmtiShadow V} {l : Live V} (h : Stored sh l) (hl : 0 ≤ l.depth → l.depth < sh.depth)
    (slot : ℕ) (v : Option V) : Stored (sh.write slot v) l := by
  apply h.of_row
  intro hlow
  have hbelow := hl hlow
  apply write_other
  omega

mutual

theorem Activation.Sound.balanced {outer : List (Live V)} {sh : JvmtiShadow V} (hd : -1 ≤ sh.depth)
    (hbelow : ∀ l ∈ outer, 0 ≤ l.depth → l.depth ≤ sh.depth) (hstored : ∀ l ∈ outer, Stored sh l) :
    ∀ {a : Activation V}, a.Sound sh.depth → a.Balanced outer sh
  | .failed, h => (h.frame hd rfl).1
  | .ran entry body exit, h => by
    have hends := h.1
    have hentry := entry_depth entry sh
    refine ⟨?_, (h.frame hd rfl).1⟩
    refine Body.Sound.balanced rfl ?_ ?_ ?_ ?_
    · dsimp only
      rw [hentry]
      split <;> omega
    · intro l hl hlow
      have hle := hbelow l hl hlow
      dsimp only
      rw [hentry, if_pos (hends (by omega)).1]
      omega
    · intro l hl
      rcases List.mem_cons.mp hl with rfl | hl
      · exact stored_entered fun hlow => (hends hlow).1
      · apply (hstored l hl).of_row
        intro hlow
        have hle := hbelow l hl hlow
        apply entry_frames
        omega
    · dsimp only
      rw [hentry]
      exact h.2

theorem Body.Sound.balanced {outer : List (Live V)} {me : Live V} {sh : JvmtiShadow V} (hsh : sh.depth = me.depth)
    (hd : -1 ≤ me.depth) (hbelow : ∀ l ∈ outer, 0 ≤ l.depth → l.depth < me.depth)
    (hstored : ∀ l ∈ me :: outer, Stored sh l) : ∀ {b : Body V}, b.Sound me.depth → b.Balanced outer me sh
  | .done, _ => hstored
  | .capture slot v rest, h => by
    refine ⟨hstored, ?_⟩
    have hdepth := Live.capture_depth slot v me
    refine Body.Sound.balanced ?_ ?_ ?_ ?_ ?_
    · rw [write_depth, hdepth]
      exact hsh
    · rw [hdepth]
      exact hd
    · rw [hdepth]
      exact hbelow
    · intro l hl
      rcases List.mem_cons.mp hl with rfl | hl
      · exact (hstored me List.mem_cons_self).capture hsh slot v
      · apply (hstored l (List.mem_cons_of_mem me hl)).write_above
        rw [hsh]
        exact hbelow l hl
    · rw [hdepth]
      exact h
  | .call callee rest, h => by
    have hcallee : callee.Sound sh.depth := by
      rw [hsh]
      exact h.1
    have hrunning : ∀ l ∈ me :: outer, 0 ≤ l.depth → l.depth ≤ sh.depth := by
      intro l hl hlow
      rcases List.mem_cons.mp hl with rfl | hl
      · exact hsh.ge
      · exact (hbelow l hl hlow).le.trans hsh.ge
    have hlow : -1 ≤ sh.depth := hsh ▸ hd
    obtain ⟨hdepth, hrows⟩ := hcallee.frame hlow rfl
    refine ⟨hstored, hcallee.balanced hlow hrunning hstored, ?_⟩
    refine Body.Sound.balanced (hdepth.trans hsh) hd hbelow ?_ h.2
    intro l hl
    apply (hstored l hl).of_row
    intro hl0
    have hle := hrunning l hl hl0
    apply hrows
    omega

end

mutual

theorem Activation.Balanced.sound {outer : List (Live V)} {sh : JvmtiShadow V} (hd : -1 ≤ sh.depth) :
    ∀ {a : Activation V}, a.Balanced outer sh → a.Sound sh.depth
  | .failed, h => by
    have hdepth : sh.exitMethod.depth = sh.depth := h
    rw [exitMethod_depth] at hdepth
    change sh.depth < 0
    split at hdepth <;> omega
  | .ran entry body exit, h => by
    have hentry := entry_depth entry sh
    have hlow : -1 ≤ (entry.run sh).depth := by
      rw [hentry]
      split <;> omega
    have hbody : body.Sound (entry.run sh).depth := Body.Balanced.sound hlow h.1
    have hrun := (hbody.frame hlow rfl).1
    have hdepth := h.2
    rw [Activation.run] at hdepth
    constructor
    · intro hpos
      cases entry with
      | swallowed =>
        rw [hentry, if_neg (fun h => nomatch h)] at hrun
        cases exit
        all_goals
          simp only [Exit.run, exitMethod_depth, hrun] at hdepth
          split at hdepth <;> omega
      | counted =>
        refine ⟨rfl, ?_⟩
        rintro rfl
        rw [hentry, if_pos rfl] at hrun
        have hone : (body.run (Entry.counted.run sh)).exitMethod.depth = sh.depth := by
          rw [exitMethod_depth, hrun, if_pos (by omega)]
          omega
        rw [Exit.run, exitMethod_depth, hone, if_pos hpos] at hdepth
        omega
    · rw [← hentry]
      exact hbody

theorem Body.Balanced.sound {outer : List (Live V)} {me : Live V} {sh : JvmtiShadow V} (hd : -1 ≤ sh.depth) :
    ∀ {b : Body V}, b.Balanced outer me sh → b.Sound sh.depth
  | .done, _ => trivial
  | .capture slot v rest, h => by
    have hdepth := write_depth slot v sh
    have hrest := Body.Balanced.sound (by omega) h.2
    rw [hdepth] at hrest
    exact hrest
  | .call callee rest, h => by
    have hcallee := Activation.Balanced.sound hd h.2.1
    have hdepth := (hcallee.frame hd rfl).1
    have hrest := Body.Balanced.sound (by omega) h.2.2
    rw [hdepth] at hrest
    exact ⟨hcallee, hrest⟩

end

theorem threadBalanced_iff_of_depth {sh : JvmtiShadow V} (hsh : sh.depth = -1) (roots : List (Activation V)) :
    ThreadBalanced sh roots ↔ ∀ a ∈ roots, a.Sound (-1) := by
  have hlow : -1 ≤ sh.depth := hsh.ge
  induction roots generalizing sh with
  | nil => simp [ThreadBalanced]
  | cons a roots ih =>
    rw [List.forall_mem_cons, ThreadBalanced]
    constructor
    · rintro ⟨ha, hrest⟩
      have hsound := ha.sound hlow
      have hdepth := (hsound.frame hlow rfl).1.trans hsh
      rw [hsh] at hsound
      exact ⟨hsound, (ih hdepth hdepth.ge).mp hrest⟩
    · rintro ⟨ha, hrest⟩
      rw [← hsh] at ha
      have hdepth := (ha.frame hlow rfl).1.trans hsh
      refine ⟨ha.balanced hlow ?_ ?_, (ih hdepth hdepth.ge).mpr hrest⟩
      · exact fun _ hl => nomatch hl
      · exact fun _ hl => nomatch hl

/-- The shadow store of a thread stays balanced exactly when, below its first counted activations,
no `enterMethod` goes uncounted and no return throws after its `exitMethod`. -/
theorem threadBalanced_iff (roots : List (Activation V)) :
    ThreadBalanced initial roots ↔ ∀ a ∈ roots, a.Sound (-1) :=
  threadBalanced_iff_of_depth rfl roots

theorem failed_entry_unbalanced :
    ¬ ThreadBalanced (initial : JvmtiShadow ℕ) [.ran .counted (.capture 0 (some 7) (.call .failed .done)) .returned] := by
  rintro ⟨⟨⟨-, -, hcallee, -⟩, -⟩, -⟩
  have hdepth : ((initial : JvmtiShadow ℕ).enterMethod.write 0 (some 7)).exitMethod.depth =
      ((initial : JvmtiShadow ℕ).enterMethod.write 0 (some 7)).depth := hcallee
  rw [exitMethod_depth, write_depth, enterMethod_depth] at hdepth
  exact absurd hdepth (by decide)

end JvmScout.Agent.ShadowBalance
