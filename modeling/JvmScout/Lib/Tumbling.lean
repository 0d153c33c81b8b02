import JvmScout.Lib.Window
import Mathlib.Data.List.Induction

namespace Tumbling

variable {τ : Type*}

def addHit (isOver : τ → τ → Bool) (ws : List (List τ)) (t : τ) : List (List τ) :=
  match ws with
  | [] => [[t]]
  | w :: ws => if w.head?.any fun start => isOver start t then [t] :: w :: ws else (w ++ [t]) :: ws

def windows (isOver : τ → τ → Bool) (ts : List τ) : List (List τ) := ts.foldl (addHit isOver) []

variable {isOver : τ → τ → Bool}

theorem windows_concat (ts : List τ) (t : τ) : windows isOver (ts ++ [t]) = addHit isOver (windows isOver ts) t := by
  rw [windows, List.foldl_append]
  rfl

theorem flatten_windows (isOver : τ → τ → Bool) (ts : List τ) : (windows isOver ts).reverse.flatten = ts := by
  induction ts using List.reverseRecOn with
  | nil => rfl
  | append_singleton ts t ih =>
    rw [windows_concat]
    unfold addHit
    split
    · rename_i hnil
      rw [hnil] at ih
      rw [← ih]
      rfl
    · rename_i w ws hcons
      rw [hcons] at ih
      simp only [List.reverse_cons, List.flatten_append, List.flatten_singleton] at ih
      split
      · simp only [List.reverse_cons, List.flatten_append, List.flatten_singleton]
        rw [ih]
      · simp only [List.reverse_cons, List.flatten_append, List.flatten_singleton]
        rw [← List.append_assoc, ih]

theorem eq_nil_of_windows {ts : List τ} (h : windows isOver ts = []) : ts = [] := by
  rw [← flatten_windows isOver ts, h]
  rfl

theorem windows_ne_nil {ts w : List τ} (hw : w ∈ windows isOver ts) : w ≠ [] := by
  induction ts using List.reverseRecOn generalizing w with
  | nil => cases hw
  | append_singleton ts t ih =>
    rw [windows_concat] at hw
    unfold addHit at hw
    split at hw
    · rw [List.mem_singleton.mp hw]
      exact List.cons_ne_nil t []
    · rename_i v ws hcons
      rw [hcons] at ih
      split at hw
      · rcases List.mem_cons.mp hw with rfl | hw
        · exact List.cons_ne_nil t []
        · exact ih hw
      · rcases List.mem_cons.mp hw with rfl | hw
        · simp
        · exact ih (List.mem_cons_of_mem v hw)

theorem mem_of_mem_windows {ts w : List τ} (hw : w ∈ windows isOver ts) {t : τ} (ht : t ∈ w) : t ∈ ts := by
  rw [← flatten_windows isOver ts]
  exact List.mem_flatten.mpr ⟨w, List.mem_reverse.mpr hw, ht⟩

theorem windows_congr {isOver' : τ → τ → Bool} {ts : List τ} (h : ∀ s ∈ ts, ∀ t, isOver s t = isOver' s t) :
    windows isOver ts = windows isOver' ts := by
  induction ts using List.reverseRecOn with
  | nil => rfl
  | append_singleton ts t ih =>
    have hsame := ih fun s hs => h s (List.mem_append_left [t] hs)
    rw [windows_concat, windows_concat, ← hsame]
    cases hwin : windows isOver ts with
    | nil => rfl
    | cons w ws =>
      have hhead : (w.head?.any fun start => isOver start t) = w.head?.any fun start => isOver' start t := by
        cases w with
        | nil => rfl
        | cons s w =>
          have hw : s :: w ∈ windows isOver ts := by
            rw [hwin]
            exact List.mem_cons_self
          have hs : s ∈ ts := mem_of_mem_windows hw List.mem_cons_self
          simp [h s (List.mem_append_left [t] hs) t]
      rw [addHit, addHit, hhead]

theorem windows_chain (ts : List τ) :
    (windows isOver ts).IsChain fun w v => ∀ t ∈ w.head?, ∀ s ∈ v.head?, isOver s t = true := by
  induction ts using List.reverseRecOn with
  | nil => exact .nil
  | append_singleton ts t ih =>
    rw [windows_concat]
    unfold addHit
    split
    · exact .singleton [t]
    · rename_i w ws hcons
      have hw : w ≠ [] := by
        apply windows_ne_nil
        rw [hcons]
        exact List.mem_cons_self
      rw [hcons] at ih
      split
      · rename_i hover
        apply List.isChain_cons_cons.mpr
        refine ⟨?_, ih⟩
        intro u hu s hs
        cases hu
        rw [Option.mem_def] at hs
        simpa [hs] using hover
      · obtain ⟨start, w, rfl⟩ := List.exists_cons_of_ne_nil hw
        cases ws with
        | nil => exact .singleton _
        | cons v ws =>
          rw [List.isChain_cons_cons] at ih
          exact List.isChain_cons_cons.mpr ⟨ih.1, ih.2⟩

section Order

variable [LinearOrder τ] {ahead : τ → τ}

theorem apart_of_chain (mono : Monotone ahead) {blocks : List (List τ)}
    (hchain : blocks.IsChain fun v w => ∀ s ∈ v.head?, ∀ t ∈ w.head?, ahead s ≤ t) (hne : ∀ w ∈ blocks, w ≠ [])
    (hs : blocks.flatten.Pairwise (· ≤ ·)) : Window.Apart ahead blocks := by
  match blocks with
  | [] => trivial
  | [_] => trivial
  | u :: v :: rest =>
    have hsplit := List.pairwise_append.mp hs
    refine ⟨?_, apart_of_chain mono hchain.tail (fun w hw => hne w (List.mem_cons_of_mem u hw)) hsplit.2.1⟩
    obtain ⟨start, v', hv⟩ := List.exists_cons_of_ne_nil (hne v (by simp))
    subst hv
    intro x hx y hy
    have hstart : x ≤ start := hsplit.2.2 x hx start (by simp)
    cases rest with
    | nil => cases hy
    | cons w rest =>
      obtain ⟨next, w', hw⟩ := List.exists_cons_of_ne_nil (hne w (by simp))
      subst hw
      have hnext : ahead start ≤ next := by
        have hlink := (List.isChain_cons_cons.mp (List.isChain_cons_cons.mp hchain).2).1
        exact hlink start rfl next rfl
      have hlast : next ≤ y := by
        have hlater := (List.pairwise_append.mp hsplit.2.1).2.1
        rw [List.flatten_cons, List.cons_append, List.mem_cons] at hy
        rw [List.flatten_cons, List.cons_append, List.pairwise_cons] at hlater
        rcases hy with rfl | hy
        · exact le_rfl
        · exact hlater.1 y hy
      exact ((mono hstart).trans hnext).trans hlast

end Order

end Tumbling
