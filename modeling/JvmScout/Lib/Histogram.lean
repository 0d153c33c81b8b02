import JvmScout.Lib.Aggregate
import JvmScout.Lib.AssocKeys
import Mathlib.Algebra.BigOperators.Group.List.Basic
import Mathlib.Data.List.Perm.Basic
import Mathlib.Data.List.Dedup

namespace Relational

variable {ρ κ : Type*} [DecidableEq κ] (key : ρ → κ)

theorem perm_flatMap_filter {ks : List κ} (hks : ks.Nodup) (rows : List ρ) :
    (ks.flatMap fun k => rows.filter fun r => key r = k).Perm (rows.filter fun r => key r ∈ ks) := by
  induction ks with
  | nil => simp
  | cons k ks ih =>
    rw [List.nodup_cons] at hks
    rw [List.flatMap_cons]
    have hhead : (rows.filter fun r => key r = k) =
        (rows.filter fun r => key r ∈ k :: ks).filter fun r => key r = k := by
      rw [List.filter_filter]
      apply List.filter_congr
      intro r _
      by_cases hr : key r = k
      · simp [hr]
      · simp [hr]
    have htail : (rows.filter fun r => key r ∈ ks) =
        (rows.filter fun r => key r ∈ k :: ks).filter fun r => !decide (key r = k) := by
      rw [List.filter_filter]
      apply List.filter_congr
      intro r _
      by_cases hr : key r = k
      · simp [hr, hks.1]
      · simp [hr]
    apply ((ih hks.2).append_left _).trans
    rw [hhead, htail]
    exact List.filter_append_perm _ _

theorem groupBy_rows (p : κ → Bool) (rows : List ρ) :
    (((groupBy key rows).filter fun g => p g.1).flatMap Prod.snd).Perm (rows.filter fun r => p (key r)) := by
  have hgroups : ((groupBy key rows).filter fun g => p g.1).flatMap Prod.snd =
      ((rows.map key).dedup.filter p).flatMap fun k => rows.filter fun r => key r = k := by
    rw [groupBy, List.filter_map, List.flatMap_map]
    rfl
  rw [hgroups]
  apply (perm_flatMap_filter key ((List.nodup_dedup _).filter p) rows).trans
  apply List.Perm.of_eq
  apply List.filter_congr
  intro r hr
  have hmem : key r ∈ (rows.map key).dedup := List.mem_dedup.mpr (List.mem_map_of_mem hr)
  simp [List.mem_filter, hmem]

theorem key_of_mem_groupBy {rows : List ρ} {g : κ × List ρ} (hg : g ∈ groupBy key rows) :
    ∃ r ∈ rows, key r = g.1 := by
  obtain ⟨k, hk, rfl⟩ := List.mem_map.mp hg
  exact List.mem_map.mp (List.mem_dedup.mp hk)

theorem mem_groupBy_of_mem {rows : List ρ} {r : ρ} (hr : r ∈ rows) :
    ∃ g ∈ groupBy key rows, g.1 = key r := by
  refine ⟨_, List.mem_map_of_mem (List.mem_dedup.mpr (List.mem_map_of_mem hr)), rfl⟩

end Relational

namespace List

variable {α β : Type*}

theorem getElem?_foldl_modify (idx : β → ℕ) (act : β → α → α) (ys : List β) (xs : List α) (i : ℕ) :
    (ys.foldl (fun xs y => xs.modify (idx y) (act y)) xs)[i]? =
      xs[i]?.map fun x => (ys.filter fun y => idx y = i).foldl (fun x y => act y x) x := by
  induction ys generalizing xs with
  | nil => simp
  | cons y ys ih =>
    rw [foldl_cons, ih, getElem?_modify, filter_cons]
    by_cases hy : idx y = i
    · simp only [hy, decide_true, if_true, foldl_cons]
      exact Option.map_map _ _ _
    · simp only [hy, decide_false, if_false, Bool.false_eq_true]
      cases xs[i]? <;> rfl

end List

namespace Assoc

variable {ι κ β : Type*} [DecidableEq κ] (key : ι → κ) (act : ι → β → β) (init : β)

def tally (items : List ι) (d : List (κ × β)) : List (κ × β) :=
  items.foldl (fun d x => set d (key x) (act x ((get? d (key x)).getD init))) d

theorem get?_tally (items : List ι) (d : List (κ × β)) (k : κ) :
    (get? (tally key act init items d) k).getD init =
      (items.filter fun x => key x = k).foldl (fun b x => act x b) ((get? d k).getD init) := by
  induction items generalizing d with
  | nil => rfl
  | cons x items ih =>
    rw [tally, List.foldl_cons, ← tally, ih, List.filter_cons]
    by_cases hx : key x = k
    · subst hx
      simp [get?_set_self]
    · rw [if_neg (by simpa using hx), get?_set_ne _ _ hx]

theorem nodup_tally (items : List ι) {d : List (κ × β)} (hd : (keys d).Nodup) :
    (keys (tally key act init items d)).Nodup := by
  induction items generalizing d with
  | nil => exact hd
  | cons x items ih => exact ih (nodup_set hd _ _)

theorem mem_keys_tally (items : List ι) (d : List (κ × β)) (k : κ) :
    k ∈ keys (tally key act init items d) ↔ k ∈ keys d ∨ ∃ x ∈ items, key x = k := by
  induction items generalizing d with
  | nil => simp [tally]
  | cons x items ih =>
    rw [tally, List.foldl_cons, ← tally, ih, keys_set]
    split
    · rename_i hx
      constructor
      · rintro (hk | ⟨y, hy, rfl⟩)
        · exact Or.inl hk
        · exact Or.inr ⟨y, List.mem_cons_of_mem x hy, rfl⟩
      · rintro (hk | ⟨y, hy, rfl⟩)
        · exact Or.inl hk
        · rcases List.mem_cons.mp hy with rfl | hy
          · exact Or.inl hx
          · exact Or.inr ⟨y, hy, rfl⟩
    · simp [or_assoc, eq_comm]

end Assoc
