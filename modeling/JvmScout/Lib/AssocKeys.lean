import JvmScout.Lib.Json
import Mathlib.Data.List.Nodup

namespace Assoc

variable {κ β : Type*}

def keys (d : List (κ × β)) : List κ := d.map Prod.fst

@[simp] theorem keys_nil : keys ([] : List (κ × β)) = [] := rfl

@[simp] theorem keys_cons (e : κ × β) (d : List (κ × β)) : keys (e :: d) = e.1 :: keys d := rfl

theorem nodup_filter {d : List (κ × β)} (hd : (keys d).Nodup) (p : κ × β → Bool) : (keys (d.filter p)).Nodup :=
  hd.sublist (List.filter_sublist.map Prod.fst)

variable [DecidableEq κ]

def setAll (d : List (κ × β)) (ks : List κ) (v : β) : List (κ × β) := ks.foldl (fun d k => set d k v) d

theorem get?_setAll (d : List (κ × β)) (ks : List κ) (v : β) (k : κ) :
    get? (setAll d ks v) k = if k ∈ ks then some v else get? d k := by
  unfold setAll
  induction ks generalizing d with
  | nil => simp
  | cons l ks ih =>
    rw [List.foldl_cons, ih, get?_set]
    by_cases hk : k ∈ ks
    · rw [if_pos hk, if_pos (List.mem_cons_of_mem l hk)]
    · by_cases hl : l = k
      · rw [if_neg hk, if_pos hl, if_pos (hl ▸ List.mem_cons_self)]
      · rw [if_neg hk, if_neg hl, if_neg fun h => (List.mem_cons.mp h).elim (fun heq => hl heq.symm) hk]

def remove (d : List (κ × β)) (k : κ) : List (κ × β) := d.filter fun e => e.1 ≠ k

theorem get?_eq_none {d : List (κ × β)} {k : κ} : get? d k = none ↔ k ∉ keys d := by
  induction d with
  | nil => simp
  | cons e d ih =>
    rw [get?_cons, keys_cons, List.mem_cons, not_or, ← ih]
    by_cases he : e.1 = k
    · simp [he]
    · simp [he, Ne.symm he]

theorem mem_of_get? {d : List (κ × β)} {k : κ} {v : β} (h : get? d k = some v) : (k, v) ∈ d := by
  obtain ⟨as, bs, rfl, -⟩ := set_old h
  exact List.mem_append_right as List.mem_cons_self

theorem mem_keys_of_get? {d : List (κ × β)} {k : κ} {v : β} (h : get? d k = some v) : k ∈ keys d :=
  List.mem_map_of_mem (mem_of_get? h)

theorem get?_of_mem {d : List (κ × β)} (hd : (keys d).Nodup) {e : κ × β} (he : e ∈ d) :
    get? d e.1 = some e.2 := by
  induction d with
  | nil => cases he
  | cons x d ih =>
    rw [keys_cons, List.nodup_cons] at hd
    rw [get?_cons]
    rcases List.mem_cons.mp he with rfl | he
    · rw [if_pos rfl]
    · have hne : x.1 ≠ e.1 := by
        intro hx
        apply hd.1
        rw [hx]
        exact List.mem_map_of_mem he
      rw [if_neg hne]
      exact ih hd.2 he

theorem keys_set (d : List (κ × β)) (k : κ) (v : β) :
    keys (set d k v) = if k ∈ keys d then keys d else keys d ++ [k] := by
  cases hd : get? d k with
  | none =>
    rw [set_new hd, if_neg (get?_eq_none.mp hd)]
    simp [keys]
  | some w =>
    rw [if_pos (mem_keys_of_get? hd)]
    obtain ⟨as, bs, rfl, hset⟩ := set_old hd
    rw [hset]
    simp [keys]

theorem nodup_set {d : List (κ × β)} (hd : (keys d).Nodup) (k : κ) (v : β) : (keys (set d k v)).Nodup := by
  rw [keys_set]
  split
  · exact hd
  · rename_i hk
    exact List.nodup_append.mpr ⟨hd, List.nodup_singleton k, by
      intro a ha b hb
      rw [List.mem_singleton.mp hb]
      exact fun h => hk (h ▸ ha)⟩

theorem filter_key {d : List (κ × β)} (hd : (keys d).Nodup) {e : κ × β} (he : e ∈ d) :
    (d.filter fun x => x.1 = e.1) = [e] := by
  induction d with
  | nil => cases he
  | cons x d ih =>
    rw [keys_cons, List.nodup_cons] at hd
    rw [List.filter_cons]
    rcases List.mem_cons.mp he with rfl | he
    · have hrest : (d.filter fun x => x.1 = e.1) = [] := by
        apply List.filter_eq_nil_iff.mpr
        intro y hy
        simp only [decide_eq_true_eq]
        exact fun heq => hd.1 (heq ▸ List.mem_map_of_mem hy)
      rw [if_pos (decide_eq_true rfl), hrest]
    · have hne : x.1 ≠ e.1 := by
        intro heq
        apply hd.1
        rw [heq]
        exact List.mem_map_of_mem he
      rw [if_neg (by simpa using hne)]
      exact ih hd.2 he

theorem get?_filter {d : List (κ × β)} (hd : (keys d).Nodup) (p : κ × β → Bool) (k : κ) :
    get? (d.filter p) k = (get? d k).filter fun v => p (k, v) := by
  induction d with
  | nil => rfl
  | cons e d ih =>
    rw [keys_cons, List.nodup_cons] at hd
    rw [get?_cons, List.filter_cons]
    by_cases he : e.1 = k
    · subst he
      have hrest : get? (d.filter p) e.1 = none := by
        rw [ih hd.2, get?_eq_none.mpr hd.1]
        rfl
      rw [if_pos rfl, Option.filter_some]
      split
      · rw [get?_cons, if_pos rfl]
      · exact hrest
    · rw [if_neg he, ← ih hd.2]
      split
      · rw [get?_cons, if_neg he]
      · rfl

theorem get?_remove (d : List (κ × β)) (k l : κ) : get? (remove d k) l = if k = l then none else get? d l := by
  induction d with
  | nil => simp [remove]
  | cons e d ih =>
    rw [remove, List.filter_cons]
    by_cases he : e.1 = k
    · rw [if_neg (by simp [he]), ← remove, ih, get?_cons]
      by_cases hl : k = l
      · rw [if_pos hl, if_pos hl]
      · rw [if_neg hl, if_neg hl, if_neg fun h => hl (he.symm.trans h)]
    · rw [if_pos (by simpa using he), ← remove, get?_cons, ih, get?_cons]
      by_cases hl : e.1 = l
      · rw [if_pos hl, if_pos hl, if_neg fun h => he (hl.trans h.symm)]
      · rw [if_neg hl, if_neg hl]

theorem set_self {d : List (κ × β)} {k : κ} {v : β} (h : get? d k = some v) : set d k v = d := by
  obtain ⟨as, bs, hd, hset⟩ := set_old h
  rw [hset, ← hd]

theorem set_set (d : List (κ × β)) (k : κ) (v w : β) : set (set d k v) k w = set d k w := by
  induction d with
  | nil => simp [set]
  | cons e d ih =>
    by_cases he : e.1 = k
    · simp [set, he]
    · simp [set, he, ih]

theorem set_comm {d : List (κ × β)} {k l : κ} (hkl : k ≠ l) (hk : k ∈ keys d) (v w : β) :
    set (set d k v) l w = set (set d l w) k v := by
  induction d with
  | nil => cases hk
  | cons e d ih =>
    by_cases he : e.1 = k
    · have hel : e.1 ≠ l := fun h => hkl (he.symm.trans h)
      simp [set, he, hkl]
    · have hrest : k ∈ keys d := by simpa [Ne.symm he] using hk
      by_cases hel : e.1 = l
      · simp [set, hel, Ne.symm hkl]
      · simp [set, he, hel, ih hrest]

end Assoc
