import Mathlib.Data.List.Basic
import Mathlib.Data.Rat.Defs
import Mathlib.Tactic.Basic

inductive Json where
  | null
  | bool (b : Bool)
  | int (n : ℤ)
  | float (q : ℚ)
  | str (s : String)
  | arr (xs : List Json)
  | obj (kvs : List (String × Json))

abbrev Dict := List (String × Json)

namespace Assoc

variable {κ β : Type*} [DecidableEq κ]

def get? (d : List (κ × β)) (k : κ) : Option β := (d.find? fun e => e.1 == k).map Prod.snd

/-- A key keeps the place of its first insertion. -/
def set (d : List (κ × β)) (k : κ) (v : β) : List (κ × β) :=
  match d with
  | [] => [(k, v)]
  | e :: rest => if e.1 = k then (k, v) :: rest else e :: set rest k v

@[simp] theorem get?_nil (k : κ) : get? ([] : List (κ × β)) k = none := rfl

theorem get?_cons (e : κ × β) (d : List (κ × β)) (k : κ) :
    get? (e :: d) k = if e.1 = k then some e.2 else get? d k := by
  by_cases h : e.1 = k <;> simp [get?, h]

theorem get?_set (d : List (κ × β)) (k l : κ) (v : β) :
    get? (set d k v) l = if k = l then some v else get? d l := by
  induction d with
  | nil => simp [set, get?_cons]
  | cons e rest ih =>
    by_cases he : e.1 = k
    · subst he
      simp only [set, if_true, get?_cons]
      split <;> rfl
    · simp only [set, he, if_false, get?_cons, ih]
      by_cases hl : e.1 = l
      · have hkl : k ≠ l := fun h => he (hl.trans h.symm)
        simp [hl, hkl]
      · simp [hl]

@[simp] theorem get?_set_self (d : List (κ × β)) (k : κ) (v : β) : get? (set d k v) k = some v := by
  simp [get?_set]

theorem get?_set_ne (d : List (κ × β)) {k l : κ} (v : β) (h : k ≠ l) :
    get? (set d k v) l = get? d l := by
  simp [get?_set, h]

theorem set_new {d : List (κ × β)} {k : κ} (h : get? d k = none) (v : β) : set d k v = d ++ [(k, v)] := by
  induction d with
  | nil => rfl
  | cons e d ih =>
    rw [get?_cons] at h
    split at h
    · cases h
    · rename_i hne
      rw [set, if_neg hne, ih h, List.cons_append]

theorem mem_set {d : List (κ × β)} {k : κ} {v : β} {e : κ × β} (he : e ∈ set d k v) : e ∈ d ∨ e = (k, v) := by
  induction d with
  | nil => exact .inr (List.mem_singleton.mp he)
  | cons x d ih =>
    rw [set] at he
    split at he
    · rcases List.mem_cons.mp he with rfl | he
      · exact .inr rfl
      · exact .inl (List.mem_cons_of_mem x he)
    · rcases List.mem_cons.mp he with rfl | he
      · exact .inl List.mem_cons_self
      · exact (ih he).imp_left (List.mem_cons_of_mem x)

theorem set_old {d : List (κ × β)} {k : κ} {v : β} (h : get? d k = some v) :
    ∃ as bs, d = as ++ (k, v) :: bs ∧ ∀ w, set d k w = as ++ (k, w) :: bs := by
  induction d with
  | nil => cases h
  | cons e d ih =>
    rw [get?_cons] at h
    split at h
    · rename_i heq
      cases h
      refine ⟨[], d, ?_, fun w => ?_⟩
      · rw [← heq]
        rfl
      · rw [set, if_pos heq]
        rfl
    · rename_i hne
      obtain ⟨as, bs, rfl, hset⟩ := ih h
      refine ⟨e :: as, bs, rfl, fun w => ?_⟩
      rw [set, if_neg hne, hset, List.cons_append]

end Assoc

namespace Json

mutual

def decEq : (a b : Json) → Decidable (a = b)
  | .null, .null => isTrue rfl
  | .bool a, .bool b => decidable_of_iff (a = b) (by simp)
  | .int a, .int b => decidable_of_iff (a = b) (by simp)
  | .float a, .float b => decidable_of_iff (a = b) (by simp)
  | .str a, .str b => decidable_of_iff (a = b) (by simp)
  | .arr a, .arr b => @decidable_of_iff _ (a = b) (by simp) (decEqList a b)
  | .obj a, .obj b => @decidable_of_iff _ (a = b) (by simp) (decEqDict a b)
  | .null, .bool _ | .null, .int _ | .null, .float _ | .null, .str _ | .null, .arr _ | .null, .obj _
  | .bool _, .null | .bool _, .int _ | .bool _, .float _ | .bool _, .str _ | .bool _, .arr _
  | .bool _, .obj _ | .int _, .null | .int _, .bool _ | .int _, .float _ | .int _, .str _
  | .int _, .arr _ | .int _, .obj _ | .float _, .null | .float _, .bool _ | .float _, .int _
  | .float _, .str _ | .float _, .arr _ | .float _, .obj _ | .str _, .null | .str _, .bool _
  | .str _, .int _ | .str _, .float _ | .str _, .arr _ | .str _, .obj _ | .arr _, .null
  | .arr _, .bool _ | .arr _, .int _ | .arr _, .float _ | .arr _, .str _ | .arr _, .obj _
  | .obj _, .null | .obj _, .bool _ | .obj _, .int _ | .obj _, .float _ | .obj _, .str _
  | .obj _, .arr _ => isFalse (by simp)

def decEqList : (a b : List Json) → Decidable (a = b)
  | [], [] => isTrue rfl
  | x :: xs, y :: ys =>
    @decidable_of_iff _ (x = y ∧ xs = ys) (by simp)
      (@instDecidableAnd _ _ (decEq x y) (decEqList xs ys))
  | [], _ :: _ | _ :: _, [] => isFalse (by simp)

def decEqDict : (a b : List (String × Json)) → Decidable (a = b)
  | [], [] => isTrue rfl
  | (k, x) :: xs, (l, y) :: ys =>
    @decidable_of_iff _ (k = l ∧ x = y ∧ xs = ys) (by simp [and_assoc])
      (@instDecidableAnd _ _ (inferInstanceAs (Decidable (k = l)))
        (@instDecidableAnd _ _ (decEq x y) (decEqDict xs ys)))
  | [], _ :: _ | _ :: _, [] => isFalse (by simp)

end

instance : DecidableEq Json := decEq

instance : Inhabited Json := ⟨.null⟩

def truthy : Json → Bool
  | .null => false
  | .bool b => b
  | .int n => n != 0
  | .float q => q != 0
  | .str s => s != ""
  | .arr xs => !xs.isEmpty
  | .obj kvs => !kvs.isEmpty

def orElse (a b : Json) : Json := if a.truthy then a else b

def number? : Json → Option ℚ
  | .bool b => some (if b then 1 else 0)
  | .int n => some n
  | .float q => some q
  | _ => none

end Json

namespace Dict

abbrev get? (d : Dict) (k : String) : Option Json := Assoc.get? d k

def get (d : Dict) (k : String) : Json := (get? d k).getD .null

abbrev set (d : Dict) (k : String) (v : Json) : Dict := Assoc.set d k v

def has (d : Dict) (k : String) : Bool := (get? d k).isSome

def merge (d : Dict) (other : Dict) (keep : String → Bool) : Dict :=
  other.foldl (fun d e => if keep e.1 then set d e.1 e.2 else d) d

@[simp] theorem get_set_self (d : Dict) (k : String) (v : Json) : get (set d k v) k = v := by
  simp [get]

theorem get_set_ne (d : Dict) {k l : String} (v : Json) (h : k ≠ l) :
    get (set d k v) l = get d l := by
  simp only [get, get?, set, Assoc.get?_set_ne d v h]

theorem merge_cons (d : Dict) (e : String × Json) (p : Dict) (keep : String → Bool) :
    merge d (e :: p) keep = merge (if keep e.1 then set d e.1 e.2 else d) p keep := rfl

theorem get?_merge (d p : Dict) (keep : String → Bool) (k : String) :
    get? (merge d p keep) k = (get? (merge [] p keep) k).or (get? d k) := by
  induction p generalizing d with
  | nil => simp [merge]
  | cons e p ih =>
    rw [merge_cons, merge_cons, ih, ih (if keep e.1 then set [] e.1 e.2 else [])]
    cases get? (merge [] p keep) k with
    | some v => rfl
    | none =>
      split
      · by_cases hk : e.1 = k <;> simp [Assoc.get?_set, hk]
      · simp

theorem get?_merge_cons (x : String × Json) (p : Dict) (keep : String → Bool) (k : String) :
    get? (merge [] (x :: p) keep) k =
      (get? (merge [] p keep) k).or (if keep x.1 ∧ x.1 = k then some x.2 else none) := by
  rw [merge_cons, get?_merge]
  congr 1
  by_cases hk : keep x.1 = true
  · simp only [hk, if_true, true_and, get?, set, Assoc.get?_set, Assoc.get?_nil]
  · simp [hk]

theorem keep_of_get?_merge {p : Dict} {keep : String → Bool} {k : String} {v : Json}
    (h : get? (merge [] p keep) k = some v) : keep k = true := by
  induction p with
  | nil => cases h
  | cons x p ih =>
    rw [get?_merge_cons] at h
    rcases Option.or_eq_some_iff.mp h with h | ⟨-, h⟩
    · exact ih h
    · split at h
      · rename_i hx
        rw [← hx.2]
        exact hx.1
      · cases h

theorem get?_merge_filter_ne (p : Dict) (keep : String → Bool) (k l : String) :
    get? (merge [] (p.filter fun x => x.1 ≠ l) keep) k =
      if k = l then none else get? (merge [] p keep) k := by
  induction p with
  | nil => simp [merge]
  | cons x p ih =>
    by_cases hx : x.1 = l
    · rw [List.filter_cons_of_neg (by simpa using hx), ih, get?_merge_cons]
      split
      · rfl
      · rename_i hk
        have hne : x.1 ≠ k := fun h => hk (h.symm.trans hx)
        simp [hne]
    · rw [List.filter_cons_of_pos (by simpa using hx), get?_merge_cons, ih, get?_merge_cons]
      split
      · rename_i hk
        have hne : x.1 ≠ k := fun h => hx (h.trans hk)
        simp [hne]
      · rfl

theorem merge_cons_left (e : String × Json) (d p : Dict) (keep : String → Bool) :
    merge (e :: d) p keep =
      (e.1, (get? (merge [] p keep) e.1).getD e.2) :: merge d (p.filter fun x => x.1 ≠ e.1) keep := by
  induction p generalizing e d with
  | nil => simp [merge]
  | cons x p ih =>
    rw [merge_cons, get?_merge_cons]
    by_cases hx : x.1 = e.1
    · have hset : set (e :: d) x.1 x.2 = (x.1, x.2) :: d := by simp [set, Assoc.set, hx]
      rw [hset, List.filter_cons_of_neg (by simpa using hx)]
      by_cases hk : keep x.1 = true
      · rw [if_pos hk, if_pos ⟨hk, hx⟩, ih, hx]
        cases get? (merge [] p keep) e.1 <;> rfl
      · rw [if_neg hk, if_neg fun h => hk h.1, ih, Option.or_none]
    · have hset : set (e :: d) x.1 x.2 = e :: set d x.1 x.2 := by
        simp only [set, Assoc.set]
        rw [if_neg fun h => hx h.symm]
      rw [hset, List.filter_cons_of_pos (by simpa using hx), merge_cons d]
      have hnone : ¬ (keep x.1 = true ∧ x.1 = e.1) := fun h => hx h.2
      rw [if_neg hnone, Option.or_none]
      split
      · rw [ih]
      · rw [ih]

theorem merge_eq_self {d p : Dict} {keep : String → Bool}
    (h : ∀ k v, get? (merge [] p keep) k = some v → get? d k = some v) : merge d p keep = d := by
  induction d generalizing p with
  | nil =>
    cases hm : merge [] p keep with
    | nil => rfl
    | cons e d =>
      have he := h e.1 e.2 (by rw [hm, get?, Assoc.get?_cons, if_pos rfl])
      cases he
  | cons e d ih =>
    have hhead : (get? (merge [] p keep) e.1).getD e.2 = e.2 := by
      cases hk : get? (merge [] p keep) e.1 with
      | none => rfl
      | some v => simpa [Assoc.get?_cons, eq_comm] using h e.1 v hk
    rw [merge_cons_left, hhead, ih]
    intro k v hv
    rw [get?_merge_filter_ne] at hv
    split at hv
    · cases hv
    · rename_i hk
      simpa [Assoc.get?_cons, Ne.symm hk] using h k v hv

end Dict
