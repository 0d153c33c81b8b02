import Mathlib.Data.List.Basic
import Mathlib.Data.List.Induction

namespace Layers

variable {σ κ ν β : Type*} [DecidableEq κ]

def mentions (k : κ) (ms : List (κ × ν)) : List ν := (ms.filter fun m => m.1 = k).map Prod.snd

def lastMention (k : κ) (ms : List (κ × ν)) : Option ν := (mentions k ms).getLast?

@[simp] theorem mentions_nil (k : κ) : mentions k ([] : List (κ × ν)) = [] := rfl

theorem mentions_append (k : κ) (ms ns : List (κ × ν)) : mentions k (ms ++ ns) = mentions k ms ++ mentions k ns := by
  rw [mentions, List.filter_append, List.map_append, ← mentions, ← mentions]

theorem mentions_cons_self (k : κ) (v : ν) (ms : List (κ × ν)) : mentions k ((k, v) :: ms) = v :: mentions k ms := by
  simp [mentions]

theorem mentions_cons_ne {k j : κ} (h : j ≠ k) (v : ν) (ms : List (κ × ν)) :
    mentions k ((j, v) :: ms) = mentions k ms := by
  simp [mentions, h]

theorem lastMention_append (k : κ) (ms ns : List (κ × ν)) :
    lastMention k (ms ++ ns) = (lastMention k ns).or (lastMention k ms) := by
  rw [lastMention, mentions_append, List.getLast?_append, ← lastMention, ← lastMention]

structure Replaces (apply : σ → κ × ν → σ) (k : κ) (get : σ → β) (parse : ν → β) : Prop where
  own : ∀ s v, get (apply s (k, v)) = parse v
  other : ∀ s j v, j ≠ k → get (apply s (j, v)) = get s

structure Appends (apply : σ → κ × ν → σ) (k : κ) (get : σ → List β) (items : ν → List β) : Prop where
  own : ∀ s v, get (apply s (k, v)) = get s ++ items v
  other : ∀ s j v, j ≠ k → get (apply s (j, v)) = get s

variable {apply : σ → κ × ν → σ} {k : κ}

theorem Replaces.foldl {get : σ → β} {parse : ν → β} (h : Replaces apply k get parse) (ms : List (κ × ν)) (s : σ) :
    get (ms.foldl apply s) = ((lastMention k ms).map parse).getD (get s) := by
  induction ms using List.reverseRecOn with
  | nil => rfl
  | append_singleton ms m ih =>
    obtain ⟨j, v⟩ := m
    rw [List.foldl_append, List.foldl_cons, List.foldl_nil, lastMention_append]
    by_cases hj : j = k
    · rw [hj, h.own, lastMention, mentions_cons_self]
      rfl
    · have hnone : lastMention k [(j, v)] = none := by
        rw [lastMention, mentions_cons_ne hj]
        rfl
      rw [h.other _ j v hj, ih, hnone, Option.none_or]

theorem Appends.foldl {get : σ → List β} {items : ν → List β} (h : Appends apply k get items) (ms : List (κ × ν))
    (s : σ) : get (ms.foldl apply s) = get s ++ (mentions k ms).flatMap items := by
  induction ms generalizing s with
  | nil => exact (List.append_nil _).symm
  | cons m ms ih =>
    obtain ⟨j, v⟩ := m
    rw [List.foldl_cons, ih]
    by_cases hj : j = k
    · rw [hj, h.own, mentions_cons_self, List.flatMap_cons, List.append_assoc]
    · rw [h.other _ j v hj, mentions_cons_ne hj]

def highest (k : κ) (layers : List (List (κ × ν))) : Option ν := layers.findSome? (lastMention k)

theorem lastMention_layers (k : κ) (layers : List (List (κ × ν))) :
    lastMention k layers.reverse.flatten = highest k layers := by
  induction layers with
  | nil => rfl
  | cons layer layers ih =>
    rw [List.reverse_cons, List.flatten_append, List.flatten_singleton, lastMention_append, ih, highest, highest,
      List.findSome?_cons]
    cases lastMention k layer <;> rfl

theorem Replaces.layers {get : σ → β} {parse : ν → β} (h : Replaces apply k get parse)
    (layers : List (List (κ × ν))) (s : σ) :
    get (layers.reverse.flatten.foldl apply s) = ((highest k layers).map parse).getD (get s) := by
  rw [h.foldl, lastMention_layers]

end Layers
