import JvmScout.Agent.Sampler
import JvmScout.Lib.AssocKeys
import JvmScout.Lib.Recency
import Mathlib.Algebra.Order.BigOperators.Group.List
import Mathlib.Algebra.Order.Ring.Nat
import Mathlib.Data.List.Perm.Basic

namespace JvmScout.Agent.Sampler

namespace Stripe

def order (sp : Stripe) : List Bytes := sp.lru.map Prod.snd

structure Synced (sp : Stripe) : Prop where
  keyed : (Assoc.keys sp.states).Nodup
  nodes : (sp.lru.map Prod.fst).Nodup
  once : sp.order.Nodup
  same : ∀ k, k ∈ sp.order ↔ k ∈ Assoc.keys sp.states
  points : ∀ k st, Assoc.get? sp.states k = some st → (st.lruIt, k) ∈ sp.lru
  fresh : ∀ node ∈ sp.lru, node.1 < sp.nextNode

theorem synced_empty : Synced empty := by
  constructor
  · exact List.nodup_nil
  · exact List.nodup_nil
  · exact List.nodup_nil
  · exact fun _ => Iff.rfl
  · exact fun _ _ h => nomatch h
  · exact fun _ h => nomatch h

variable {sp : Stripe} {n : ℕ} {fp : Bytes}

theorem Synced.length (h : Synced sp) : sp.order.length = sp.states.length := by
  have hperm : sp.order.Perm (Assoc.keys sp.states) := (List.perm_ext_iff_of_nodup h.once h.keyed).mpr h.same
  rw [hperm.length_eq, Assoc.keys, List.length_map]

theorem Synced.not_mem_order (h : Synced sp) (hnew : Assoc.get? sp.states fp = none) : fp ∉ sp.order := by
  rw [h.same]
  exact Assoc.get?_eq_none.mp hnew

theorem evict_of_room (hroom : sp.states.length < n) : sp.evict n = sp := by
  unfold evict
  apply if_neg
  omega

theorem Synced.evict_of_full (h : Synced sp) (hn : 1 ≤ n) (hfull : n ≤ sp.states.length) :
    ∃ victim, sp.lru.getLast? = some victim ∧
      sp.evict n = { sp with lru := sp.lru.dropLast, states := Assoc.remove sp.states victim.2 } := by
  have hne : sp.lru ≠ [] := by
    intro hnil
    have hlen := h.length
    rw [order, hnil, List.map_nil, List.length_nil] at hlen
    omega
  refine ⟨sp.lru.getLast hne, List.getLast?_eq_some_getLast hne, ?_⟩
  rw [evict, if_pos hfull, List.getLast?_eq_some_getLast hne]
  rfl

theorem Synced.evict (h : Synced sp) (hn : 1 ≤ n) : Synced (sp.evict n) := by
  by_cases hfull : n ≤ sp.states.length
  · obtain ⟨victim, hlast, hevict⟩ := h.evict_of_full hn hfull
    obtain ⟨front, hlru⟩ := List.getLast?_eq_some_iff.mp hlast
    have hnodes := h.nodes
    have honce := h.once
    rw [hlru, List.map_append, List.map_singleton, List.nodup_append] at hnodes
    rw [order, hlru, List.map_append, List.map_singleton, List.nodup_append] at honce
    have hvictim : victim.2 ∉ front.map Prod.snd := fun hmem => honce.2.2 _ hmem _ (List.mem_singleton_self _) rfl
    have hsame (k : Bytes) : k ∈ front.map Prod.snd ↔ k ∈ Assoc.keys sp.states ∧ k ≠ victim.2 := by
      rw [← h.same k, order, hlru, List.map_append, List.map_singleton, List.mem_append, List.mem_singleton]
      constructor
      · intro hk
        refine ⟨.inl hk, ?_⟩
        rintro rfl
        exact hvictim hk
      · rintro ⟨hk | hk, hne⟩
        · exact hk
        · exact absurd hk hne
    rw [hevict, hlru, List.dropLast_concat]
    constructor
    · exact Assoc.nodup_filter h.keyed _
    · exact hnodes.1
    · exact honce.1
    · intro k
      dsimp only [order]
      rw [hsame, ← not_iff_not, ← Assoc.get?_eq_none, Assoc.get?_remove]
      by_cases hk : victim.2 = k
      · simp [hk]
      · rw [if_neg hk, Assoc.get?_eq_none]
        simp [Ne.symm hk]
    · intro k st hget
      rw [Assoc.get?_remove] at hget
      split at hget
      · cases hget
      · rename_i hne
        have hmem := h.points k st hget
        rw [hlru, List.mem_append, List.mem_singleton] at hmem
        rcases hmem with hmem | rfl
        · exact hmem
        · exact absurd rfl hne
    · intro node hnode
      apply h.fresh
      rw [hlru]
      exact List.mem_append_left _ hnode
  · rw [evict_of_room (by omega)]
    exact h

theorem Synced.push (h : Synced sp) (hnew : Assoc.get? sp.states fp = none) {st : State} (hst : st.lruIt = sp.nextNode) :
    Synced ⟨Assoc.set sp.states fp st, (sp.nextNode, fp) :: sp.lru, sp.nextNode + 1⟩ := by
  have hkeys := Assoc.keys_set sp.states fp st
  rw [if_neg (Assoc.get?_eq_none.mp hnew)] at hkeys
  constructor
  · exact Assoc.nodup_set h.keyed fp st
  · apply List.nodup_cons.mpr
    refine ⟨fun hmem => ?_, h.nodes⟩
    obtain ⟨node, hnode, heq⟩ := List.mem_map.mp hmem
    have hlt := h.fresh node hnode
    dsimp only at heq
    omega
  · apply List.nodup_cons.mpr
    exact ⟨h.not_mem_order hnew, h.once⟩
  · intro k
    dsimp only [order]
    rw [hkeys, List.map_cons, List.mem_cons, List.mem_append, List.mem_singleton, ← h.same k]
    exact Or.comm
  · intro k st' hget
    rw [Assoc.get?_set] at hget
    split at hget
    · rename_i heq
      cases hget
      rw [heq, hst]
      exact List.mem_cons_self
    · exact List.mem_cons_of_mem _ (h.points k st' hget)
  · intro node hnode
    rcases List.mem_cons.mp hnode with rfl | hnode
    · exact Nat.lt_succ_self _
    · exact (h.fresh node hnode).trans (Nat.lt_succ_self _)

theorem Synced.filter_node (h : Synced sp) {st : State} (hget : Assoc.get? sp.states fp = some st) :
    splice st.lruIt sp.lru = (st.lruIt, fp) :: sp.lru.filter fun node => node.2 ≠ fp := by
  have hmem := h.points fp st hget
  have hnode (node : ℕ × Bytes) (hn : node ∈ sp.lru) : node.1 = st.lruIt ↔ node.2 = fp := by
    constructor
    · intro heq
      exact congrArg Prod.snd (List.inj_on_of_nodup_map h.nodes hn hmem heq)
    · intro heq
      exact congrArg Prod.fst (List.inj_on_of_nodup_map h.once hn hmem heq)
  have hone : (sp.lru.filter fun node => node.1 = st.lruIt) = [(st.lruIt, fp)] := Assoc.filter_key h.nodes hmem
  have hrest : (sp.lru.filter fun node => node.1 ≠ st.lruIt) = sp.lru.filter fun node => node.2 ≠ fp := by
    apply List.filter_congr
    intro node hn
    simp [hnode node hn]
  rw [Sampler.splice, hone, hrest]
  rfl

theorem Synced.splice (h : Synced sp) {st : State} (hget : Assoc.get? sp.states fp = some st) :
    Synced { sp with lru := splice st.lruIt sp.lru } ∧
      ({ sp with lru := Sampler.splice st.lruIt sp.lru } : Stripe).order = fp :: sp.order.filter fun k => k ≠ fp := by
  have hperm : (Sampler.splice st.lruIt sp.lru).Perm sp.lru := by
    have hfilter := List.filter_append_perm (fun node : ℕ × Bytes => node.1 = st.lruIt) sp.lru
    simpa [Sampler.splice] using hfilter
  constructor
  · constructor
    · exact h.keyed
    · exact (hperm.map Prod.fst).nodup_iff.mpr h.nodes
    · exact (hperm.map Prod.snd).nodup_iff.mpr h.once
    · intro k
      rw [← h.same k]
      exact (hperm.map Prod.snd).mem_iff
    · exact fun k st' hk => hperm.mem_iff.mpr (h.points k st' hk)
    · exact fun node hnode => h.fresh node (hperm.mem_iff.mp hnode)
  · dsimp only [order]
    rw [h.filter_node hget, List.map_cons, List.filter_map]
    rfl

theorem Synced.store (h : Synced sp) {st st' : State} (hget : Assoc.get? sp.states fp = some st)
    (hit : st'.lruIt = st.lruIt) : Synced { sp with states := Assoc.set sp.states fp st' } := by
  have hkeys := Assoc.keys_set sp.states fp st'
  rw [if_pos (Assoc.mem_keys_of_get? hget)] at hkeys
  constructor
  · exact Assoc.nodup_set h.keyed fp st'
  · exact h.nodes
  · exact h.once
  · intro k
    rw [hkeys]
    exact h.same k
  · intro k st'' hk
    rw [Assoc.get?_set] at hk
    split at hk
    · rename_i heq
      cases hk
      rw [← heq, hit]
      exact h.points fp st hget
    · exact h.points k st'' hk
  · exact h.fresh

theorem Synced.get?_evict (h : Synced sp) (hn : 1 ≤ n) {k : Bytes} {st : State}
    (hget : Assoc.get? (sp.evict n).states k = some st) : Assoc.get? sp.states k = some st := by
  by_cases hfull : n ≤ sp.states.length
  · obtain ⟨victim, -, hevict⟩ := h.evict_of_full hn hfull
    rw [hevict, Assoc.get?_remove] at hget
    split at hget
    · cases hget
    · exact hget
  · rwa [evict_of_room (by omega)] at hget

theorem Synced.order_evict (h : Synced sp) (hn : 1 ≤ n) (hbound : sp.states.length ≤ n)
    (hnew : Assoc.get? sp.states fp = none) : fp :: (sp.evict n).order = Recency.touch n fp sp.order := by
  have hlen := h.length
  by_cases hfull : n ≤ sp.states.length
  · obtain ⟨victim, -, hevict⟩ := h.evict_of_full hn hfull
    rw [hevict, Recency.touch_of_full hn (by omega) (h.not_mem_order hnew)]
    dsimp only [order]
    rw [List.map_dropLast]
  · rw [evict_of_room (by omega), Recency.touch_of_room (by omega) (h.not_mem_order hnew)]

theorem Synced.touch (h : Synced sp) (hn : 1 ≤ n) (hbound : sp.states.length ≤ n) (fp : Bytes) :
    Synced (sp.touch n fp).2 ∧ (sp.touch n fp).2.order = Recency.touch n fp sp.order ∧
      Assoc.get? (sp.touch n fp).2.states fp = some (sp.touch n fp).1 ∧
      (∀ st, Assoc.get? sp.states fp = some st → (sp.touch n fp).1 = st) ∧
      (Assoc.get? sp.states fp = none → ∃ it, (sp.touch n fp).1 = ⟨0, 0, 0, 0, it⟩) ∧
      ∀ k st, k ≠ fp → Assoc.get? (sp.touch n fp).2.states k = some st → Assoc.get? sp.states k = some st := by
  unfold Stripe.touch
  split
  · rename_i hnew
    have hevicted : Assoc.get? (sp.evict n).states fp = none := by
      cases hget : Assoc.get? (sp.evict n).states fp with
      | none => rfl
      | some st =>
        rw [h.get?_evict hn hget] at hnew
        cases hnew
    refine ⟨(h.evict hn).push hevicted rfl, ?_, Assoc.get?_set_self _ _ _, ?_, fun _ => ⟨_, rfl⟩, ?_⟩
    · rw [← h.order_evict hn hbound hnew]
      rfl
    · intro st hget
      rw [hget] at hnew
      cases hnew
    · intro k st hk hget
      apply h.get?_evict hn
      rwa [Assoc.get?_set_ne _ _ (Ne.symm hk)] at hget
  · rename_i st hget
    obtain ⟨hsynced, horder⟩ := h.splice hget
    refine ⟨hsynced, ?_, hget, ?_, ?_, fun _ _ _ hk => hk⟩
    · have hmem : fp ∈ sp.order := (h.same fp).mpr (Assoc.mem_keys_of_get? hget)
      have hlen := h.length
      rw [horder, Recency.touch_of_mem (by omega) hmem]
    · intro st' hst
      rw [hget] at hst
      exact Option.some_inj.mp hst
    · intro hnew
      rw [hget] at hnew
      cases hnew

theorem hit_lruIt (t : ℤ) (st : State) : (st.hit t).2.lruIt = st.lruIt := by
  unfold State.hit State.rollWindow
  dsimp only
  repeat' split
  all_goals rfl

theorem Synced.decide (h : Synced sp) (hn : 1 ≤ n) (hbound : sp.states.length ≤ n) (fp : Bytes) (t : ℤ) :
    Synced (sp.decide n fp t).2 ∧ (sp.decide n fp t).2.order = Recency.touch n fp sp.order ∧
      ∃ st, (sp.decide n fp t).1 = (st.hit t).1 ∧ Assoc.get? (sp.decide n fp t).2.states fp = some (st.hit t).2 ∧
        (∀ st', Assoc.get? sp.states fp = some st' → st = st') ∧
        (Assoc.get? sp.states fp = none → ∃ it, st = ⟨0, 0, 0, 0, it⟩) ∧
        ∀ k st', k ≠ fp → Assoc.get? (sp.decide n fp t).2.states k = some st' → Assoc.get? sp.states k = some st' := by
  obtain ⟨hsynced, horder, hget, hold, hnew, hothers⟩ := h.touch hn hbound fp
  have hstore := hsynced.store hget (hit_lruIt t (sp.touch n fp).1)
  refine ⟨hstore, horder, (sp.touch n fp).1, rfl, Assoc.get?_set_self _ _ _, hold, hnew, fun k st' hk hget' => ?_⟩
  apply hothers k st' hk
  have hdecide : (sp.decide n fp t).2.states = Assoc.set (sp.touch n fp).2.states fp ((sp.touch n fp).1.hit t).2 := rfl
  rwa [hdecide, Assoc.get?_set_ne _ _ (Ne.symm hk)] at hget'

end Stripe

/-! The counters of a fingerprint depend only on the times of its calls. -/

def State.fresh : State := ⟨0, 0, 0, 0, 0⟩

def State.after (st : State) (ts : List ℤ) : State := ts.foldl (fun st t => (st.hit t).2) st

def record : State → List ℤ → List (ℤ × Decision)
  | _, [] => []
  | st, t :: ts => (t, (st.hit t).1) :: record (st.hit t).2 ts

theorem after_concat (st : State) (ts : List ℤ) (t : ℤ) : st.after (ts ++ [t]) = ((st.after ts).hit t).2 := by
  rw [State.after, List.foldl_append]
  rfl

theorem record_concat (st : State) (ts : List ℤ) (t : ℤ) :
    record st (ts ++ [t]) = record st ts ++ [(t, ((st.after ts).hit t).1)] := by
  induction ts generalizing st with
  | nil => rfl
  | cons u ts ih =>
    rw [List.cons_append, record, record, ih]
    rfl

theorem record_times (st : State) (ts : List ℤ) : (record st ts).map Prod.fst = ts := by
  induction ts generalizing st with
  | nil => rfl
  | cons t ts ih => rw [record, List.map_cons, ih]

theorem hit_moved (it : ℕ) (t : ℤ) (st : State) :
    ({ st with lruIt := it } : State).hit t = ((st.hit t).1, { (st.hit t).2 with lruIt := it }) := by
  unfold State.hit State.rollWindow
  dsimp only
  repeat' split
  all_goals rfl

theorem hit_total (t : ℤ) (st : State) : (st.hit t).2.total = st.total + 1 ∧ (st.hit t).1.hitCount = st.total + 1 := by
  unfold State.hit State.rollWindow
  dsimp only
  repeat' split
  all_goals exact ⟨rfl, rfl⟩

theorem after_total (ts : List ℤ) : (State.fresh.after ts).total = ts.length := by
  induction ts using List.reverseRecOn with
  | nil => rfl
  | append_singleton ts t ih => rw [after_concat, (hit_total t _).1, ih, List.length_append, List.length_singleton]

variable (hash : Bytes → ℕ)

def stripeFor (fingerprint : Bytes) (s : Sampler) : Stripe :=
  s.stripes.getD (hash fingerprint % s.stripes.length) Stripe.empty

def tracked (s : Sampler) : ℕ := (s.stripes.map fun sp => sp.states.length).sum

def tracks (fingerprint : Bytes) (s : Sampler) : Bool :=
  (Assoc.get? (s.stripeFor hash fingerprint).states fingerprint).isSome

structure Watched where
  sampler : Sampler
  history : List Bytes
  since : Bytes → List (ℤ × Decision)

def Watched.decide (call : Bytes × ℤ) (w : Watched) : Watched :=
  let answer := w.sampler.decide hash call.1 call.2
  { sampler := answer.2
    history := w.history ++ [call.1]
    since := fun k =>
      if k = call.1 then w.since k ++ [(call.2, answer.1)]
      else if answer.2.tracks hash k then w.since k else [] }

def watch (s : Sampler) (calls : List (Bytes × ℤ)) : Watched :=
  calls.foldl (fun w call => w.decide hash call) ⟨s, [], fun _ => []⟩

def stripeCalls (m i : ℕ) (history : List Bytes) : List Bytes := history.filter fun k => hash k % m = i

structure Exact (m n : ℕ) (w : Watched) : Prop where
  stripes : w.sampler.stripes.length = m
  perStripe : w.sampler.perStripeMax = n
  synced : ∀ i sp, w.sampler.stripes[i]? = some sp →
    sp.Synced ∧ sp.order = Recency.recent n (stripeCalls hash m i w.history)
  counted : ∀ k st, Assoc.get? (w.sampler.stripeFor hash k).states k = some st →
    ({ st with lruIt := 0 } : State) = State.fresh.after ((w.since k).map Prod.fst)
  recorded : ∀ k, w.since k = record .fresh ((w.since k).map Prod.fst)
  untracked : ∀ k, w.sampler.tracks hash k = false → w.since k = []

variable {hash} {m n : ℕ} {w : Watched}

theorem stripeFor_eq {s : Sampler} {k : Bytes} {sp : Stripe} (h : s.stripes[hash k % s.stripes.length]? = some sp) :
    s.stripeFor hash k = sp := by
  rw [stripeFor, List.getD_eq_getElem?_getD, h]
  rfl

theorem Exact.stripeFor (h : Exact hash m n w) (hm : 1 ≤ m) (k : Bytes) :
    w.sampler.stripes[hash k % m]? = some (w.sampler.stripeFor hash k) := by
  have hlt : hash k % m < w.sampler.stripes.length := by
    rw [h.stripes]
    exact Nat.mod_lt _ hm
  have hget := List.getElem?_eq_getElem hlt
  rw [hget]
  congr 1
  symm
  apply stripeFor_eq
  rw [h.stripes]
  exact hget

theorem Exact.bounded (h : Exact hash m n w) {i : ℕ} {sp : Stripe} (hi : w.sampler.stripes[i]? = some sp) :
    sp.states.length ≤ n := by
  obtain ⟨hsynced, horder⟩ := h.synced i sp hi
  rw [← hsynced.length, horder]
  exact Recency.length_recent_le n _

theorem decide_eq (g : Bytes) (t : ℤ) (s : Sampler) :
    s.decide hash g t = (((s.stripeFor hash g).decide s.perStripeMax g t).1,
      { s with stripes := s.stripes.set (hash g % s.stripes.length) ((s.stripeFor hash g).decide s.perStripeMax g t).2 }) := rfl

theorem stripeFor_decide_same {s : Sampler} {g k : Bytes} (t : ℤ) (hlen : 1 ≤ s.stripes.length)
    (hk : hash k % s.stripes.length = hash g % s.stripes.length) :
    (s.decide hash g t).2.stripeFor hash k = ((s.stripeFor hash g).decide s.perStripeMax g t).2 := by
  apply stripeFor_eq
  rw [decide_eq]
  dsimp only
  rw [List.length_set, hk]
  exact List.getElem?_set_self (Nat.mod_lt _ hlen)

theorem stripeFor_decide_other {s : Sampler} {g k : Bytes} (t : ℤ)
    (hk : hash k % s.stripes.length ≠ hash g % s.stripes.length) :
    (s.decide hash g t).2.stripeFor hash k = s.stripeFor hash k := by
  rw [decide_eq]
  unfold stripeFor
  dsimp only
  rw [List.length_set, List.getD_eq_getElem?_getD, List.getElem?_set_ne (Ne.symm hk), List.getD_eq_getElem?_getD]

theorem exact_start (m n : ℕ) : Exact hash m n ⟨⟨n, List.replicate m Stripe.empty⟩, [], fun _ => []⟩ := by
  have hempty (k : Bytes) : stripeFor hash k ⟨n, List.replicate m Stripe.empty⟩ = Stripe.empty := by
    rw [stripeFor, List.getD_eq_getElem?_getD]
    dsimp only
    rw [List.getElem?_replicate]
    split <;> rfl
  constructor
  · exact List.length_replicate
  · rfl
  · intro i sp hi
    rw [List.getElem?_replicate] at hi
    split at hi
    · cases hi
      exact ⟨Stripe.synced_empty, rfl⟩
    · cases hi
  · intro k st hget
    dsimp only at hget
    rw [hempty] at hget
    cases hget
  · exact fun _ => rfl
  · exact fun _ _ => rfl

theorem Exact.hit (h : Exact hash m n w) (hm : 1 ≤ m) (hn : 1 ≤ n) (g : Bytes) (t : ℤ) :
    (w.sampler.decide hash g t).1 = ((State.fresh.after ((w.since g).map Prod.fst)).hit t).1 ∧
      ∃ st, Assoc.get? ((w.sampler.stripeFor hash g).decide n g t).2.states g = some st ∧
        ({ st with lruIt := 0 } : State) = State.fresh.after ((w.since g).map Prod.fst ++ [t]) := by
  have hstripe := h.stripeFor hm g
  obtain ⟨hsynced, -⟩ := h.synced _ _ hstripe
  obtain ⟨-, -, st, hanswer, hget, hold, hnew, -⟩ := hsynced.decide hn (h.bounded hstripe) g t
  have hstate : ({ st with lruIt := 0 } : State) = State.fresh.after ((w.since g).map Prod.fst) := by
    cases hg : Assoc.get? (w.sampler.stripeFor hash g).states g with
    | none =>
      obtain ⟨it, rfl⟩ := hnew hg
      have huntracked : w.sampler.tracks hash g = false := by
        rw [tracks, hg]
        rfl
      rw [h.untracked g huntracked]
      rfl
    | some st' =>
      rw [hold st' hg]
      exact h.counted g st' hg
  refine ⟨?_, _, hget, ?_⟩
  · rw [decide_eq, h.perStripe, hanswer, ← hstate, hit_moved 0 t st]
  · rw [after_concat, ← hstate, hit_moved 0 t st]

theorem Exact.stripeFor_same (h : Exact hash m n w) (hm : 1 ≤ m) {g k : Bytes} (t : ℤ) (hk : hash k % m = hash g % m) :
    (w.sampler.decide hash g t).2.stripeFor hash k = ((w.sampler.stripeFor hash g).decide n g t).2 := by
  have hlen : 1 ≤ w.sampler.stripes.length := by
    rw [h.stripes]
    exact hm
  rw [stripeFor_decide_same t hlen (by rw [h.stripes]; exact hk), h.perStripe]

theorem Exact.stripeFor_other (h : Exact hash m n w) {g k : Bytes} (t : ℤ) (hk : hash k % m ≠ hash g % m) :
    (w.sampler.decide hash g t).2.stripeFor hash k = w.sampler.stripeFor hash k :=
  stripeFor_decide_other t (by rw [h.stripes]; exact hk)

theorem Exact.stripeFor_congr (h : Exact hash m n w) (hm : 1 ≤ m) {k g : Bytes} (hk : hash k % m = hash g % m) :
    w.sampler.stripeFor hash k = w.sampler.stripeFor hash g := by
  have hk' := h.stripeFor hm k
  rw [hk, h.stripeFor hm g, Option.some_inj] at hk'
  exact hk'.symm

theorem Exact.get?_of_decide (h : Exact hash m n w) (hm : 1 ≤ m) (hn : 1 ≤ n) {g k : Bytes} (t : ℤ) (hk : k ≠ g)
    {st : State} (hafter : Assoc.get? ((w.sampler.decide hash g t).2.stripeFor hash k).states k = some st) :
    Assoc.get? (w.sampler.stripeFor hash k).states k = some st := by
  by_cases hhome : hash k % m = hash g % m
  · have hstripe := h.stripeFor hm g
    obtain ⟨-, -, -, -, -, -, -, hothers⟩ := (h.synced _ _ hstripe).1.decide hn (h.bounded hstripe) g t
    rw [h.stripeFor_same hm t hhome] at hafter
    rw [h.stripeFor_congr hm hhome]
    exact hothers k st hk hafter
  · rwa [h.stripeFor_other t hhome] at hafter

theorem stripeCalls_concat (m i : ℕ) (history : List Bytes) (g : Bytes) :
    stripeCalls hash m i (history ++ [g]) =
      if hash g % m = i then stripeCalls hash m i history ++ [g] else stripeCalls hash m i history := by
  rw [stripeCalls, stripeCalls, List.filter_append]
  split
  · rename_i hg
    simp [hg]
  · rename_i hg
    simp [hg]

theorem Exact.synced_decide (h : Exact hash m n w) (hm : 1 ≤ m) (hn : 1 ≤ n) (g : Bytes) (t : ℤ) {i : ℕ} {sp : Stripe}
    (hi : (w.sampler.decide hash g t).2.stripes[i]? = some sp) :
    sp.Synced ∧ sp.order = Recency.recent n (stripeCalls hash m i (w.history ++ [g])) := by
  rw [decide_eq, h.stripes, h.perStripe] at hi
  rw [stripeCalls_concat]
  by_cases hig : hash g % m = i
  · subst hig
    have hstripe := h.stripeFor hm g
    obtain ⟨hsynced, horder⟩ := h.synced _ _ hstripe
    obtain ⟨hsynced', horder', -⟩ := hsynced.decide hn (h.bounded hstripe) g t
    rw [List.getElem?_set_self (by rw [h.stripes]; exact Nat.mod_lt _ hm), Option.some_inj] at hi
    rw [← hi, if_pos rfl, Recency.recent_concat, ← horder]
    exact ⟨hsynced', horder'⟩
  · rw [List.getElem?_set_ne hig] at hi
    rw [if_neg hig]
    exact h.synced i sp hi

theorem Exact.decide (h : Exact hash m n w) (hm : 1 ≤ m) (hn : 1 ≤ n) (g : Bytes) (t : ℤ) :
    Exact hash m n (w.decide hash (g, t)) := by
  obtain ⟨hanswer, stg, hget, hstate⟩ := h.hit hm hn g t
  constructor
  · change (w.sampler.decide hash g t).2.stripes.length = m
    rw [decide_eq]
    dsimp only
    rw [List.length_set]
    exact h.stripes
  · exact h.perStripe
  · exact fun i sp hi => h.synced_decide hm hn g t hi
  · intro k st hk
    change Assoc.get? ((w.sampler.decide hash g t).2.stripeFor hash k).states k = some st at hk
    by_cases hkg : k = g
    · subst hkg
      rw [h.stripeFor_same hm t rfl, hget, Option.some_inj] at hk
      rw [← hk, hstate, Watched.decide]
      simp
    · have htracks : (w.sampler.decide hash g t).2.tracks hash k = true := by
        rw [tracks, hk]
        rfl
      have hsince : (w.decide hash (g, t)).since k = w.since k := by
        rw [Watched.decide]
        simp [hkg, htracks]
      rw [hsince]
      exact h.counted k st (h.get?_of_decide hm hn t hkg hk)
  · intro k
    dsimp only [Watched.decide]
    split
    · rename_i hkg
      subst hkg
      rw [List.map_append, List.map_singleton, record_concat, ← h.recorded k, hanswer]
    · split
      · exact h.recorded k
      · rfl
  · intro k hk
    dsimp only [Watched.decide] at hk ⊢
    split
    · rename_i hkg
      subst hkg
      rw [tracks, h.stripeFor_same hm t rfl, hget] at hk
      cases hk
    · rw [hk]
      rfl

theorem exact_watch (hm : 1 ≤ m) (hn : 1 ≤ n) (calls : List (Bytes × ℤ)) :
    Exact hash m n (watch hash ⟨n, List.replicate m Stripe.empty⟩ calls) := by
  induction calls using List.reverseRecOn with
  | nil => exact exact_start m n
  | append_singleton calls call ih =>
    rw [watch, List.foldl_append]
    exact ih.decide hm hn call.1 call.2

variable (hash) in
def lastDecided (w : Watched) (k : Bytes) : ℕ :=
  Recency.age (stripeCalls hash w.sampler.stripes.length (hash k % w.sampler.stripes.length) w.history) k

variable (hash) in
def SameStripe (w : Watched) (k g : Bytes) : Prop :=
  hash k % w.sampler.stripes.length = hash g % w.sampler.stripes.length

variable (hash) in
def EvictsOldest (w : Watched) (g : Bytes) (t : ℤ) : Prop :=
  if w.sampler.tracks hash g = true ∨ (w.sampler.stripeFor hash g).states.length < w.sampler.perStripeMax then
    ∀ k, (w.sampler.decide hash g t).2.tracks hash k = true ↔ k = g ∨ w.sampler.tracks hash k = true
  else
    ∃ victim, SameStripe hash w victim g ∧ w.sampler.tracks hash victim = true ∧
      (∀ k, SameStripe hash w k g → w.sampler.tracks hash k = true → k ≠ victim →
        lastDecided hash w k < lastDecided hash w victim) ∧
      ∀ k, (w.sampler.decide hash g t).2.tracks hash k = true ↔ k = g ∨ (w.sampler.tracks hash k = true ∧ k ≠ victim)

variable (hash) in
structure BoundedLru (maxEntries : ℕ) (w : Watched) : Prop where
  synced : ∀ sp ∈ w.sampler.stripes, sp.Synced
  byRecency : ∀ sp ∈ w.sampler.stripes, sp.order.Pairwise fun a b => lastDecided hash w a < lastDecided hash w b
  bounded : w.sampler.tracked ≤ maxEntries
  counts : ∀ g t, (w.sampler.decide hash g t).1.hitCount = (w.since g).length + 1
  evicts : ∀ g t, EvictsOldest hash w g t

theorem Exact.home (h : Exact hash m n w) {i : ℕ} {sp : Stripe} (hi : w.sampler.stripes[i]? = some sp) {k : Bytes}
    (hk : k ∈ sp.order) : hash k % m = i := by
  rw [(h.synced i sp hi).2] at hk
  simpa using (List.mem_filter.mp (Recency.mem_of_mem_recent hk)).2

theorem Exact.tracks_iff (h : Exact hash m n w) (hm : 1 ≤ m) (k : Bytes) :
    w.sampler.tracks hash k = true ↔ k ∈ (w.sampler.stripeFor hash k).order := by
  rw [(h.synced _ _ (h.stripeFor hm k)).1.same, tracks, ← not_iff_not, ← Assoc.get?_eq_none, Option.not_isSome_iff_eq_none]

theorem Exact.order_decide (h : Exact hash m n w) (hm : 1 ≤ m) (hn : 1 ≤ n) (g : Bytes) (t : ℤ) (k : Bytes) :
    (w.sampler.decide hash g t).2.tracks hash k = true ↔
      if hash k % m = hash g % m then k ∈ Recency.touch n g (w.sampler.stripeFor hash g).order
      else w.sampler.tracks hash k = true := by
  have hiff := (h.decide hm hn g t).tracks_iff hm k
  have hstripe := h.stripeFor hm g
  refine hiff.trans ?_
  change k ∈ ((w.sampler.decide hash g t).2.stripeFor hash k).order ↔ _
  split
  · rename_i hk
    rw [h.stripeFor_same hm t hk, ((h.synced _ _ hstripe).1.decide hn (h.bounded hstripe) g t).2.1]
  · rename_i hk
    rw [h.stripeFor_other t hk, h.tracks_iff hm]

theorem Exact.sorted (h : Exact hash m n w) {i : ℕ} {sp : Stripe} (hi : w.sampler.stripes[i]? = some sp) :
    sp.order.Pairwise fun a b => lastDecided hash w a < lastDecided hash w b := by
  have hsorted := Recency.recent_sorted n (stripeCalls hash m i w.history)
  rw [← (h.synced i sp hi).2] at hsorted
  apply hsorted.imp_of_mem
  intro a b ha hb hab
  rw [lastDecided, lastDecided, h.stripes, h.home hi ha, h.home hi hb]
  exact hab

theorem Exact.last_oldest (h : Exact hash m n w) {i : ℕ} {sp : Stripe} (hi : w.sampler.stripes[i]? = some sp)
    {victim : Bytes} (hlast : sp.order.getLast? = some victim) {k : Bytes} (hk : k ∈ sp.order) (hne : k ≠ victim) :
    lastDecided hash w k < lastDecided hash w victim := by
  obtain ⟨front, hfront⟩ := List.getLast?_eq_some_iff.mp hlast
  have hsorted := h.sorted hi
  rw [hfront] at hsorted hk
  rw [List.mem_append, List.mem_singleton] at hk
  exact (List.pairwise_append.mp hsorted).2.2 k (hk.resolve_right hne) victim (List.mem_singleton_self _)

theorem Exact.evicts (h : Exact hash m n w) (hm : 1 ≤ m) (hn : 1 ≤ n) (g : Bytes) (t : ℤ) : EvictsOldest hash w g t := by
  have hstripe := h.stripeFor hm g
  have hbound := h.bounded hstripe
  obtain ⟨hsynced, -⟩ := h.synced _ _ hstripe
  have hlen := hsynced.length
  have hother {k : Bytes} (hk : ¬ hash k % m = hash g % m) : k ≠ g := by
    rintro rfl
    exact hk rfl
  unfold EvictsOldest
  split
  · rename_i hkept
    have hroom : g ∈ (w.sampler.stripeFor hash g).order ∨ (w.sampler.stripeFor hash g).order.length < n := by
      rw [← h.tracks_iff hm, hlen, ← h.perStripe]
      exact hkept
    intro k
    rw [h.order_decide hm hn]
    split
    · rename_i hk
      rw [Recency.mem_touch_of_kept (by omega) hroom, h.tracks_iff hm k, h.stripeFor_congr hm hk]
    · rename_i hk
      exact (or_iff_right (hother hk)).symm
  · rename_i hfull
    rw [not_or, not_lt, h.perStripe, h.tracks_iff hm] at hfull
    obtain ⟨victim, hlast, htouch⟩ := Recency.mem_touch_of_full hn (by omega) hsynced.once hfull.1
    have hmem : victim ∈ (w.sampler.stripeFor hash g).order := List.mem_of_getLast? hlast
    have hhome : hash victim % m = hash g % m := h.home hstripe hmem
    have htracked : w.sampler.tracks hash victim = true := by
      rw [h.tracks_iff hm, h.stripeFor_congr hm hhome]
      exact hmem
    refine ⟨victim, ?_, htracked, fun k hk hkt hne => ?_, fun k => ?_⟩
    · rw [SameStripe, h.stripes]
      exact hhome
    · rw [SameStripe, h.stripes] at hk
      rw [h.tracks_iff hm, h.stripeFor_congr hm hk] at hkt
      exact h.last_oldest hstripe hlast hkt hne
    · rw [h.order_decide hm hn]
      split
      · rename_i hk
        rw [htouch, h.tracks_iff hm k, h.stripeFor_congr hm hk]
      · rename_i hk
        have hnot : k ≠ victim := by
          rintro rfl
          exact hk hhome
        rw [or_iff_right (hother hk), and_iff_left hnot]

theorem Exact.counts (h : Exact hash m n w) (hm : 1 ≤ m) (hn : 1 ≤ n) (g : Bytes) (t : ℤ) :
    (w.sampler.decide hash g t).1.hitCount = (w.since g).length + 1 := by
  rw [(h.hit hm hn g t).1, (hit_total t _).2, after_total, List.length_map]

theorem Exact.tracked_le (h : Exact hash m n w) : w.sampler.tracked ≤ m * n := by
  have hsum := List.sum_le_card_nsmul (w.sampler.stripes.map fun sp => sp.states.length) n (by
    intro x hx
    obtain ⟨sp, hsp, rfl⟩ := List.mem_map.mp hx
    obtain ⟨i, hi⟩ := List.getElem?_of_mem hsp
    exact h.bounded hi)
  rw [List.length_map, h.stripes] at hsum
  exact hsum

theorem Exact.boundedLru (h : Exact hash m n w) (hm : 1 ≤ m) (hn : 1 ≤ n) {maxEntries : ℕ} (hmax : m * n ≤ maxEntries) :
    BoundedLru hash maxEntries w := by
  constructor
  · intro sp hsp
    obtain ⟨i, hi⟩ := List.getElem?_of_mem hsp
    exact (h.synced i sp hi).1
  · intro sp hsp
    obtain ⟨i, hi⟩ := List.getElem?_of_mem hsp
    exact h.sorted hi
  · exact h.tracked_le.trans hmax
  · exact h.counts hm hn
  · exact h.evicts hm hn

theorem exact_new {maxEntries : ℕ} (h : 1 ≤ maxEntries) (hash : Bytes → ℕ) (calls : List (Bytes × ℤ)) :
    ∃ m n, 1 ≤ m ∧ 1 ≤ n ∧ m * n ≤ maxEntries ∧ Exact hash m n (watch hash (new maxEntries) calls) := by
  have hnew : new maxEntries = ⟨max 1 (maxEntries / min kMaxStripes (max 1 (maxEntries / kMinEntriesPerStripe))),
      List.replicate (min kMaxStripes (max 1 (maxEntries / kMinEntriesPerStripe))) Stripe.empty⟩ := by
    rw [new, if_neg (by omega)]
  have hm : 1 ≤ min kMaxStripes (max 1 (maxEntries / kMinEntriesPerStripe)) := by
    apply le_min
    · decide
    · exact le_max_left 1 _
  have hle : min kMaxStripes (max 1 (maxEntries / kMinEntriesPerStripe)) ≤ maxEntries := by
    apply (min_le_right _ _).trans
    apply max_le h
    exact Nat.div_le_self _ _
  refine ⟨_, _, hm, le_max_left 1 _, ?_, hnew ▸ exact_watch hm (le_max_left 1 _) calls⟩
  have hpos : 1 ≤ maxEntries / min kMaxStripes (max 1 (maxEntries / kMinEntriesPerStripe)) := Nat.div_pos hle hm
  rw [max_eq_right hpos]
  exact Nat.mul_div_le _ _

/-- The stripes are exact bounded caches after any calls, at any times, under any hash. -/
theorem sampler_exact_lru {maxEntries : ℕ} (h : 1 ≤ maxEntries) (hash : Bytes → ℕ) (calls : List (Bytes × ℤ)) :
    BoundedLru hash maxEntries (watch hash (new maxEntries) calls) := by
  obtain ⟨m, n, hm, hn, hmax, hexact⟩ := exact_new h hash calls
  exact hexact.boundedLru hm hn hmax

theorem sampler_exact_lru_one :
    BoundedLru (fun _ => 0) 1 (watch (fun _ => 0) (new 1) [([0x61], 1), ([0x62], 2), ([0x61], 3)]) :=
  sampler_exact_lru (Nat.le_refl 1) (fun _ => 0) [([0x61], 1), ([0x62], 2), ([0x61], 3)]

end JvmScout.Agent.Sampler
