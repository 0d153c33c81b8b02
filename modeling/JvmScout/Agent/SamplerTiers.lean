import JvmScout.Agent.SamplerLru
import JvmScout.Lib.Tumbling

namespace JvmScout.Agent.Sampler

open Tumbling

def minuteOver (start t : ℤ) : Bool := start + kWindowMs ≤ t

def rollOver (start t : ℤ) : Bool := start = 0 || minuteOver start t

def tier (rank : ℕ) : CaptureMode :=
  if rank ≤ kFullPerWindow then .FULL else if rank ≤ kFullPerWindow * 5 then .REDUCED else .COUNT_ONLY

def rank (ts : List ℤ) (t : ℤ) : ℕ := ((windows minuteOver (ts ++ [t])).headD []).length

def grant (g : List ℤ × ℕ) (t : ℤ) : List ℤ × ℕ :=
  (if g.2 < kFullPerWindow ∨ g.1.getLast? = some 0 then g.1 ++ [t] else g.1, g.2 + 1)

/-- The hits of a window that are FULL: the first ten, and what comes after one at clock 0, which
to the counters was never FULL. -/
def granted (w : List ℤ) : List ℤ := (w.foldl grant ([], 0)).1

def granting (ws : List (List ℤ)) : List ℤ := (ws.reverse.map granted).flatten

def allowance (ts : List ℤ) : List ℤ := granting (windows rollOver ts)

def fullTimes (calls : List (ℤ × Decision)) : List ℤ := (calls.filter fun c => c.2.mode = .FULL).map Prod.fst

variable {st : State} {t : ℤ} {ts w : List ℤ}

theorem grant_count (w : List ℤ) : (w.foldl grant ([], 0)).2 = w.length := by
  induction w using List.reverseRecOn with
  | nil => rfl
  | append_singleton w t ih =>
    rw [List.foldl_append, List.length_append, List.length_singleton, ← ih]
    rfl

theorem granted_concat (w : List ℤ) (t : ℤ) :
    granted (w ++ [t]) =
      if w.length < kFullPerWindow ∨ (granted w).getLast? = some 0 then granted w ++ [t] else granted w := by
  rw [granted, List.foldl_append, ← grant_count w]
  rfl

theorem granting_cons (w : List ℤ) (ws : List (List ℤ)) : granting (w :: ws) = granting ws ++ granted w := by
  rw [granting, List.reverse_cons, List.map_append, List.flatten_append, List.map_singleton, List.flatten_singleton]
  rfl

theorem hit_opens (h : st.windowStartMs = 0 ∨ st.windowStartMs + kWindowMs ≤ t) :
    (st.hit t).1.mode = .FULL ∧ (st.hit t).2.windowStartMs = t ∧ (st.hit t).2.windowHits = 1 ∧
      (st.hit t).2.lastFullMs = t := by
  have hroll : ({ st with total := st.total + 1 } : State).rollWindow t =
      { st with total := st.total + 1, windowStartMs := t, windowHits := 0 } := by
    unfold State.rollWindow
    apply if_pos
    dsimp only
    omega
  unfold State.hit
  dsimp only
  rw [hroll]
  dsimp only
  split
  · exact ⟨rfl, rfl, rfl, rfl⟩
  · rw [if_pos (by decide)]
    exact ⟨rfl, rfl, rfl, rfl⟩

theorem hit_within (h : ¬ (st.windowStartMs = 0 ∨ st.windowStartMs + kWindowMs ≤ t))
    (hfull : st.windowStartMs ≤ st.lastFullMs) :
    (st.hit t).2.windowStartMs = st.windowStartMs ∧ (st.hit t).2.windowHits = st.windowHits + 1 ∧
      (st.hit t).1.mode = (if st.lastFullMs = 0 then .FULL else tier (st.windowHits + 1)) ∧
      (st.hit t).2.lastFullMs =
        (if st.windowHits < kFullPerWindow ∨ st.lastFullMs = 0 then t else st.lastFullMs) := by
  have hroll : ({ st with total := st.total + 1 } : State).rollWindow t = { st with total := st.total + 1 } := by
    unfold State.rollWindow
    apply if_neg
    dsimp only
    omega
  have hresample : st.lastFullMs = 0 ∨ kResampleMs ≤ t - st.lastFullMs ↔ st.lastFullMs = 0 := by
    simp only [kResampleMs, kWindowMs] at h ⊢
    omega
  unfold State.hit tier
  dsimp only
  rw [hroll]
  simp only [hresample, Nat.succ_le_iff]
  by_cases hzero : st.lastFullMs = 0
  · simp [hzero]
  · by_cases hten : st.windowHits < kFullPerWindow
    · simp [hzero, hten]
    · by_cases hfifty : st.windowHits < kFullPerWindow * 5
      · simp [hzero, hten, hfifty]
      · simp [hzero, hten, hfifty]

structure Paces (w : List ℤ) (st : State) : Prop where
  start : w.head? = some st.windowStartMs
  hits : st.windowHits = w.length
  lastFull : (granted w).getLast? = some st.lastFullMs
  since : st.windowStartMs ≤ st.lastFullMs

theorem paces_opened (h : st.windowStartMs = 0 ∨ st.windowStartMs + kWindowMs ≤ t) : Paces [t] (st.hit t).2 := by
  obtain ⟨-, hstart, hhits, hfull⟩ := hit_opens h
  constructor
  · rw [hstart]
    rfl
  · exact hhits
  · rw [hfull]
    rfl
  · rw [hstart, hfull]

theorem tier_eq_full {k : ℕ} : tier (k + 1) = .FULL ↔ k < kFullPerWindow := by
  unfold tier
  split
  · rename_i h
    exact iff_of_true rfl h
  · rename_i h
    apply iff_of_false _ h
    split <;> decide

theorem Paces.within (h : Paces w st) (hopen : ¬ (st.windowStartMs = 0 ∨ st.windowStartMs + kWindowMs ≤ t))
    (hle : st.windowStartMs ≤ t) :
    Paces (w ++ [t]) (st.hit t).2 ∧
      granted (w ++ [t]) = granted w ++ if (st.hit t).1.mode = .FULL then [t] else [] := by
  obtain ⟨hstart, hhits, hmode, hfull⟩ := hit_within hopen h.since
  have hgranted := granted_concat w t
  simp only [h.lastFull, Option.some_inj, ← h.hits] at hgranted
  have hiff : (st.hit t).1.mode = .FULL ↔ st.windowHits < kFullPerWindow ∨ st.lastFullMs = 0 := by
    rw [hmode]
    split
    · rename_i hzero
      exact iff_of_true rfl (.inr hzero)
    · rename_i hzero
      rw [tier_eq_full, or_iff_left hzero]
  have hsplit : granted (w ++ [t]) = granted w ++ if (st.hit t).1.mode = .FULL then [t] else [] := by
    rw [hgranted]
    by_cases hg : st.windowHits < kFullPerWindow ∨ st.lastFullMs = 0
    · rw [if_pos hg, if_pos (hiff.mpr hg)]
    · rw [if_neg hg, if_neg (mt hiff.mp hg), List.append_nil]
  refine ⟨⟨?_, ?_, ?_, ?_⟩, hsplit⟩
  · rw [hstart, List.head?_append, h.start]
    rfl
  · rw [hhits, List.length_append, List.length_singleton, h.hits]
  · rw [hgranted, hfull]
    split
    · rw [List.getLast?_concat]
    · exact h.lastFull
  · rw [hstart, hfull]
    split
    · exact hle
    · exact h.since

theorem fullTimes_concat (ts : List ℤ) (t : ℤ) :
    fullTimes (record .fresh (ts ++ [t])) =
      fullTimes (record .fresh ts) ++ if ((State.fresh.after ts).hit t).1.mode = .FULL then [t] else [] := by
  rw [record_concat, fullTimes, fullTimes, List.filter_append, List.map_append]
  congr 1
  by_cases hmode : ((State.fresh.after ts).hit t).1.mode = .FULL
  · simp [hmode]
  · simp [hmode]

theorem rollOver_iff {start t : ℤ} : rollOver start t = true ↔ start = 0 ∨ start + kWindowMs ≤ t := by
  simp [rollOver, minuteOver]

theorem Paces.over_iff (h : Paces w st) : (w.head?.any fun start => rollOver start t) = true ↔
    st.windowStartMs = 0 ∨ st.windowStartMs + kWindowMs ≤ t := by
  rw [h.start, Option.any_some, rollOver_iff]

theorem Paces.start_mem {ws : List (List ℤ)} (h : Paces w st) (hwin : windows rollOver ts = w :: ws) :
    st.windowStartMs ∈ ts := by
  apply mem_of_mem_windows (w := w)
  · rw [hwin]
    exact List.mem_cons_self
  · exact List.mem_of_mem_head? h.start

theorem paces_after (hs : ts.Pairwise (· ≤ ·)) :
    (∀ w ws, windows rollOver ts = w :: ws → Paces w (State.fresh.after ts)) ∧
      fullTimes (record .fresh ts) = allowance ts := by
  induction ts using List.reverseRecOn with
  | nil => exact ⟨(fun _ _ h => nomatch h), rfl⟩
  | append_singleton ts t ih =>
    have hsplit := List.pairwise_append.mp hs
    obtain ⟨hpaces, hfull⟩ := ih hsplit.1
    rw [fullTimes_concat, after_concat, hfull, allowance, allowance, windows_concat]
    cases hwin : windows rollOver ts with
    | nil =>
      have hnil : ts = [] := eq_nil_of_windows hwin
      subst hnil
      have hzero : State.fresh.windowStartMs = 0 ∨ State.fresh.windowStartMs + kWindowMs ≤ t := .inl rfl
      refine ⟨fun w ws hcons => ?_, ?_⟩
      · cases hcons
        exact paces_opened hzero
      · change [] ++ (if (State.fresh.hit t).1.mode = .FULL then [t] else []) = [t]
        rw [(hit_opens hzero).1]
        rfl
    | cons w ws =>
      have hw := hpaces w ws hwin
      unfold addHit
      dsimp only
      split
      · rename_i hopens
        rw [hw.over_iff] at hopens
        refine ⟨fun v vs hcons => ?_, ?_⟩
        · cases hcons
          exact paces_opened hopens
        · rw [(hit_opens hopens).1, if_pos rfl, granting_cons [t]]
          rfl
      · rename_i hopen
        rw [hw.over_iff] at hopen
        have hlater := hsplit.2.2 _ (hw.start_mem hwin) t (List.mem_singleton_self t)
        obtain ⟨hnext, hgranted⟩ := hw.within hopen hlater
        refine ⟨fun v vs hcons => ?_, ?_⟩
        · cases hcons
          exact hnext
        · rw [granting_cons, granting_cons, hgranted, List.append_assoc]

theorem tier_of_window (hs : (ts ++ [t]).Pairwise (· ≤ ·)) (hpos : ∀ u ∈ ts ++ [t], 0 < u) :
    ((State.fresh.after ts).hit t).1.mode = tier (rank ts t) ∧
      ((State.fresh.after ts).lastFullMs = 0 ∨ kResampleMs ≤ t - (State.fresh.after ts).lastFullMs →
        tier (rank ts t) = .FULL) := by
  have hsplit := List.pairwise_append.mp hs
  have hsame : windows minuteOver (ts ++ [t]) = windows rollOver (ts ++ [t]) := by
    apply windows_congr
    intro s hs u
    have hne : s ≠ 0 := (hpos s hs).ne'
    simp [rollOver, hne]
  rw [rank, hsame, windows_concat]
  cases hwin : windows rollOver ts with
  | nil =>
    have hnil : ts = [] := eq_nil_of_windows hwin
    subst hnil
    exact ⟨(hit_opens (.inl rfl)).1, fun _ => rfl⟩
  | cons w ws =>
    have hw := (paces_after hsplit.1).1 w ws hwin
    have hstart := hpos _ (List.mem_append_left [t] (hw.start_mem hwin))
    have hsince := hw.since
    unfold addHit
    dsimp only
    split
    · rename_i hopens
      exact ⟨(hit_opens (hw.over_iff.mp hopens)).1, fun _ => rfl⟩
    · rename_i hopen
      rw [hw.over_iff] at hopen
      have hzero : (State.fresh.after ts).lastFullMs ≠ 0 := by omega
      constructor
      · rw [(hit_within hopen hsince).2.2.1, if_neg hzero, hw.hits, List.headD_cons, List.length_append,
          List.length_singleton]
      · intro hdue
        simp only [kResampleMs, kWindowMs] at hdue hopen
        omega

theorem exact_any (maxEntries : ℕ) (hash : Bytes → ℕ) (calls : List (Bytes × ℤ)) :
    ∃ m n, 1 ≤ m ∧ 1 ≤ n ∧ Exact hash m n (watch hash (new maxEntries) calls) := by
  by_cases h : 1 ≤ maxEntries
  · obtain ⟨m, n, hm, hn, -, hexact⟩ := exact_new h hash calls
    exact ⟨m, n, hm, hn, hexact⟩
  · have hzero : maxEntries = 0 := by omega
    obtain ⟨m, n, hm, hn, -, hexact⟩ := exact_new (show 1 ≤ kDefaultMaxEntries by decide) hash calls
    refine ⟨m, n, hm, hn, ?_⟩
    rw [hzero]
    exact hexact

/-- Between two evictions of a fingerprint, at positive times in order, its calls get the tiers of
tumbling windows, and a resample is never due when these give less than FULL. -/
theorem mode_is_tier_of_window (maxEntries : ℕ) (hash : Bytes → ℕ) (calls : List (Bytes × ℤ)) (g : Bytes) (t : ℤ)
    (hs : (((watch hash (new maxEntries) calls).since g).map Prod.fst ++ [t]).Pairwise (· ≤ ·))
    (hpos : ∀ u ∈ ((watch hash (new maxEntries) calls).since g).map Prod.fst ++ [t], 0 < u) :
    ((watch hash (new maxEntries) calls).sampler.decide hash g t).1.mode =
        tier (rank (((watch hash (new maxEntries) calls).since g).map Prod.fst) t) ∧
      ∀ st, Assoc.get? ((watch hash (new maxEntries) calls).sampler.stripeFor hash g).states g = some st →
        st.lastFullMs = 0 ∨ kResampleMs ≤ t - st.lastFullMs →
          tier (rank (((watch hash (new maxEntries) calls).since g).map Prod.fst) t) = .FULL := by
  obtain ⟨m, n, hm, hn, hexact⟩ := exact_any maxEntries hash calls
  obtain ⟨hmode, hresample⟩ := tier_of_window hs hpos
  refine ⟨?_, fun st hget hdue => hresample ?_⟩
  · rw [(hexact.hit hm hn g t).1, hmode]
  · rw [← hexact.counted g st hget]
    exact hdue

theorem mode_is_tier_of_window_third :
    ((watch (fun _ => 0) (new 1) [([0x61], 1), ([0x61], 2)]).sampler.decide (fun _ => 0) [0x61] 70000).1.mode =
        tier (rank (((watch (fun _ => 0) (new 1) [([0x61], 1), ([0x61], 2)]).since [0x61]).map Prod.fst) 70000) ∧
      ∀ st, Assoc.get? ((watch (fun _ => 0) (new 1) [([0x61], 1), ([0x61], 2)]).sampler.stripeFor (fun _ => 0)
          [0x61]).states [0x61] = some st → st.lastFullMs = 0 ∨ kResampleMs ≤ 70000 - st.lastFullMs →
        tier (rank (((watch (fun _ => 0) (new 1) [([0x61], 1), ([0x61], 2)]).since [0x61]).map Prod.fst) 70000) =
          .FULL :=
  mode_is_tier_of_window 1 (fun _ => 0) [([0x61], 1), ([0x61], 2)] [0x61] 70000 (by decide) (by decide)

def FullBounded (calls : List (ℤ × Decision)) : Prop :=
  ∀ a, (calls.countP fun c => c.2.mode = .FULL ∧ a ≤ c.1 ∧ c.1 < a + kWindowMs) ≤ kFullPerWindow + 1

def Paced (ts : List ℤ) : Prop := Window.Spaced (fun t => t + kWindowMs) (kFullPerWindow + 1) (allowance ts)

def PacedAcross (ts : List ℤ) : Prop :=
  (windows minuteOver ts).IsChain fun next w =>
    Window.Spaced (fun t => t + kWindowMs) (kFullPerWindow + 1) (w.take kFullPerWindow ++ next.take kFullPerWindow)

theorem minute_mono ⦃s t : ℤ⦄ (h : s ≤ t) : s + kWindowMs ≤ t + kWindowMs := Int.add_le_add_right h kWindowMs

theorem sorted_fullTimes (hs : ts.Pairwise (· ≤ ·)) : (fullTimes (record .fresh ts)).Pairwise (· ≤ ·) := by
  have hsub := (List.filter_sublist (l := record .fresh ts) (p := fun c => c.2.mode = .FULL)).map Prod.fst
  rw [record_times] at hsub
  exact hs.sublist hsub

theorem fullBounded_record (hs : ts.Pairwise (· ≤ ·)) : FullBounded (record .fresh ts) ↔ Paced ts := by
  have hcount (a : ℤ) : ((record .fresh ts).countP fun c => c.2.mode = .FULL ∧ a ≤ c.1 ∧ c.1 < a + kWindowMs) =
      (fullTimes (record .fresh ts)).countP fun t => a ≤ t ∧ t < a + kWindowMs := by
    rw [fullTimes, List.countP_map, List.countP_filter]
    apply List.countP_congr
    intro c _
    simp only [Function.comp, decide_eq_true_eq, Bool.and_eq_true]
    exact And.comm
  unfold FullBounded
  simp only [hcount]
  rw [Window.bounded_iff_spaced minute_mono (sorted_fullTimes hs), (paces_after hs).2]
  rfl

theorem granted_eq_take (hw : 0 ∉ w) : granted w = w.take kFullPerWindow := by
  induction w using List.reverseRecOn with
  | nil => rfl
  | append_singleton w t ih =>
    have hold := ih fun h => hw (List.mem_append_left [t] h)
    have hlast : (granted w).getLast? ≠ some 0 := by
      rw [hold]
      intro h
      exact hw (List.mem_append_left [t] (List.mem_of_mem_take (List.mem_of_getLast? h)))
    rw [granted_concat, hold]
    rw [hold] at hlast
    by_cases hten : w.length < kFullPerWindow
    · rw [if_pos (.inl hten), List.take_of_length_le hten.le, List.take_of_length_le]
      rw [List.length_append, List.length_singleton]
      exact hten
    · rw [if_neg (not_or.mpr ⟨hten, hlast⟩), List.take_append_of_le_length (not_lt.mp hten)]

theorem paced_iff_across (hs : ts.Pairwise (· ≤ ·)) (hpos : ∀ t ∈ ts, 0 < t) : Paced ts ↔ PacedAcross ts := by
  have hsame : windows rollOver ts = windows minuteOver ts := by
    apply windows_congr
    intro s hs u
    have hne : s ≠ 0 := (hpos s hs).ne'
    simp [rollOver, hne]
  have hallow : allowance ts = ((windows minuteOver ts).reverse.map fun w => w.take kFullPerWindow).flatten := by
    rw [allowance, hsame, granting]
    congr 1
    apply List.map_congr_left
    intro w hw
    apply granted_eq_take
    intro hzero
    exact (hpos 0 (mem_of_mem_windows (List.mem_reverse.mp hw) hzero)).ne' rfl
  have hlen : ∀ v ∈ (windows minuteOver ts).reverse.map fun w => w.take kFullPerWindow, v.length ≤ kFullPerWindow + 1 := by
    intro v hv
    obtain ⟨w, -, rfl⟩ := List.mem_map.mp hv
    exact (List.length_take_le _ w).trans (Nat.le_succ _)
  have hhead (w : List ℤ) : (w.take kFullPerWindow).head? = w.head? := by
    cases w <;> rfl
  have hapart : Window.Apart (fun t => t + kWindowMs)
      ((windows minuteOver ts).reverse.map fun w => w.take kFullPerWindow) := by
    apply apart_of_chain minute_mono
    · rw [List.isChain_map, List.isChain_reverse]
      apply (windows_chain ts).imp
      intro next w hover s hs t ht
      rw [hhead] at hs ht
      exact of_decide_eq_true (hover t ht s hs)
    · intro v hv
      obtain ⟨w, hw, rfl⟩ := List.mem_map.mp hv
      have hne := windows_ne_nil (List.mem_reverse.mp hw)
      obtain ⟨s, w, rfl⟩ := List.exists_cons_of_ne_nil hne
      exact List.cons_ne_nil s _
    · rw [← hallow, ← (paces_after hs).2]
      exact sorted_fullTimes hs
  rw [Paced, hallow, Window.spaced_flatten_iff hlen hapart, List.isChain_map, List.isChain_reverse]
  rfl

/-- FULL captures keep to the documented rate exactly where the tumbling windows do. -/
theorem full_rate_bounded_iff (maxEntries : ℕ) (hash : Bytes → ℕ) (calls : List (Bytes × ℤ)) (g : Bytes)
    (hs : (((watch hash (new maxEntries) calls).since g).map Prod.fst).Pairwise (· ≤ ·)) :
    (FullBounded ((watch hash (new maxEntries) calls).since g) ↔
        Paced (((watch hash (new maxEntries) calls).since g).map Prod.fst)) ∧
      ((∀ t ∈ ((watch hash (new maxEntries) calls).since g).map Prod.fst, 0 < t) →
        (FullBounded ((watch hash (new maxEntries) calls).since g) ↔
          PacedAcross (((watch hash (new maxEntries) calls).since g).map Prod.fst))) := by
  obtain ⟨m, n, hm, hn, hexact⟩ := exact_any maxEntries hash calls
  have hiff := fullBounded_record hs
  rw [← hexact.recorded g] at hiff
  exact ⟨hiff, fun hpos => hiff.trans (paced_iff_across hs hpos)⟩

def calmBursts : List (Bytes × ℤ) := List.replicate 12 ([0x61], 1) ++ List.replicate 4 ([0x61], 60001)

theorem full_rate_bounded_iff_bursts : FullBounded ((watch (fun _ => 0) (new 1) calmBursts).since [0x61]) := by
  have htimes : ((watch (fun _ => 0) (new 1) calmBursts).since [0x61]).map Prod.fst = calmBursts.map Prod.snd := by
    decide
  have hpos : ∀ t ∈ ((watch (fun _ => 0) (new 1) calmBursts).since [0x61]).map Prod.fst, 0 < t := by
    rw [htimes]
    decide
  apply ((full_rate_bounded_iff 1 (fun _ => 0) calmBursts [0x61] (by decide)).2 hpos).mpr
  have hwindows : windows minuteOver (calmBursts.map Prod.snd) = [List.replicate 4 60001, List.replicate 12 1] := by
    decide
  rw [PacedAcross, htimes, hwindows, List.isChain_pair]
  intro i t u ht hu
  rcases i with _ | _ | _ | i
  · cases ht
    cases hu
    decide
  · cases ht
    cases hu
    decide
  · cases ht
    cases hu
    decide
  · cases hu

def straddlingBurst : List (Bytes × ℤ) :=
  ([0x61], 1) :: (List.replicate 9 ([0x61], 60000) ++ List.replicate 10 ([0x61], 60001))

theorem straddling_burst_exceeds :
    (straddlingBurst.map Prod.snd).Pairwise (· ≤ ·) ∧
      ¬ FullBounded ((watch (fun _ => 0) (new 1) straddlingBurst).since [0x61]) := by
  refine ⟨by decide, fun h => ?_⟩
  have hminute := h 60000
  revert hminute
  decide

end JvmScout.Agent.Sampler
