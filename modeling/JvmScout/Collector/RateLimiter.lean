import JvmScout.Lib.AssocKeys
import JvmScout.Lib.Window
import Mathlib.Algebra.Order.Ring.Rat
import Mathlib.Data.List.Induction
import Mathlib.Tactic.Linarith

namespace JvmScout.Security

structure RateLimiter where
  perMinute : ℤ
  hits : List (String × List ℚ)
  lastPrune : ℚ

namespace RateLimiter

def pruneIntervalS : ℚ := 60

def new (perMinute : ℤ) (now : ℚ) : RateLimiter := ⟨perMinute, [], now⟩

def stale (cutoff : ℚ) (w : List ℚ) : Bool :=
  match w.getLast? with
  | none => true
  | some last => decide (last < cutoff)

def maybePrune (now : ℚ) (rl : RateLimiter) : RateLimiter :=
  if now - rl.lastPrune < pruneIntervalS then rl
  else { rl with hits := rl.hits.filter (fun e => !stale (now - 60) e.2), lastPrune := now }

def window (client : String) (rl : RateLimiter) : List ℚ := (Assoc.get? rl.hits client).getD []

def allowPruned (client : String) (now : ℚ) (rl : RateLimiter) : Bool × RateLimiter :=
  let window := (rl.window client).dropWhile fun t => t < now - 60
  if rl.perMinute ≤ window.length then (false, { rl with hits := Assoc.set rl.hits client window })
  else (true, { rl with hits := Assoc.set rl.hits client (window ++ [now]) })

def allow (client : String) (now : ℚ) (rl : RateLimiter) : Bool × RateLimiter :=
  if rl.perMinute ≤ 0 then (true, rl) else (rl.maybePrune now).allowPruned client now

structure Verdict where
  client : String
  time : ℚ
  allowed : Bool

def play (step : String → ℚ → RateLimiter → Bool × RateLimiter) (rl : RateLimiter) (calls : List (String × ℚ)) :
    List Verdict × RateLimiter :=
  calls.foldl (fun s call => (s.1 ++ [⟨call.1, call.2, (step call.1 call.2 s.2).1⟩], (step call.1 call.2 s.2).2)) ([], rl)

def recent (client : String) (now : ℚ) (log : List Verdict) : ℕ :=
  log.countP fun v => v.client = client ∧ v.allowed = true ∧ now - 60 ≤ v.time

/-- The sliding-window log: a call is allowed as long as fewer than `perMinute` of the
client's allowed calls are at most a minute old. -/
def reference (perMinute : ℤ) (calls : List (String × ℚ)) : List Verdict :=
  calls.foldl (fun log call => log ++ [⟨call.1, call.2, decide (recent call.1 call.2 log < perMinute)⟩]) []

def accepted (client : String) (log : List Verdict) : List ℚ :=
  (log.filter fun v => v.client = client ∧ v.allowed = true).map Verdict.time

variable {client : String} {now : ℚ} {log : List Verdict} {rl : RateLimiter}

theorem accepted_concat (client : String) (log : List Verdict) (v : Verdict) :
    accepted client (log ++ [v]) = accepted client log ++ if v.client = client ∧ v.allowed = true then [v.time] else [] := by
  simp only [accepted, List.filter_append, List.map_append, List.filter_cons, List.filter_nil, decide_eq_true_eq]
  split <;> rfl

theorem recent_eq (client : String) (now : ℚ) (log : List Verdict) :
    recent client now log = (Window.since (now - 60) (accepted client log)).length := by
  rw [recent, accepted, Window.since, List.filter_map, List.length_map, List.filter_filter, List.countP_eq_length_filter]
  congr 1
  apply List.filter_congr
  intro v _
  apply Bool.eq_iff_iff.mpr
  simp only [Function.comp, Bool.and_eq_true, decide_eq_true_eq]
  exact ⟨fun h => ⟨h.2.2, h.1, h.2.1⟩, fun h => ⟨h.2.1, h.2.2, h.1⟩⟩

structure Tracks (log : List Verdict) (now : ℚ) (rl : RateLimiter) : Prop where
  keyed : (Assoc.keys rl.hits).Nodup
  sorted : ∀ client, (rl.window client).Pairwise (· ≤ ·)
  past : ∀ client, ∀ t ∈ rl.window client, t ≤ now
  counted : ∀ client cutoff, now - 60 ≤ cutoff →
    Window.since cutoff (rl.window client) = Window.since cutoff (accepted client log)

theorem tracks_new (perMinute : ℤ) (start now : ℚ) : Tracks [] now (new perMinute start) := by
  constructor
  · exact List.nodup_nil
  · exact fun _ => List.Pairwise.nil
  · exact fun _ _ ht => nomatch ht
  · exact fun _ _ _ => rfl

theorem Tracks.later (h : Tracks log now rl) {now' : ℚ} (hle : now ≤ now') : Tracks log now' rl := by
  refine ⟨h.keyed, h.sorted, fun c t ht => (h.past c t ht).trans hle, fun c cutoff hc => ?_⟩
  apply h.counted
  linarith

theorem stale_expired {w : List ℚ} (hs : w.Pairwise (· ≤ ·)) {cutoff : ℚ} (h : stale cutoff w = true) :
    ∀ t ∈ w, t < cutoff := by
  unfold stale at h
  cases hlast : w.getLast? with
  | none =>
    rw [List.getLast?_eq_none_iff.mp hlast]
    exact fun _ ht => nomatch ht
  | some last =>
    rw [hlast] at h
    intro t ht
    exact (Window.le_getLast hs hlast t ht).trans_lt (of_decide_eq_true h)

theorem window_maybePrune (now : ℚ) (hkeyed : (Assoc.keys rl.hits).Nodup) (client : String) :
    (rl.maybePrune now).window client = rl.window client ∨
      (rl.maybePrune now).window client = [] ∧ stale (now - 60) (rl.window client) = true := by
  unfold maybePrune
  split
  · exact .inl rfl
  · unfold window
    rw [Assoc.get?_filter hkeyed]
    cases hget : Assoc.get? rl.hits client with
    | none => exact .inl rfl
    | some w =>
      cases hw : stale (now - 60) w with
      | false => simp [Option.filter_some, hw]
      | true => simp [Option.filter_some, hw]

theorem Tracks.maybePrune (h : Tracks log now rl) : Tracks log now (rl.maybePrune now) := by
  have hkeyed : (Assoc.keys (rl.maybePrune now).hits).Nodup := by
    unfold RateLimiter.maybePrune
    split
    · exact h.keyed
    · exact Assoc.nodup_filter h.keyed _
  refine ⟨hkeyed, fun c => ?_, fun c t ht => ?_, fun c cutoff hc => ?_⟩
  all_goals rcases window_maybePrune now h.keyed c with hw | ⟨hw, hstale⟩
  · rw [hw]
    exact h.sorted c
  · rw [hw]
    exact List.Pairwise.nil
  · rw [hw] at ht
    exact h.past c t ht
  · rw [hw] at ht
    cases ht
  · rw [hw]
    exact h.counted c cutoff hc
  · have hexpired := stale_expired (h.sorted c) hstale
    rw [hw, ← h.counted c cutoff hc]
    symm
    apply Window.since_eq_nil
    exact fun t ht => (hexpired t ht).trans_le hc

theorem perMinute_maybePrune (now : ℚ) (rl : RateLimiter) : (rl.maybePrune now).perMinute = rl.perMinute := by
  unfold maybePrune
  split <;> rfl

theorem window_set (client c : String) (w : List ℚ) (rl : RateLimiter) :
    window c { rl with hits := Assoc.set rl.hits client w } = if client = c then w else rl.window c := by
  simp only [window, Assoc.get?_set]
  split <;> rfl

theorem Tracks.set (h : Tracks log now rl) (client : String) (w : List ℚ) (v : Verdict) (hv : v.client = client)
    (hs : w.Pairwise (· ≤ ·)) (hpast : ∀ t ∈ w, t ≤ now)
    (hw : ∀ cutoff, now - 60 ≤ cutoff → Window.since cutoff w = Window.since cutoff (accepted client (log ++ [v]))) :
    Tracks (log ++ [v]) now { rl with hits := Assoc.set rl.hits client w } := by
  refine ⟨Assoc.nodup_set h.keyed client w, fun c => ?_, fun c t ht => ?_, fun c cutoff hc => ?_⟩
  · rw [window_set]
    split
    · exact hs
    · exact h.sorted c
  · rw [window_set] at ht
    split at ht
    · exact hpast t ht
    · exact h.past c t ht
  · rw [window_set]
    split
    · rename_i heq
      rw [← heq]
      exact hw cutoff hc
    · rename_i hne
      rw [accepted_concat, if_neg fun h => hne (hv.symm.trans h.1), List.append_nil]
      exact h.counted c cutoff hc

def Follows (perMinute : ℤ) (step : String → ℚ → RateLimiter → Bool × RateLimiter) : Prop :=
  ∀ client now log rl, rl.perMinute = perMinute → Tracks log now rl →
    (step client now rl).1 = decide (recent client now log < perMinute) ∧
      (step client now rl).2.perMinute = perMinute ∧
      Tracks (log ++ [⟨client, now, (step client now rl).1⟩]) now (step client now rl).2

theorem allowPruned_follows (perMinute : ℤ) : Follows perMinute allowPruned := by
  intro client now log rl hper h
  have hdrop : ((rl.window client).dropWhile fun t => t < now - 60) = Window.since (now - 60) (rl.window client) :=
    Window.dropWhile_lt (h.sorted client) _
  have hlen : recent client now log = (Window.since (now - 60) (rl.window client)).length := by
    rw [recent_eq, h.counted client _ le_rfl]
  have hsorted : (Window.since (now - 60) (rl.window client)).Pairwise (· ≤ ·) := (h.sorted client).filter _
  have hpast : ∀ t ∈ Window.since (now - 60) (rl.window client), t ≤ now :=
    fun t ht => h.past client t (List.mem_of_mem_filter ht)
  unfold allowPruned
  simp only [hdrop]
  split
  · rename_i hfull
    refine ⟨?_, hper, ?_⟩
    · symm
      apply decide_eq_false
      rw [hlen]
      omega
    · apply h.set client _ _ rfl hsorted hpast
      intro cutoff hc
      rw [Window.since_since hc, h.counted client cutoff hc, accepted_concat, if_neg (fun h => nomatch h.2),
        List.append_nil]
  · rename_i hroom
    refine ⟨?_, hper, ?_⟩
    · symm
      apply decide_eq_true
      rw [hlen]
      omega
    · apply h.set client _ _ rfl (Window.pairwise_concat hsorted hpast)
      · intro t ht
        rcases List.mem_append.mp ht with ht | ht
        · exact hpast t ht
        · exact (List.mem_singleton.mp ht).le
      · intro cutoff hc
        rw [accepted_concat, if_pos ⟨rfl, rfl⟩, Window.since_append, Window.since_append, Window.since_since hc,
          h.counted client cutoff hc]

theorem allow_follows {perMinute : ℤ} (hper : 1 ≤ perMinute) : Follows perMinute allow := by
  intro client now log rl hrl h
  have hpos : ¬ rl.perMinute ≤ 0 := by omega
  have hpruned : (rl.maybePrune now).perMinute = perMinute := (perMinute_maybePrune now rl).trans hrl
  unfold allow
  rw [if_neg hpos]
  exact allowPruned_follows perMinute client now log _ hpruned h.maybePrune

theorem play_concat (step : String → ℚ → RateLimiter → Bool × RateLimiter) (rl : RateLimiter)
    (calls : List (String × ℚ)) (call : String × ℚ) :
    play step rl (calls ++ [call]) =
      ((play step rl calls).1 ++ [⟨call.1, call.2, (step call.1 call.2 (play step rl calls).2).1⟩],
        (step call.1 call.2 (play step rl calls).2).2) := by
  rw [play, List.foldl_append]
  rfl

theorem reference_concat (perMinute : ℤ) (calls : List (String × ℚ)) (call : String × ℚ) :
    reference perMinute (calls ++ [call]) =
      reference perMinute calls ++
        [⟨call.1, call.2, decide (recent call.1 call.2 (reference perMinute calls) < perMinute)⟩] := by
  rw [reference, List.foldl_append]
  rfl

theorem play_eq_reference {perMinute : ℤ} {step : String → ℚ → RateLimiter → Bool × RateLimiter}
    (hstep : Follows perMinute step) (start : ℚ) (calls : List (String × ℚ))
    (hs : calls.Pairwise fun a b => a.2 ≤ b.2) (now : ℚ) (hnow : ∀ call ∈ calls, call.2 ≤ now) :
    (play step (new perMinute start) calls).1 = reference perMinute calls ∧
      (play step (new perMinute start) calls).2.perMinute = perMinute ∧
      Tracks (reference perMinute calls) now (play step (new perMinute start) calls).2 := by
  induction calls using List.reverseRecOn generalizing now with
  | nil => exact ⟨rfl, rfl, tracks_new perMinute start now⟩
  | append_singleton calls call ih =>
    have hsplit := List.pairwise_append.mp hs
    obtain ⟨hlog, hper, htracks⟩ := ih hsplit.1 call.2 fun c hc => hsplit.2.2 c hc call (List.mem_singleton_self call)
    obtain ⟨hverdict, hper', hnext⟩ := hstep call.1 call.2 _ _ hper htracks
    have hcall : call.2 ≤ now := hnow call (List.mem_append_right calls (List.mem_singleton_self call))
    rw [play_concat, reference_concat, hlog]
    rw [hverdict] at hnext ⊢
    exact ⟨rfl, hper', hnext.later hcall⟩

theorem recent_filter (client : String) (now : ℚ) (log : List Verdict) :
    recent client now (log.filter fun v => v.client = client) = recent client now log := by
  unfold recent
  rw [List.countP_filter]
  apply List.countP_congr
  intro v _
  simp only [Bool.and_eq_true, decide_eq_true_eq]
  exact ⟨fun h => h.1, fun h => ⟨h, h.1⟩⟩

theorem reference_filter (perMinute : ℤ) (client : String) (calls : List (String × ℚ)) :
    reference perMinute (calls.filter fun call => call.1 = client) =
      (reference perMinute calls).filter fun v => v.client = client := by
  induction calls using List.reverseRecOn with
  | nil => rfl
  | append_singleton calls call ih =>
    rw [reference_concat, List.filter_append, List.filter_append]
    by_cases hc : call.1 = client
    · subst hc
      rw [List.filter_singleton, List.filter_singleton]
      simp only [decide_true, cond_true]
      rw [reference_concat, ih, recent_filter]
    · rw [List.filter_singleton, List.filter_singleton]
      simp only [hc, decide_false, cond_false, List.append_nil]
      exact ih

/-- The limiter is the sliding-window log; other clients' calls and pruning leave every verdict as it is. -/
theorem allow_iff_fewer_recent {perMinute : ℤ} (hper : 1 ≤ perMinute) (start : ℚ) (calls : List (String × ℚ))
    (client : String) (now : ℚ) (hs : (calls ++ [(client, now)]).Pairwise fun a b => a.2 ≤ b.2) :
    ((allow client now (play allow (new perMinute start) calls).2).1 = true ↔
        ((play allow (new perMinute start) calls).1.countP fun v =>
          v.client = client ∧ v.allowed = true ∧ now - 60 ≤ v.time) < perMinute) ∧
      (play allow (new perMinute start) (calls.filter fun call => call.1 = client)).1 =
        ((play allow (new perMinute start) calls).1.filter fun v => v.client = client) ∧
      (play allowPruned (new perMinute start) calls).1 = (play allow (new perMinute start) calls).1 := by
  have hsplit := List.pairwise_append.mp hs
  have hnow : ∀ call ∈ calls, call.2 ≤ now := fun c hc => hsplit.2.2 c hc _ (List.mem_singleton_self _)
  obtain ⟨hlog, hkept, htracks⟩ := play_eq_reference (allow_follows hper) start calls hsplit.1 now hnow
  have hone := (play_eq_reference (allow_follows hper) start _ (hsplit.1.filter fun call => call.1 = client) now
    fun c hc => hnow c (List.mem_of_mem_filter hc)).1
  have hnever := (play_eq_reference (allowPruned_follows perMinute) start calls hsplit.1 now hnow).1
  refine ⟨?_, ?_, hnever.trans hlog.symm⟩
  · rw [(allow_follows hper client now _ _ hkept htracks).1, hlog, decide_eq_true_iff]
    exact Iff.rfl
  · rw [hone, hlog, reference_filter]

theorem allow_iff_fewer_recent_twice :
    ((allow "a" 60 (play allow (new 1 0) [("a", 0), ("b", 30)]).2).1 = true ↔
        ((play allow (new 1 0) [("a", 0), ("b", 30)]).1.countP fun v =>
          v.client = "a" ∧ v.allowed = true ∧ (60 : ℚ) - 60 ≤ v.time) < (1 : ℤ)) ∧
      (play allow (new 1 0) ([("a", 0), ("b", 30)].filter fun call => call.1 = "a")).1 =
        ((play allow (new 1 0) [("a", 0), ("b", 30)]).1.filter fun v => v.client = "a") ∧
      (play allowPruned (new 1 0) [("a", 0), ("b", 30)]).1 = (play allow (new 1 0) [("a", 0), ("b", 30)]).1 := by
  apply allow_iff_fewer_recent (by omega) 0 [("a", 0), ("b", 30)] "a" 60
  simp
  norm_num

end RateLimiter

end JvmScout.Security
