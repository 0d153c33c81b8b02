import JvmScout.Agent.ExceptionHandler
import JvmScout.Agent.MethodInfoCache
import Mathlib.Data.List.Perm.Basic
import Mathlib.Logic.Function.Basic

/-!
The exception callback from the throw on (`exception_callback`), on any number of threads: the
guard against captures inside captures, the filters, the cache of methods, and the handler that
takes over with the sampler's decision.
-/

namespace JvmScout.Agent.ExceptionCallback

open Runs

variable {T M : Type} [DecidableEq T] [DecidableEq M]

def typeFilter (cfg : AgentSettings) : DenyAllowFilter := ⟨cfg.deny, []⟩

structure Raised (T M : Type) where
  thread : T
  exceptionType : Bytes
  method : M
  location : ℤ

inductive Stage where
  | looking
  | missing
  | found (info : MethodInfo)
  | handled (k : ℕ)
  | left

def Stage.isLeft : Stage → Bool
  | .left => true
  | _ => false

structure Callback (T M : Type) where
  raised : Raised T M
  alone : Bool
  started : Bool
  decided : Bool
  stage : Stage

def Callback.within (t : T) (c : Callback T M) : Bool := decide (c.raised.thread = t) && !c.stage.isLeft

abbrev Decided (T M : Type) := Raised T M × Bytes × ℤ

/-- `inCapture` is `t_in_capture` of each thread, `log` what the sampler was asked so far. -/
structure State (T M : Type) where
  started : Bool
  inCapture : T → Bool
  cache : List (M × MethodInfo)
  callbacks : List (Callback T M)
  handler : ExceptionHandler.State
  log : List (Decided T M)

def initial : State T M := ⟨false, fun _ => false, [], [], ExceptionHandler.initial, []⟩

/-- `vmInit` is also the end of an attachment to a running VM. `insert` has the answers that JVMTI
gave about the method, `decide` what the handler goes on to collect. -/
inductive Label (T M : Type) where
  | vmInit
  | vmDeath
  | raise (r : Raised T M)
  | look (i : ℕ)
  | insert (i : ℕ) (m : M) (a : MethodAnswers)
  | decide (i : ℕ) (details : ExceptionHandler.Throw) (t : ℤ)
  | leave (i : ℕ)
  | handler (l : ExceptionHandler.Label)

def locationFromCache (info : MethodInfo) (location : ℤ) : Location Bytes :=
  ⟨info.classDotted, info.methodName, info.lineAt location, info.sourceFile, true⟩

def throwOf (r : Raised T M) (info : MethodInfo) (details : ExceptionHandler.Throw) : ExceptionHandler.Throw :=
  { details with
    fingerprint := computeFingerprint r.exceptionType info.classSlash info.methodName (info.lineAt r.location)
    exceptionType := r.exceptionType
    location := locationFromCache info r.location }

def raise (cfg : AgentSettings) (r : Raised T M) (s : State T M) : State T M :=
  let c : Callback T M := ⟨r, !s.callbacks.any (Callback.within r.thread), s.started, false, .left⟩
  if s.inCapture r.thread || !s.started || !(typeFilter cfg).accept r.exceptionType then
    { s with callbacks := s.callbacks ++ [c] }
  else
    { s with
      inCapture := Function.update s.inCapture r.thread true
      callbacks := s.callbacks ++ [{ c with stage := .looking }] }

def move (i : ℕ) (c : Callback T M) (s : State T M) : State T M := { s with callbacks := s.callbacks.set i c }

def leave (i : ℕ) (c : Callback T M) (s : State T M) : State T M :=
  { move i { c with stage := .left } s with inCapture := Function.update s.inCapture c.raised.thread false }

def step (cfg : AgentSettings) (hash : Bytes → ℕ) (transport : Bool) (s : State T M) : Label T M → Option (State T M)
  | .vmInit => some { s with started := true }
  | .vmDeath =>
    (ExceptionHandler.step cfg.toAgentConfig hash transport s.handler .vmDeath).map fun h =>
      { s with started := false, handler := h }
  | .raise r => some (raise cfg r s)
  | .look i =>
    match s.callbacks[i]? with
    | some ⟨r, alone, started, decided, .looking⟩ =>
      match Assoc.get? s.cache r.method with
      | some info => some (move i ⟨r, alone, started, decided, .found info⟩ s)
      | none => some (move i ⟨r, alone, started, decided, .missing⟩ s)
    | _ => none
  | .insert i m a =>
    match s.callbacks[i]? with
    | some ⟨r, alone, started, decided, .missing⟩ =>
      if r.method = m then
        let (info, cache) := MethodInfoCache.emplace m (MethodInfo.resolve (locationFilter cfg) a) s.cache
        some { move i ⟨r, alone, started, decided, .found info⟩ s with cache := cache }
      else none
    | _ => none
  | .decide i details t =>
    match s.callbacks[i]? with
    | some ⟨r, alone, started, decided, .found info⟩ =>
      if info.locationDenied then some (leave i ⟨r, alone, started, decided, .found info⟩ s)
      else
        let x := throwOf r info details
        (ExceptionHandler.step cfg.toAgentConfig hash transport s.handler (.throw x t)).map fun h =>
          { move i ⟨r, alone, started, true, .handled s.handler.calls.length⟩ s with
            handler := h
            log := s.log ++ [(r, x.fingerprint, t)] }
    | _ => none
  | .leave i =>
    match s.callbacks[i]? with
    | some ⟨r, alone, started, decided, .handled k⟩ =>
      match s.handler.calls[k]? with
      | some .done => some (leave i ⟨r, alone, started, decided, .handled k⟩ s)
      | _ => none
    | _ => none
  | .handler (.throw _ _) | .handler .vmDeath => none
  | .handler l =>
    (ExceptionHandler.step cfg.toAgentConfig hash transport s.handler l).map fun h => { s with handler := h }

section Direct

variable (cfg : AgentSettings) (jvm : M → MethodAnswers)

def admits (c : Callback T M) : Bool :=
  c.alone && c.started && (typeFilter cfg).accept c.raised.exceptionType &&
    (locationFilter cfg).accept (signatureToSlash ((jvm c.raised.method).signature.getD []))

def siteFingerprint (r : Raised T M) : Bytes :=
  let info := MethodInfo.resolve (locationFilter cfg) (jvm r.method)
  computeFingerprint r.exceptionType info.classSlash info.methodName (info.lineAt r.location)

def Keeps (c : Callback T M) : Prop :=
  match c.stage with
  | .looking | .missing => c.decided = false ∧ (c.alone && c.started && (typeFilter cfg).accept c.raised.exceptionType)
  | .found info =>
    (c.decided = false ∧ (c.alone && c.started && (typeFilter cfg).accept c.raised.exceptionType)) ∧
      info = MethodInfo.resolve (locationFilter cfg) (jvm c.raised.method)
  | .handled _ => c.decided = true ∧ admits cfg jvm c = true
  | .left => c.decided = admits cfg jvm c

structure Sound (hash : Bytes → ℕ) (s : State T M) : Prop where
  bounded : s.cache.length ≤ MethodInfoCache.kMaxEntries
  cached : ∀ m info, Assoc.get? s.cache m = some info → info = MethodInfo.resolve (locationFilter cfg) (jvm m)
  inside : ∀ t, s.callbacks.countP (Callback.within t) = if s.inCapture t then 1 else 0
  callbacks : ∀ c ∈ s.callbacks, Keeps cfg jvm c
  logged : (s.log.map Prod.fst).Perm ((s.callbacks.filter (·.decided)).map (·.raised))
  sited : ∀ e ∈ s.log, e.2.1 = siteFingerprint cfg jvm e.1
  sampler : s.handler.sampler =
    s.log.foldl (fun sp e => (sp.decide hash e.2.1 e.2.2).2) (Sampler.new Sampler.kDefaultMaxEntries)
  processed : s.handler.processed = s.log.length
  balanced : ExceptionHandler.Balanced s.handler

end Direct

variable {cfg : AgentSettings} {jvm : M → MethodAnswers} {hash : Bytes → ℕ} {transport : Bool} {s s' : State T M}

theorem handler_keeps {h h' : ExceptionHandler.State} {l : ExceptionHandler.Label} (hthrow : ∀ x t, l ≠ .throw x t)
    (hstep : ExceptionHandler.step cfg.toAgentConfig hash transport h l = some h') :
    h'.sampler = h.sampler ∧ h'.processed = h.processed := by
  cases l with
  | throw x t => exact absurd rfl (hthrow x t)
  | vmDeath =>
    cases hstep
    exact ⟨rfl, rfl⟩
  | advance i t =>
    simp only [ExceptionHandler.step] at hstep
    split at hstep
    · cases hstep
    · rename_i c hc
      obtain ⟨⟨c', u⟩, hadvance, rfl⟩ := Option.map_eq_some_iff.mp hstep
      cases c with
      | decided x d =>
        simp only [ExceptionHandler.Call.advance] at hadvance
        split at hadvance <;> cases hadvance <;> exact ⟨rfl, rfl⟩
      | handing rest | shipping rest => cases rest <;> cases hadvance <;> exact ⟨rfl, rfl⟩
      | flushing force =>
        cases hadvance
        exact ⟨rfl, rfl⟩
      | done => cases hadvance
  | queue a =>
    cases a with
    | enqueue event => cases hstep
    | _ =>
      simp only [ExceptionHandler.step] at hstep
      obtain ⟨q, -, rfl⟩ := Option.map_eq_some_iff.mp hstep
      exact ⟨rfl, rfl⟩

theorem exists_rest {α : Type*} {l : List α} {i : ℕ} {a : α} (h : l[i]? = some a) :
    ∃ rest, l.Perm (a :: rest) ∧ ∀ b, (l.set i b).Perm (b :: rest) := by
  obtain ⟨hi, rfl⟩ := List.getElem?_eq_some_iff.mp h
  exact ⟨l.eraseIdx i, (List.getElem_cons_eraseIdx_perm hi).symm, List.set_perm_cons_eraseIdx hi⟩

theorem Sound.move (hs : Sound cfg jvm hash s) {i : ℕ} {c c' : Callback T M} (hc : s.callbacks[i]? = some c)
    (hraised : c'.raised = c.raised) (hleft : c'.stage.isLeft = c.stage.isLeft) (hdecided : c'.decided = c.decided)
    (hkeeps : Keeps cfg jvm c') : Sound cfg jvm hash (move i c' s) := by
  obtain ⟨rest, hperm, hset⟩ := exists_rest hc
  refine { hs with inside := fun t => ?_, callbacks := fun x hx => ?_, logged := ?_ }
  · have hcount := hs.inside t
    have hwithin : c'.within t = c.within t := by rw [Callback.within, Callback.within, hraised, hleft]
    rw [hperm.countP_eq, List.countP_cons, ← hwithin, ← List.countP_cons, ← (hset c').countP_eq] at hcount
    exact hcount
  · rcases List.mem_or_eq_of_mem_set hx with hx | rfl
    · exact hs.callbacks x hx
    · exact hkeeps
  · have hlogged := hs.logged
    apply hlogged.trans
    have hold := ((hperm.filter (·.decided)).map (·.raised))
    have hnew := (((hset c').filter (·.decided)).map (·.raised))
    apply hold.trans
    apply List.Perm.trans _ hnew.symm
    rw [List.filter_cons, List.filter_cons, hdecided]
    split
    · rw [List.map_cons, List.map_cons, hraised]
    · rfl

theorem Sound.leave (hs : Sound cfg jvm hash s) {i : ℕ} {c : Callback T M} (hc : s.callbacks[i]? = some c)
    (hinside : c.stage.isLeft = false) (hverdict : c.decided = admits cfg jvm c) :
    Sound cfg jvm hash (leave i c s) := by
  obtain ⟨rest, hperm, hset⟩ := exists_rest hc
  have hgone (t : T) : ({ c with stage := .left } : Callback T M).within t = false := by
    rw [Callback.within, Stage.isLeft, Bool.not_true, Bool.and_false]
  refine { hs with inside := fun t => ?_, callbacks := fun x hx => ?_, logged := ?_ }
  · have hcount := hs.inside t
    rw [hperm.countP_eq, List.countP_cons] at hcount
    change (s.callbacks.set i _).countP (Callback.within t) =
      if Function.update s.inCapture c.raised.thread false t = true then 1 else 0
    rw [(hset _).countP_eq, List.countP_cons, hgone, if_neg (by simp)]
    by_cases ht : t = c.raised.thread
    · subst ht
      have hwithin : c.within c.raised.thread = true := by
        rw [Callback.within, hinside, decide_eq_true rfl]
        rfl
      rw [hwithin, if_pos rfl] at hcount
      rw [Function.update_self, if_neg (by simp)]
      split at hcount <;> omega
    · have hwithin : c.within t = false := by
        rw [Callback.within, decide_eq_false (Ne.symm ht)]
        rfl
      rw [hwithin, if_neg (by simp)] at hcount
      rw [Function.update_of_ne ht]
      exact hcount
  · rcases List.mem_or_eq_of_mem_set hx with hx | rfl
    · exact hs.callbacks x hx
    · exact hverdict
  · have hold := ((hperm.filter (·.decided)).map (·.raised))
    have hnew := (((hset { c with stage := .left }).filter (·.decided)).map (·.raised))
    apply hs.logged.trans
    apply hold.trans
    apply List.Perm.trans _ hnew.symm
    rw [List.filter_cons, List.filter_cons]
    split
    · rw [List.map_cons, List.map_cons]
    · rfl

theorem Sound.join (hs : Sound cfg jvm hash s) (c : Callback T M) (hdecided : c.decided = false)
    (hkeeps : Keeps cfg jvm c) {inCapture : T → Bool}
    (hinside : ∀ t, (s.callbacks ++ [c]).countP (Callback.within t) = if inCapture t then 1 else 0) :
    Sound cfg jvm hash { s with callbacks := s.callbacks ++ [c], inCapture := inCapture } := by
  refine { hs with inside := hinside, callbacks := fun x hx => ?_, logged := ?_ }
  · rcases List.mem_append.mp hx with hx | hx
    · exact hs.callbacks x hx
    · rw [List.mem_singleton.mp hx]
      exact hkeeps
  · dsimp only
    rw [List.filter_append, List.filter_cons_of_neg (by simp [hdecided]), List.filter_nil, List.append_nil]
    exact hs.logged

theorem Sound.alone_iff (hs : Sound cfg jvm hash s) (t : T) :
    (!s.callbacks.any (Callback.within t)) = !s.inCapture t := by
  have hcount := hs.inside t
  congr 1
  rw [Bool.eq_iff_iff, List.any_eq_true]
  cases hflag : s.inCapture t with
  | true =>
    rw [hflag, if_pos rfl] at hcount
    have hpos : 0 < s.callbacks.countP (Callback.within t) := by omega
    exact iff_of_true (List.countP_pos_iff.mp hpos) rfl
  | false =>
    rw [hflag, if_neg (by simp)] at hcount
    apply iff_of_false _ (by simp)
    rintro ⟨c, hc, hwithin⟩
    exact List.countP_eq_zero.mp hcount c hc hwithin

theorem Sound.raise (hs : Sound cfg jvm hash s) (r : Raised T M) :
    Sound cfg jvm hash (raise cfg r s) := by
  have halone := hs.alone_iff r.thread
  rw [ExceptionCallback.raise]
  split
  · rename_i hreturns
    apply hs.join _ rfl
    · have hnot : (!s.callbacks.any (Callback.within r.thread) && s.started &&
          (typeFilter cfg).accept r.exceptionType) = false := by
        rw [halone]
        revert hreturns
        cases s.inCapture r.thread <;> cases s.started <;> cases (typeFilter cfg).accept r.exceptionType <;> simp
      change false = admits cfg jvm _
      rw [admits, hnot, Bool.false_and]
    · intro t
      rw [List.countP_append, hs.inside t, List.countP_singleton]
      simp [Callback.within, Stage.isLeft]
  · rename_i hstays
    have hstays : s.inCapture r.thread = false ∧ s.started = true ∧
        (typeFilter cfg).accept r.exceptionType = true := by
      revert hstays
      cases s.inCapture r.thread <;> cases s.started <;> cases (typeFilter cfg).accept r.exceptionType <;> simp
    obtain ⟨hflag, hstarted, haccept⟩ := hstays
    apply hs.join _ rfl
    · refine ⟨rfl, ?_⟩
      dsimp only
      rw [halone, hflag, hstarted, haccept]
      rfl
    · intro t
      rw [List.countP_append, hs.inside t, List.countP_singleton]
      by_cases ht : t = r.thread
      · subst ht
        rw [hflag, Function.update_self]
        simp [Callback.within, Stage.isLeft]
      · rw [Function.update_of_ne ht]
        simp [Callback.within, Stage.isLeft, Ne.symm ht]

theorem Sound.decide (hs : Sound cfg jvm hash s) {i k : ℕ} {c : Callback T M} {info : MethodInfo}
    (hc : s.callbacks[i]? = some c) (hstage : c.stage = .found info) (haccept : info.locationDenied = false)
    {x : ExceptionHandler.Throw} {details : ExceptionHandler.Throw} (hx : x = throwOf c.raised info details) {t : ℤ}
    {h : ExceptionHandler.State}
    (hstep : ExceptionHandler.step cfg.toAgentConfig hash transport s.handler (.throw x t) = some h) :
    Sound cfg jvm hash
      { ExceptionCallback.move i { c with decided := true, stage := .handled k } s with
        handler := h
        log := s.log ++ [(c.raised, x.fingerprint, t)] } := by
  have hkeeps := hs.callbacks c (List.mem_of_getElem? hc)
  rw [Keeps, hstage] at hkeeps
  obtain ⟨⟨hundecided, hfront⟩, rfl⟩ := hkeeps
  have hadmits : admits cfg jvm c = true := by
    rw [admits, hfront, Bool.true_and, ← Bool.not_eq_false']
    exact haccept
  obtain ⟨rest, hperm, hset⟩ := exists_rest hc
  have hbalanced := hs.balanced.step hstep
  cases hstep
  refine ⟨hs.bounded, hs.cached, fun t => ?_, fun x hx => ?_, ?_, fun e he => ?_, ?_, ?_, hbalanced⟩
  · have hcount := hs.inside t
    have hwithin : ({ c with decided := true, stage := .handled k } : Callback T M).within t = c.within t := by
      rw [Callback.within, Callback.within, hstage]
      rfl
    rw [hperm.countP_eq, List.countP_cons, ← hwithin, ← List.countP_cons, ← (hset _).countP_eq] at hcount
    exact hcount
  · rcases List.mem_or_eq_of_mem_set hx with hx | rfl
    · exact hs.callbacks x hx
    · exact ⟨rfl, hadmits⟩
  · have hold := ((hperm.filter (·.decided)).map (·.raised))
    have hnew := (((hset { c with decided := true, stage := .handled k }).filter (·.decided)).map (·.raised))
    rw [List.filter_cons_of_neg (by simp [hundecided])] at hold
    rw [List.filter_cons_of_pos rfl, List.map_cons] at hnew
    rw [List.map_append]
    apply List.Perm.trans _ hnew.symm
    apply (List.perm_append_comm).trans
    exact (hs.logged.trans hold).cons c.raised
  · rcases List.mem_append.mp he with he | he
    · exact hs.sited e he
    · rw [List.mem_singleton.mp he, hx]
      rfl
  · rw [List.foldl_append, ← hs.sampler]
    rfl
  · rw [List.length_append, ← hs.processed]
    rfl

theorem Sound.handle (hs : Sound cfg jvm hash s) {l : ExceptionHandler.Label} (hthrow : ∀ x t, l ≠ .throw x t)
    {h : ExceptionHandler.State} (started : Bool)
    (hstep : ExceptionHandler.step cfg.toAgentConfig hash transport s.handler l = some h) :
    Sound cfg jvm hash { s with handler := h, started := started } := by
  obtain ⟨hsampler, hprocessed⟩ := handler_keeps hthrow hstep
  refine { hs with sampler := hsampler.trans hs.sampler, processed := hprocessed.trans hs.processed, balanced := ?_ }
  exact hs.balanced.step hstep

def OneAnswer (jvm : M → MethodAnswers) : Label T M → Prop
  | .insert _ m a => a = jvm m
  | _ => True

theorem Sound.step (hs : Sound cfg jvm hash s) {l : Label T M} (hl : OneAnswer jvm l)
    (h : step cfg hash transport s l = some s') : Sound cfg jvm hash s' := by
  cases l with
  | vmInit =>
    cases h
    exact { hs with }
  | vmDeath =>
    simp only [ExceptionCallback.step] at h
    obtain ⟨u, hu, rfl⟩ := Option.map_eq_some_iff.mp h
    exact hs.handle (fun x t => by simp) false hu
  | raise r =>
    cases h
    exact hs.raise r
  | look i =>
    simp only [ExceptionCallback.step] at h
    split at h
    · rename_i r alone started decided hc
      have hkeeps := hs.callbacks _ (List.mem_of_getElem? hc)
      split at h
      · rename_i info hget
        cases h
        exact hs.move hc rfl rfl rfl ⟨hkeeps, hs.cached r.method info hget⟩
      · cases h
        exact hs.move hc rfl rfl rfl hkeeps
    · cases h
  | insert i m a =>
    simp only [ExceptionCallback.step] at h
    split at h
    · rename_i r alone started decided hc
      have hkeeps := hs.callbacks _ (List.mem_of_getElem? hc)
      split at h
      · rename_i hm
        cases h
        cases hm
        have hinfo : MethodInfo.resolve (locationFilter cfg) a =
            MethodInfo.resolve (locationFilter cfg) (jvm r.method) := by rw [hl]
        obtain ⟨hgiven, hcached⟩ := MethodInfoCache.emplace_kept hs.cached hinfo
        have hmoved : Sound cfg jvm hash (ExceptionCallback.move i ⟨r, alone, started, decided, .found _⟩ s) :=
          hs.move hc rfl rfl rfl ⟨hkeeps, hgiven⟩
        exact { hmoved with bounded := MethodInfoCache.emplace_length _ _ _, cached := hcached }
      · cases h
    · cases h
  | decide i details t =>
    simp only [ExceptionCallback.step] at h
    split at h
    · rename_i r alone started decided info hc
      split at h
      · rename_i hdenied
        cases h
        obtain ⟨⟨hundecided, -⟩, hinfo⟩ := hs.callbacks _ (List.mem_of_getElem? hc)
        rw [hinfo] at hdenied
        apply hs.leave hc rfl
        have hreject : (locationFilter cfg).accept (signatureToSlash ((jvm r.method).signature.getD [])) = false := by
          rw [← Bool.not_eq_true']
          exact hdenied
        rw [admits, hreject, Bool.and_false]
        exact hundecided
      · rename_i haccept
        obtain ⟨u, hu, rfl⟩ := Option.map_eq_some_iff.mp h
        exact hs.decide hc rfl (by simpa using haccept) rfl hu
    · cases h
  | leave i =>
    simp only [ExceptionCallback.step] at h
    split at h
    · rename_i r alone started decided k hc
      obtain ⟨hdecided, hadmits⟩ := hs.callbacks _ (List.mem_of_getElem? hc)
      split at h
      · cases h
        exact hs.leave hc rfl (hdecided.trans hadmits.symm)
      · cases h
    · cases h
  | handler l =>
    cases l with
    | throw x t => cases h
    | vmDeath => cases h
    | advance k t =>
      simp only [ExceptionCallback.step] at h
      obtain ⟨u, hu, rfl⟩ := Option.map_eq_some_iff.mp h
      exact hs.handle (fun x t => by simp) s.started hu
    | queue a =>
      simp only [ExceptionCallback.step] at h
      obtain ⟨u, hu, rfl⟩ := Option.map_eq_some_iff.mp h
      exact hs.handle (fun x t => by simp) s.started hu

theorem sound_initial : Sound cfg jvm hash (initial : State T M) where
  bounded := Nat.zero_le _
  cached _ _ h := nomatch h
  inside _ := rfl
  callbacks _ hc := nomatch hc
  logged := List.Perm.nil
  sited _ he := nomatch he
  sampler := rfl
  processed := rfl
  balanced := ⟨rfl, ⟨fun _ he => (nomatch he), fun _ he => (nomatch he), Nat.zero_le _⟩, rfl⟩

/-- A throw is counted, and once, if it is one to count: not thrown from inside a callback of its
thread, while the agent runs, and let through by both filters. -/
theorem throws_counted_once {ls : List (Label T M)} (hanswers : ∀ l ∈ ls, OneAnswer jvm l)
    (hrun : run (step cfg hash transport) initial ls = some s) :
    s.cache.length ≤ MethodInfoCache.kMaxEntries ∧
      s.handler.sampler =
        s.log.foldl (fun sp e => (sp.decide hash e.2.1 e.2.2).2) (Sampler.new Sampler.kDefaultMaxEntries) ∧
      ((∀ c ∈ s.callbacks, c.stage.isLeft = true) →
        s.callbacks.countP (admits cfg jvm) =
            ExceptionHandler.captures s.handler.handed + ExceptionHandler.summarized s.handler.handed +
              s.handler.aggregator.pendingCount + s.handler.aggregator.overflowDropped +
              ExceptionHandler.carried s.handler.calls ∧
          (s.log.map fun e => e.2.1).Perm
            ((s.callbacks.filter (admits cfg jvm)).map fun c => siteFingerprint cfg jvm c.raised)) := by
  have hs : Sound cfg jvm hash s :=
    run_invariant (fun s l hl t hi h => hi.step (hanswers l hl) h) sound_initial hrun
  refine ⟨hs.bounded, hs.sampler, fun hleft => ?_⟩
  have hverdict (c) (hc : c ∈ s.callbacks) : c.decided = admits cfg jvm c := by
    have hkeeps := hs.callbacks c hc
    have hend := hleft c hc
    rw [Keeps] at hkeeps
    cases hstage : c.stage with
    | left =>
      rw [hstage] at hkeeps
      exact hkeeps
    | _ =>
      rw [hstage] at hend
      cases hend
  have hfilter : s.callbacks.filter (·.decided) = s.callbacks.filter (admits cfg jvm) :=
    List.filter_congr hverdict
  have hlogged := hs.logged
  rw [hfilter] at hlogged
  constructor
  · have hlength := hlogged.length_eq
    rw [List.length_map, List.length_map, ← List.countP_eq_length_filter, ← hs.processed] at hlength
    rw [← hlength]
    exact hs.balanced.throws
  · have hsites : (s.log.map fun e => e.2.1) = (s.log.map Prod.fst).map (siteFingerprint cfg jvm) := by
      rw [List.map_map]
      exact List.map_congr_left hs.sited
    have hcallbacks : ((s.callbacks.filter (admits cfg jvm)).map (·.raised)).map (siteFingerprint cfg jvm) =
        (s.callbacks.filter (admits cfg jvm)).map fun c => siteFingerprint cfg jvm c.raised := List.map_map
    rw [hsites, ← hcallbacks]
    exact hlogged.map (siteFingerprint cfg jvm)

def quietSettings : AgentSettings :=
  { defaultSettings with deny := [], locationDeny := [ascii "java/".toList], capturePackages := [] }

def twoMethods (m : ℕ) : MethodAnswers :=
  ⟨some (ascii "run".toList), some (ascii (if m = 0 then "LA;" else "Ljava/B;").toList), none, some [⟨0, 7⟩]⟩

def raisedIn (m : ℕ) : Raised ℕ ℕ := ⟨1, ascii "E".toList, m, 2⟩

def nestedThrow : List (Label ℕ ℕ) :=
  [.vmInit, .raise (raisedIn 0), .look 0, .insert 0 0 (twoMethods 0), .decide 0 ExceptionHandler.sampleThrow 5,
    .raise (raisedIn 0), .handler (.advance 0 5), .handler (.advance 0 5), .handler (.advance 0 5),
    .handler (.advance 0 5), .handler (.advance 0 5), .handler (.advance 0 5), .leave 0, .raise (raisedIn 1),
    .look 2, .insert 2 1 (twoMethods 1), .decide 2 ExceptionHandler.sampleThrow 6]

theorem throws_counted_once_nested :
    ∃ s, run (step quietSettings (fun _ => 0) true) initial nestedThrow = some s ∧
      s.callbacks.countP (admits quietSettings twoMethods) =
        ExceptionHandler.captures s.handler.handed + ExceptionHandler.summarized s.handler.handed +
          s.handler.aggregator.pendingCount + s.handler.aggregator.overflowDropped +
          ExceptionHandler.carried s.handler.calls := by
  have hend : (run (step quietSettings (fun _ => 0) true) initial nestedThrow).map
      (fun s => s.callbacks.map (·.stage)) = some [.left, .left, .left] := rfl
  obtain ⟨s, hrun, hstages⟩ := Option.map_eq_some_iff.mp hend
  have hanswers : ∀ l ∈ nestedThrow, OneAnswer twoMethods l := by
    simp [nestedThrow, OneAnswer]
  refine ⟨s, hrun, ((throws_counted_once hanswers hrun).2.2 fun c hc => ?_).1⟩
  have hstage : c.stage ∈ s.callbacks.map (·.stage) := List.mem_map_of_mem hc
  rw [hstages] at hstage
  have hleft : c.stage = .left := by simpa using hstage
  rw [hleft]
  rfl

end JvmScout.Agent.ExceptionCallback
