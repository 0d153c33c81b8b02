import JvmScout.Agent.WorkerLoop
import JvmScout.Collector.Routes

namespace JvmScout.Wire

open Runs Agent Agent.AsyncQueue Routes

def collectorStatus (maxBodyBytes : ℕ) (body : String) : ℤ :=
  if maxBodyBytes < body.utf8ByteSize then 413 else 200

def FitsAlone (maxBodyBytes : ℕ) (event : String) : Prop :=
  (buildBatch [event]).utf8ByteSize ≤ maxBodyBytes

instance (maxBodyBytes : ℕ) (event : String) : Decidable (FitsAlone maxBodyBytes event) :=
  inferInstanceAs (Decidable (_ ≤ _))

def Sendable (maxBodyBytes : ℕ) (events : List String) : Prop :=
  (buildBatch events).utf8ByteSize ≤ maxBodyBytes ∨ ∀ event ∈ events, ¬ FitsAlone maxBodyBytes event

theorem readJsonBody_limit {py : Python} (hint : ∀ n : ℕ, py.parseInt (toString n) = some (n : ℤ))
    (maxBodyBytes : ℕ) {body : String} (hne : body.utf8ByteSize ≠ 0) (v : Json) :
    readJsonBody py maxBodyBytes ⟨some (toString body.utf8ByteSize), body.utf8ByteSize, .json v⟩ =
      if collectorStatus maxBodyBytes body = 413 then .error (.http 413 "payload too large") else .ok v := by
  unfold readJsonBody checkContentLength collectorStatus
  by_cases hlt : maxBodyBytes < body.utf8ByteSize
  · simp only [hint, Nat.cast_lt, hlt, if_true, bind, Except.bind]
  · simp only [hint, Nat.cast_lt, hlt, hne, if_false, bind, Except.bind, pure, Except.pure]
    norm_num

def collectorAnswer (maxBodyBytes : ℕ) (body : String) : SendResult :=
  classifyHttpStatus (collectorStatus maxBodyBytes body)

theorem collectorAnswer_eq (maxBodyBytes : ℕ) (body : String) :
    collectorAnswer maxBodyBytes body = if maxBodyBytes < body.utf8ByteSize then .kPermanent else .kOk := by
  unfold collectorAnswer collectorStatus
  split <;> rfl

def Answered (maxBodyBytes : ℕ) (s : State) : Action → Prop
  | .answer r => r = .kRetryable ∨ ∀ batch stopping attempt, s.worker = .sending batch stopping attempt →
      r = collectorAnswer maxBodyBytes (buildBatch batch.events)
  | _ => True

def noEnqueue : Action → Bool
  | .enqueue _ => false
  | _ => true

theorem rejected_oversized {maxBodyBytes : ℕ} {s : State} {batch : Batch} {stopping : Bool} {attempt : ℕ}
    (ha : Answered maxBodyBytes s (.answer .kPermanent)) (hw : s.worker = .sending batch stopping attempt) :
    maxBodyBytes < (buildBatch batch.events).utf8ByteSize := by
  rcases ha with hfail | hanswer
  · cases hfail
  · have hclass := hanswer batch stopping attempt hw
    by_contra hle
    rw [collectorAnswer_eq, if_neg hle] at hclass
    cases hclass

def Worker.batch? : Worker → Option Batch
  | .loaded batch | .sending batch _ _ | .retrying batch _ _ | .unsent batch _ => some batch
  | .idle | .waiting | .tail | .dropping _ _ => none

structure Harmless (maxBodyBytes : ℕ) (h : Traffic) : Prop where
  inHand : ∀ batch, Worker.batch? h.state.worker = some batch → Sendable maxBodyBytes batch.events
  rejected : ∀ batch ∈ h.rejected, ∀ event ∈ batch.events, ¬ FitsAlone maxBodyBytes event

def CutSendable (maxBodyBytes : ℕ) (s : State) (a : Action) : Prop :=
  a = .popBatch → s.worker = .waiting → Sendable maxBodyBytes (s.queue.take kBatchSize)

variable {maxBodyBytes : ℕ} {s t : State} {a : Action} {h h' : Traffic}

theorem step_batch (hs : step true s a = some t) {batch : Batch} (hb : Worker.batch? t.worker = some batch) :
    Worker.batch? s.worker = some batch ∨
      (a = .popBatch ∧ s.worker = .waiting ∧ batch.events = s.queue.take kBatchSize) := by
  cases step_cases hs with
  | refuse | accept | resume | publishDeadline | clearRunning | tick => exact .inl hb
  | pop batch' rest hw hq hcut =>
    cases hb
    exact .inr ⟨rfl, hw, hcut⟩
  | send batch' hw | failed batch' _ _ hw | resend batch' _ _ hw | giveUp batch' _ _ hw =>
    rw [hw]
    exact .inl hb
  | _ => cases hb

theorem mem_answered {r : SendResult} {batch : Batch} (hb : batch ∈ answered s r a) :
    a = .answer r ∧ ∃ stopping attempt, s.worker = .sending batch stopping attempt := by
  unfold answered at hb
  split at hb
  · rename_i r'
    split at hb
    · rename_i batch' stopping attempt hw
      split at hb
      · rename_i hr
        cases List.mem_singleton.mp hb
        exact ⟨congrArg _ hr, stopping, attempt, hw⟩
      · cases hb
    · cases hb
  · cases hb

theorem Harmless.step (hi : Harmless maxBodyBytes h) (ha : Answered maxBodyBytes h.state a)
    (hc : CutSendable maxBodyBytes h.state a) (hs : Traffic.step true h a = some h') :
    Harmless maxBodyBytes h' := by
  obtain ⟨t, ht, rfl⟩ := Traffic.step_eq_some.mp hs
  refine ⟨fun batch hb => ?_, fun batch hmem => ?_⟩
  · rcases step_batch ht hb with hb | ⟨hpop, hw, hcut⟩
    · exact hi.inHand batch hb
    · rw [hcut]
      exact hc hpop hw
  · rcases List.mem_append.mp hmem with hmem | hmem
    · exact hi.rejected batch hmem
    · obtain ⟨rfl, stopping, attempt, hw⟩ := mem_answered hmem
      rcases hi.inHand batch (by rw [hw]; rfl) with hfits | hnone
      · exact absurd (rejected_oversized ha hw) (Nat.not_lt.mpr hfits)
      · exact hnone

theorem no_collateral_rejection {as : List Action} {t : Traffic}
    (ha : AllSteps (Traffic.step true)
      (fun h a => Answered maxBodyBytes h.state a ∧ CutSendable maxBodyBytes h.state a) (.start initial) as)
    (hr : run (Traffic.step true) (.start initial) as = some t) :
    ∀ batch ∈ t.rejected, ∀ event ∈ batch.events, ¬ FitsAlone maxBodyBytes event := by
  have hinit : Harmless maxBodyBytes (.start initial) :=
    { inHand := fun batch hb => (by cases hb), rejected := fun batch hb => (by cases hb) }
  have hharmless : Harmless maxBodyBytes t :=
    run_guarded (fun s a u hi hp hs => hi.step hp.1 hp.2 hs) hinit ha hr
  exact hharmless.rejected

def holding (q : List String) : State := { initial with queue := q, running := true, worker := .waiting }

theorem pushFront_of_fits (rev : List String) {queue : List String} (hfits : queue.length + rev.length ≤ kMaxQueue) :
    pushFront queue rev = (rev.reverse ++ queue, 0) := by
  induction rev generalizing queue with
  | nil => rfl
  | cons event rest ih =>
    simp only [List.length_cons] at hfits
    have hroom : ¬ kMaxQueue ≤ queue.length := by omega
    have hrest : (event :: queue).length + rest.length ≤ kMaxQueue := by
      simp only [List.length_cons]
      omega
    rw [pushFront, if_neg hroom, ih hrest]
    simp

theorem step_queue (hno : noEnqueue a = true) (hs : step true s a = some t) :
    (t.queue = s.queue ∧ ∀ batch, Worker.batch? t.worker = some batch → Worker.batch? s.worker = some batch) ∨
      (t.queue = s.queue.drop kBatchSize ∧
        ∀ batch, Worker.batch? t.worker = some batch → batch.events ++ t.queue = s.queue) ∨
      (Worker.batch? t.worker = none ∧ (t.queue = [] ∨
        ∃ batch, Worker.batch? s.worker = some batch ∧ t.queue = (requeueFront batch.events s.queue).1)) := by
  cases step_cases hs with
  | refuse | accept => cases hno
  | resume | publishDeadline | clearRunning | tick => exact .inl ⟨rfl, fun _ hb => hb⟩
  | pop batch rest hw hq hcut =>
    have hrest : rest = s.queue.drop kBatchSize := by
      have hsplit := List.take_append_drop kBatchSize s.queue
      rw [← hcut, hq] at hsplit
      rw [hq]
      exact (List.append_cancel_left hsplit).symm
    exact .inr (.inl ⟨hrest, fun _ hb => by cases hb; exact hq.symm⟩)
  | send batch hw | failed batch _ _ hw | resend batch _ _ hw | giveUp batch _ _ hw =>
    rw [hw]
    exact .inl ⟨rfl, fun _ hb => hb⟩
  | requeue batch lost kept hw hb hp =>
    refine .inr (.inr ⟨rfl, .inr ⟨batch, by rw [hw]; rfl, ?_⟩⟩)
    rw [hp]
  | drop | dropAndLeave => exact .inr (.inr ⟨rfl, .inl rfl⟩)
  | _ => exact .inl ⟨rfl, fun _ hb => by cases hb⟩

structure Aligned (q : List String) (s : State) : Prop where
  queue : ∃ i, s.queue = q.drop (kBatchSize * i)
  inHand : ∀ batch, Worker.batch? s.worker = some batch → ∃ i, batch.events ++ s.queue = q.drop (kBatchSize * i)

theorem Aligned.step {q : List String} (hq : q.length ≤ kMaxQueue) (hi : Aligned q s)
    (hno : noEnqueue a = true) (hs : AsyncQueue.step true s a = some t) : Aligned q t := by
  obtain ⟨i, hi'⟩ := hi.queue
  rcases step_queue hno hs with ⟨hsame, hbatch⟩ | ⟨hdrop, hbatch⟩ | ⟨hnone, hempty | ⟨batch, hb, hrequeued⟩⟩
  · refine ⟨⟨i, hsame.trans hi'⟩, fun batch hb => ?_⟩
    rw [hsame]
    exact hi.inHand batch (hbatch batch hb)
  · refine ⟨⟨i + 1, ?_⟩, fun batch hb => ⟨i, (hbatch batch hb).trans hi'⟩⟩
    rw [hdrop, hi', List.drop_drop, Nat.mul_succ]
  · refine ⟨⟨q.length, ?_⟩, fun batch hb => ?_⟩
    · rw [hempty, eq_comm, List.drop_eq_nil_iff, kBatchSize]
      omega
    · rw [hnone] at hb
      cases hb
  · obtain ⟨j, hj⟩ := hi.inHand batch hb
    have hfits : s.queue.length + batch.events.reverse.length ≤ kMaxQueue := by
      have hlen := congrArg List.length hj
      simp only [List.length_append, List.length_drop] at hlen
      simp only [List.length_reverse]
      omega
    refine ⟨⟨j, ?_⟩, fun batch' hb' => ?_⟩
    · rw [hrequeued, requeueFront, pushFront_of_fits _ hfits, List.reverse_reverse, hj]
    · rw [hnone] at hb'
      cases hb'

theorem cut_group (hne : s.queue ≠ []) (hw : s.worker = .waiting) :
    ∃ batch, batch.events = s.queue.take kBatchSize ∧
      step true s .popBatch = some { s with queue := s.queue.drop kBatchSize, worker := .loaded batch } := by
  have htake : s.queue.take kBatchSize ≠ [] := by
    intro hnil
    rcases List.take_eq_nil_iff.mp hnil with hzero | hq
    · cases hzero
    · exact hne hq
  refine ⟨⟨_, htake, List.length_take_le _ _⟩, rfl, ?_⟩
  simp [step, popBatch, hw, htake]

theorem send_running {batch : Batch} (hrun : s.running = true) (hw : s.worker = .loaded batch) :
    step true s .checkDeadline = some { s with worker := .sending batch false 0 } := by
  simp [step, checkDeadline, hw, hrun]

def Draining (maxBodyBytes : ℕ) (h : Traffic) (a : Action) : Prop :=
  noEnqueue a = true ∧ Answered maxBodyBytes h.state a

def Drains (maxBodyBytes : ℕ) (h h' : Traffic) : Prop :=
  ∃ as, AllSteps (Traffic.step true) (Draining maxBodyBytes) h as ∧ run (Traffic.step true) h as = some h'

theorem Drains.refl (h : Traffic) : Drains maxBodyBytes h h := ⟨[], trivial, rfl⟩

theorem Drains.tail {h'' : Traffic} (hd : Drains maxBodyBytes h h') (ha : Draining maxBodyBytes h' a)
    (hs : Traffic.step true h' a = some h'') : Drains maxBodyBytes h h'' := by
  obtain ⟨as, hall, hr⟩ := hd
  refine ⟨as ++ [a], allSteps_append hall fun t ht => ?_, run_append.mpr ⟨h', hr, run_cons.mpr ⟨h'', hs, rfl⟩⟩⟩
  rw [hr] at ht
  cases ht
  exact ⟨ha, fun _ _ => trivial⟩

theorem Drains.sending (hd : Drains maxBodyBytes h h') (hne : h'.state.queue ≠ []) (hrun : h'.state.running = true)
    (hw : h'.state.worker = .waiting) :
    ∃ batch h'', batch.events = h'.state.queue.take kBatchSize ∧ Drains maxBodyBytes h h'' ∧
      h''.state = { h'.state with queue := h'.state.queue.drop kBatchSize, worker := .sending batch false 0 } := by
  obtain ⟨batch, hbatch, hcut⟩ := cut_group hne hw
  have hsend := send_running (s := { h'.state with queue := h'.state.queue.drop kBatchSize, worker := .loaded batch })
    hrun rfl
  have hloaded := hd.tail (a := .popBatch) ⟨rfl, trivial⟩ (Traffic.step_eq_some.mpr ⟨_, hcut, rfl⟩)
  have hsending := hloaded.tail (a := .checkDeadline) ⟨rfl, trivial⟩ (Traffic.step_eq_some.mpr ⟨_, hsend, rfl⟩)
  exact ⟨batch, _, hbatch, hsending, rfl⟩

theorem draining_answer {batch : Batch} {stopping : Bool} {attempt : ℕ}
    (hw : h.state.worker = .sending batch stopping attempt) :
    Draining maxBodyBytes h (.answer (collectorAnswer maxBodyBytes (buildBatch batch.events))) := by
  refine ⟨rfl, .inr fun batch' stopping' attempt' hw' => ?_⟩
  rw [hw] at hw'
  cases hw'
  rfl

theorem Drains.next (hd : Drains maxBodyBytes h h') (hrun : h'.state.running = true)
    (hw : h'.state.worker = .waiting) :
    ∃ h'', Drains maxBodyBytes h h'' ∧ h''.state.queue = h'.state.queue.drop kBatchSize ∧
      h''.state.running = true ∧ h''.state.worker = .waiting := by
  by_cases hne : h'.state.queue = []
  · refine ⟨h', hd, ?_, hrun, hw⟩
    rw [hne, List.drop_nil]
  obtain ⟨batch, h₁, -, hd₁, hs₁⟩ := hd.sending hne hrun hw
  have hw₁ : h₁.state.worker = .sending batch false 0 := by rw [hs₁]
  have hanswer : ∃ t, step true h₁.state (.answer (collectorAnswer maxBodyBytes (buildBatch batch.events))) = some t ∧
      t.queue = h'.state.queue.drop kBatchSize ∧ t.running = true ∧ t.worker = .tail := by
    rw [collectorAnswer_eq]
    split <;> simp [step, answer, hs₁, hrun]
  obtain ⟨t, ht, hqueue, hrunning, htail⟩ := hanswer
  have hd₂ := hd₁.tail (draining_answer hw₁) (Traffic.step_eq_some.mpr ⟨t, ht, rfl⟩)
  have hfinish : step true t .finish = some { t with worker := .waiting } := by simp [step, finish, htail, hrunning]
  exact ⟨_, hd₂.tail (a := .finish) ⟨rfl, trivial⟩ (Traffic.step_eq_some.mpr ⟨_, hfinish, rfl⟩), hqueue, hrunning, rfl⟩

theorem Drains.group (maxBodyBytes : ℕ) (q : List String) (i : ℕ) :
    ∃ h, Drains maxBodyBytes (.start (holding q)) h ∧ h.state.queue = q.drop (kBatchSize * i) ∧
      h.state.running = true ∧ h.state.worker = .waiting := by
  induction i with
  | zero => exact ⟨_, Drains.refl _, rfl, rfl, rfl⟩
  | succ i ih =>
    obtain ⟨h, hd, hqueue, hrun, hw⟩ := ih
    obtain ⟨h', hd', hqueue', hrun', hw'⟩ := hd.next hrun hw
    refine ⟨h', hd', ?_, hrun', hw'⟩
    rw [hqueue', hqueue, List.drop_drop, Nat.mul_succ]

theorem Drains.rejected (hd : Drains maxBodyBytes h h') (hne : h'.state.queue ≠ []) (hrun : h'.state.running = true)
    (hw : h'.state.worker = .waiting)
    (hbig : maxBodyBytes < (buildBatch (h'.state.queue.take kBatchSize)).utf8ByteSize) :
    ∃ h'', Drains maxBodyBytes h h'' ∧ ∃ batch ∈ h''.rejected, batch.events = h'.state.queue.take kBatchSize := by
  obtain ⟨batch, h₁, hbatch, hd₁, hs₁⟩ := hd.sending hne hrun hw
  have hw₁ : h₁.state.worker = .sending batch false 0 := by rw [hs₁]
  have hdraining : Draining maxBodyBytes h₁ (.answer (collectorAnswer maxBodyBytes (buildBatch batch.events))) :=
    draining_answer hw₁
  rw [collectorAnswer_eq, hbatch, if_pos hbig] at hdraining
  have hanswer : ∃ t, step true h₁.state (.answer .kPermanent) = some t := by simp [step, answer, hs₁]
  obtain ⟨t, ht⟩ := hanswer
  refine ⟨_, hd₁.tail hdraining (Traffic.step_eq_some.mpr ⟨t, ht, rfl⟩), batch, ?_, hbatch⟩
  simp [answered, hw₁]

theorem drained_transparent_iff {q : List String} (hq : q.length ≤ kMaxQueue) (maxBodyBytes : ℕ) :
    (∀ t, Drains maxBodyBytes (.start (holding q)) t →
      ∀ batch ∈ t.rejected, ∀ event ∈ batch.events, ¬ FitsAlone maxBodyBytes event) ↔
    ∀ i, Sendable maxBodyBytes ((q.drop (kBatchSize * i)).take kBatchSize) := by
  constructor
  · intro h i
    by_contra hbad
    obtain ⟨hbig, event, hmem, hfits⟩ : maxBodyBytes < (buildBatch ((q.drop (kBatchSize * i)).take kBatchSize)).utf8ByteSize ∧
        ∃ event ∈ (q.drop (kBatchSize * i)).take kBatchSize, FitsAlone maxBodyBytes event := by
      simpa [Sendable] using hbad
    obtain ⟨h₁, hd, hqueue, hrun, hw⟩ := Drains.group maxBodyBytes q i
    rw [← hqueue] at hbig hmem
    have hne : h₁.state.queue ≠ [] := by
      intro hnil
      rw [hnil] at hmem
      cases hmem
    obtain ⟨h₂, hd₂, batch, hrejected, hevents⟩ := hd.rejected hne hrun hw hbig
    rw [← hevents] at hmem
    exact h h₂ hd₂ batch hrejected event hmem hfits
  · intro hcut t ⟨as, hall, hr⟩
    have hinit : Harmless maxBodyBytes (.start (holding q)) ∧ Aligned q (holding q) :=
      ⟨{ inHand := fun batch hb => (by cases hb), rejected := fun batch hb => (by cases hb) },
        { queue := ⟨0, rfl⟩, inHand := fun batch hb => (by cases hb) }⟩
    have hkeep (h : Traffic) (a : Action) (h' : Traffic) (hi : Harmless maxBodyBytes h ∧ Aligned q h.state)
        (hd : Draining maxBodyBytes h a) (hs : Traffic.step true h a = some h') :
        Harmless maxBodyBytes h' ∧ Aligned q h'.state := by
      have hcutNow : CutSendable maxBodyBytes h.state a := by
        intro _ _
        obtain ⟨i, hi⟩ := hi.2.queue
        rw [hi]
        exact hcut i
      refine ⟨hi.1.step hd.2 hcutNow hs, ?_⟩
      obtain ⟨t, ht, rfl⟩ := Traffic.step_eq_some.mp hs
      exact hi.2.step hq hd.1 ht
    exact (run_guarded (I := fun h => Harmless maxBodyBytes h ∧ Aligned q h.state) hkeep hinit hall hr).1.rejected

/-- Which queue contents are sent without an event being rejected for the size of its neighbours, and
what is enough for that while producers are at work. -/
theorem batching_transparent_iff {q : List String} (hq : q.length ≤ kMaxQueue) (maxBodyBytes : ℕ) :
    ((∀ t, Drains maxBodyBytes (.start (holding q)) t →
        ∀ batch ∈ t.rejected, ∀ event ∈ batch.events, ¬ FitsAlone maxBodyBytes event) ↔
      ∀ i, Sendable maxBodyBytes ((q.drop (kBatchSize * i)).take kBatchSize)) ∧
    ∀ as t, AllSteps (Traffic.step true)
        (fun h a => Answered maxBodyBytes h.state a ∧ CutSendable maxBodyBytes h.state a) (.start initial) as →
      run (Traffic.step true) (.start initial) as = some t →
      ∀ batch ∈ t.rejected, ∀ event ∈ batch.events, ¬ FitsAlone maxBodyBytes event :=
  ⟨drained_transparent_iff hq maxBodyBytes, fun _ _ ha hr => no_collateral_rejection ha hr⟩

def smallEvent (id : String) : String := "\x7b\"fingerprint\":\"" ++ id ++ "\"\x7d"

theorem oversized_pair_rejected : ¬ ∀ (q : List String) (maxBodyBytes : ℕ), q.length ≤ kMaxQueue →
    ∀ t, Drains maxBodyBytes (.start (holding q)) t →
      ∀ batch ∈ t.rejected, ∀ event ∈ batch.events, ¬ FitsAlone maxBodyBytes event := by
  intro h
  have hrun : run (Traffic.step true) (.start (holding [smallEvent "f1", smallEvent "f2"]))
      [.popBatch, .checkDeadline, .answer .kPermanent] = some _ := rfl
  have hbig : collectorAnswer 30 (buildBatch [smallEvent "f1", smallEvent "f2"]) = .kPermanent := by decide
  have hsteps : AllSteps (Traffic.step true) (Draining 30) (.start (holding [smallEvent "f1", smallEvent "f2"]))
      [.popBatch, .checkDeadline, .answer .kPermanent] := by
    refine ⟨⟨rfl, trivial⟩, fun t ht => ⟨⟨rfl, trivial⟩, fun t' ht' => ⟨⟨rfl, .inr ?_⟩, fun _ _ => trivial⟩⟩⟩
    cases ht
    cases ht'
    rintro batch stopping attempt ⟨⟩
    exact hbig.symm
  have hfits : FitsAlone 30 (smallEvent "f1") := by decide
  exact h _ 30 (by decide) _ ⟨_, hsteps, hrun⟩ _ List.mem_cons_self _ List.mem_cons_self hfits

theorem small_events_sent :
    FitsAlone 50 (smallEvent "f1") ∧ ∀ t, Drains 50 (.start (holding [smallEvent "f1", smallEvent "f2"])) t →
      ∀ batch ∈ t.rejected, ∀ event ∈ batch.events, ¬ FitsAlone 50 event := by
  refine ⟨by decide, (batching_transparent_iff (by decide) 50).1.mpr ?_⟩
  intro i
  cases i with
  | zero => exact .inl (by decide)
  | succ i =>
    right
    have hnil : [smallEvent "f1", smallEvent "f2"].drop (kBatchSize * (i + 1)) = [] := by
      rw [List.drop_eq_nil_iff, kBatchSize]
      simp only [List.length_cons, List.length_nil]
      omega
    rw [hnil]
    intro event hmem
    cases hmem

end JvmScout.Wire
