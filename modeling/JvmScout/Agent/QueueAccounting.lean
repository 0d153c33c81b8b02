import JvmScout.Agent.AsyncQueue

namespace JvmScout.Agent.AsyncQueue

open Runs

def held (s : State) : ℕ :=
  s.delivered + s.dropped + s.queue.length + s.worker.inHand.length

def Accounted (s : State) : Prop := s.offered = held s

instance (s : State) : Decidable (Accounted s) := inferInstanceAs (Decidable (_ = _))

/-- A rejection of a batch whose send began after the stop: the batch is counted
there, and once more with the queue that is dropped after it. -/
def CountsTwice (s : State) (a : Action) : Prop :=
  a = .answer .kPermanent ∧ ∃ batch attempt, s.worker = .sending batch true attempt

def Overcounted (s : State) : Prop := s.offered < held s

theorem batch_length_pos (batch : Batch) : 0 < batch.events.length :=
  List.length_pos_iff.mpr batch.nonempty

theorem step_account {s t : State} {a : Action} (h : step true s a = some t) :
    (¬ CountsTwice s a ∧ held t + s.offered = held s + t.offered) ∨
      (CountsTwice s a ∧ held s + t.offered < held t + s.offered) := by
  cases step_cases h with
  | refuse event _ =>
    refine .inl ⟨by simp [CountsTwice], ?_⟩
    simp only [held]
    omega
  | accept event _ =>
    refine .inl ⟨by simp [CountsTwice], ?_⟩
    simp only [held, List.length_append, List.length_singleton]
    omega
  | resume | publishDeadline | clearRunning | tick =>
    exact .inl ⟨by simp [CountsTwice], rfl⟩
  | launch hw | wait hw | leave hw | exit hw | again hw =>
    refine .inl ⟨by simp [CountsTwice], ?_⟩
    simp only [held, hw, Worker.inHand]
  | pop batch rest hw hq _ =>
    refine .inl ⟨by simp [CountsTwice], ?_⟩
    simp only [held, hw, hq, Worker.inHand, List.length_append, List.length_nil]
    omega
  | late batch hw | send batch hw | failed batch _ _ hw | resend batch _ _ hw | giveUp batch _ _ hw
  | abandon batch hw =>
    refine .inl ⟨by simp [CountsTwice], ?_⟩
    simp only [held, hw, Worker.inHand]
  | skip _ _ hno => cases hno
  | delivered batch _ _ hw =>
    refine .inl ⟨by simp [CountsTwice], ?_⟩
    simp only [held, hw, Worker.inHand, List.length_nil]
    omega
  | rejected batch attempt hw =>
    refine .inl ⟨by simp [CountsTwice, hw], ?_⟩
    simp only [held, hw, Worker.inHand, List.length_nil]
    omega
  | rejectedStopping batch attempt hw =>
    have hpos := batch_length_pos batch
    refine .inr ⟨⟨rfl, batch, attempt, hw⟩, ?_⟩
    simp only [held, hw, Worker.inHand]
    omega
  | requeue batch lost kept hw hb _ =>
    refine .inl ⟨by simp [CountsTwice], ?_⟩
    simp only [held, hw, hb, Worker.inHand, List.length_append, List.length_nil]
    omega
  | drop batch hw | dropAndLeave batch hw =>
    refine .inl ⟨by simp [CountsTwice], ?_⟩
    simp only [held, hw, Worker.inHand, List.length_nil]
    omega

/-- In every state a run reaches, each offered event is delivered, queued, in hand or
counted once, exactly when no step of the run counted a batch twice. -/
theorem accounted_iff {as : List Action} {t : State} (hr : run (step true) initial as = some t) :
    Accounted t ↔ AllSteps (step true) (fun s a => ¬ CountsTwice s a) initial as := by
  have good (s : State) (a : Action) (u : State) (hs : Accounted s) (hp : ¬ CountsTwice s a)
      (hu : step true s a = some u) : Accounted u := by
    rcases step_account hu with ⟨-, heq⟩ | ⟨htwice, -⟩
    · unfold Accounted at hs ⊢
      omega
    · exact absurd htwice hp
  have slip (s : State) (a : Action) (u : State) (hs : Accounted s) (hp : ¬ ¬ CountsTwice s a)
      (hu : step true s a = some u) : Overcounted u := by
    rcases step_account hu with ⟨honce, -⟩ | ⟨-, hlt⟩
    · exact absurd honce hp
    · unfold Accounted at hs
      unfold Overcounted
      omega
  have stuck (s : State) (a : Action) (u : State) (hs : Overcounted s)
      (hu : step true s a = some u) : Overcounted u := by
    unfold Overcounted at hs ⊢
    rcases step_account hu with ⟨-, heq⟩ | ⟨-, hlt⟩ <;> omega
  have hinit : Accounted initial := rfl
  rcases run_dichotomy (fun s a _ => good s a) (fun s a _ => slip s a) (fun s a _ => stuck s a)
    hinit hr with ⟨hall, ht⟩ | ⟨hnot, ht⟩
  · exact iff_of_true ht hall
  · refine iff_of_false ?_ hnot
    unfold Accounted
    unfold Overcounted at ht
    omega

def stoppedThenRejected : List Action :=
  [.enqueue "\x7b\x7d", .start, .popBatch, .publishDeadline, .clearRunning, .checkDeadline,
    .answer .kPermanent, .dropBatchAndQueue]

theorem rejected_batch_counted_twice :
    ∃ t, run (step true) initial stoppedThenRejected = some t ∧ t.offered = 1 ∧ t.dropped = 2 ∧
      ¬ Accounted t := by
  refine ⟨⟨[], false, 2, 1, 3000, 0, .tail, 1, 0⟩, ?_, rfl, rfl, by decide⟩
  simp [stoppedThenRejected, run, step, initial, enqueue, start, popBatch, checkDeadline, answer,
    dropBatchAndQueue, kMaxQueue, kBatchSize, kShutdownDrainMs]

def delivered : List Action := [.enqueue "\x7b\x7d", .start, .popBatch, .checkDeadline, .answer .kOk]

theorem delivered_run :
    run (step true) initial delivered = some ⟨[], true, 0, 0, 0, 0, .tail, 1, 1⟩ := by
  simp [delivered, run, step, initial, enqueue, start, popBatch, checkDeadline, answer, kMaxQueue,
    kBatchSize]

theorem accounted_iff_delivered :
    run (step true) initial delivered = some ⟨[], true, 0, 0, 0, 0, .tail, 1, 1⟩ ∧
      (Accounted ⟨[], true, 0, 0, 0, 0, .tail, 1, 1⟩ ↔
        AllSteps (step true) (fun s a => ¬ CountsTwice s a) initial delivered) :=
  ⟨delivered_run, accounted_iff delivered_run⟩

end JvmScout.Agent.AsyncQueue
