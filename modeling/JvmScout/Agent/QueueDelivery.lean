import JvmScout.Agent.AsyncQueue
import Mathlib.Data.List.Count
import Mathlib.Data.List.Sublists

namespace JvmScout.Agent.AsyncQueue

open Runs

def accepts (s : State) : Action → List String
  | .enqueue event => if kMaxQueue ≤ s.queue.length then [] else [event]
  | _ => []

def answered (s : State) (r : SendResult) : Action → List Batch
  | .answer r' =>
    match s.worker with
    | .sending batch _ _ => if r' = r then [batch] else []
    | _ => []
  | _ => []

def counts (s : State) : Action → List String
  | .answer .kPermanent => s.worker.inHand
  | .requeueOrDrop =>
    match s.worker with
    | .unsent batch false => batch.events.take (requeueFront batch.events s.queue).2
    | _ => []
  | .dropBatchAndQueue => s.worker.inHand ++ s.queue
  | _ => []

structure Traffic where
  state : State
  accepted : List String
  sent : List Batch
  rejected : List Batch
  counted : List String

def Traffic.start (s : State) : Traffic := ⟨s, [], [], [], []⟩

def Traffic.step (transport : Bool) (h : Traffic) (a : Action) : Option Traffic :=
  (AsyncQueue.step transport h.state a).map fun t =>
    ⟨t, h.accepted ++ accepts h.state a, h.sent ++ answered h.state .kOk a,
      h.rejected ++ answered h.state .kPermanent a, h.counted ++ counts h.state a⟩

def eventsOf (batches : List Batch) : List String := batches.flatMap Batch.events

@[simp] theorem eventsOf_append (xs ys : List Batch) : eventsOf (xs ++ ys) = eventsOf xs ++ eventsOf ys :=
  List.flatMap_append

theorem inHand_length_le (w : Worker) : w.inHand.length ≤ kBatchSize := by
  cases w with
  | idle | waiting | tail => exact Nat.zero_le _
  | loaded batch | sending batch _ _ | retrying batch _ _ | unsent batch _ | dropping batch _ =>
    exact batch.bounded

section Step

variable {transport : Bool} {s t : State} {a : Action}

theorem step_sublist (h : step transport s a = some t) :
    (eventsOf (answered s .kOk a) ++ t.worker.inHand ++ t.queue).Sublist
      (s.worker.inHand ++ s.queue ++ accepts s a) := by
  cases step_cases h with
  | refuse event hq | accept event hq => simp [answered, eventsOf, accepts, hq]
  | resume | publishDeadline | clearRunning | tick => simp [answered, eventsOf, accepts]
  | launch hw | wait hw | leave hw | exit hw | again hw | late _ hw | send _ hw | skip _ hw | giveUp _ _ _ hw
  | resend _ _ _ hw | abandon _ hw =>
    simp [answered, eventsOf, accepts, hw, Worker.inHand]
  | pop batch rest hw hq _ => simp [answered, eventsOf, accepts, hw, hq, Worker.inHand]
  | delivered batch _ _ hw | rejected batch _ hw | rejectedStopping batch _ hw | failed batch _ _ hw =>
    simp [answered, eventsOf, accepts, hw, Worker.inHand]
  | requeue batch lost kept hw hb _ => simp [answered, eventsOf, accepts, hw, hb, Worker.inHand]
  | drop batch hw | dropAndLeave batch hw => simp [answered, eventsOf, accepts, hw, Worker.inHand]

theorem step_count (h : step true s a = some t) (event : String) :
    (s.worker.inHand ++ s.queue ++ accepts s a).count event ≤
      (eventsOf (answered s .kOk a) ++ counts s a ++ t.worker.inHand ++ t.queue).count event := by
  cases step_cases h with
  | refuse new hq | accept new hq => simp [answered, counts, eventsOf, accepts, hq]
  | resume | publishDeadline | clearRunning | tick => simp [answered, counts, eventsOf, accepts]
  | launch hw | wait hw | leave hw | exit hw | again hw | late _ hw | send _ hw | giveUp _ _ _ hw | resend _ _ _ hw =>
    simp [answered, counts, eventsOf, accepts, hw, Worker.inHand]
  | skip _ _ hno => cases hno
  | pop batch rest hw hq _ => simp [answered, counts, eventsOf, accepts, hw, hq, Worker.inHand]
  | delivered batch _ _ hw | rejected batch _ hw | rejectedStopping batch _ hw | failed batch _ _ hw
  | abandon batch hw =>
    simp [answered, counts, eventsOf, accepts, hw, Worker.inHand]
  | requeue batch lost kept hw hb hp =>
    simp only [answered, counts, accepts, hw, hp, Worker.inHand]
    simp [eventsOf, hb]
  | drop batch hw | dropAndLeave batch hw => simp [answered, counts, eventsOf, accepts, hw, Worker.inHand]

theorem step_dropped (h : step transport s a = some t) :
    t.dropped + (accepts s a).length + s.offered = s.dropped + (counts s a).length + t.offered := by
  cases step_cases h with
  | refuse event hq =>
    simp only [accepts, counts, hq, if_true, List.length_nil]
    omega
  | accept event hq =>
    simp only [accepts, counts, hq, if_false, List.length_singleton, List.length_nil]
    omega
  | rejected batch _ hw | rejectedStopping batch _ hw =>
    simp only [accepts, counts, hw, Worker.inHand, List.length_nil]
    omega
  | abandon batch hw => simp [accepts, counts, hw]
  | requeue batch lost kept hw hb hp =>
    have hlost : (batch.events.take lost.length).length = lost.length := by
      rw [hb, List.take_left]
    simp only [accepts, counts, hw, hp, hlost, List.length_nil]
    omega
  | drop batch hw | dropAndLeave batch hw =>
    simp only [accepts, counts, hw, Worker.inHand, List.length_append, List.length_nil]
    omega
  | _ => rfl

end Step

section Run

variable {transport : Bool} {h h' : Traffic} {a : Action}

theorem Traffic.step_eq_some :
    Traffic.step transport h a = some h' ↔ ∃ t, AsyncQueue.step transport h.state a = some t ∧
      h' = ⟨t, h.accepted ++ accepts h.state a, h.sent ++ answered h.state .kOk a,
        h.rejected ++ answered h.state .kPermanent a, h.counted ++ counts h.state a⟩ := by
  simp only [Traffic.step, Option.map_eq_some_iff]
  constructor
  · rintro ⟨t, ht, rfl⟩
    exact ⟨t, ht, rfl⟩
  · rintro ⟨t, ht, rfl⟩
    exact ⟨t, ht, rfl⟩

structure InOrder (h : Traffic) : Prop where
  sublist : (eventsOf h.sent ++ h.state.worker.inHand ++ h.state.queue).Sublist h.accepted
  bounded : h.state.queue.length ≤ kMaxQueue

theorem InOrder.step (hi : InOrder h) (hs : Traffic.step transport h a = some h') : InOrder h' := by
  obtain ⟨t, ht, rfl⟩ := Traffic.step_eq_some.mp hs
  refine ⟨?_, queue_bounded_step hi.bounded ht⟩
  have hstep := (step_sublist ht).append_left (eventsOf h.sent)
  have hold := hi.sublist.append_right (accepts h.state a)
  simp only [eventsOf_append, List.append_assoc] at hstep hold ⊢
  exact hstep.trans hold

/-- Whatever the producers, the worker and the transport do, the events that were sent are
a part of those that were accepted, in their order and each at most as often; batches and
the queue keep within their bounds, the queue at every turn of a requeue, too. -/
theorem delivery_in_order {as : List Action} {t : Traffic}
    (hr : run (Traffic.step transport) (.start initial) as = some t) :
    (eventsOf t.sent).Sublist t.accepted ∧
      (∀ event, (eventsOf t.sent).count event ≤ t.accepted.count event) ∧
      (∀ batch ∈ t.sent, batch.events.length ≤ kBatchSize) ∧
      t.state.worker.inHand.length ≤ kBatchSize ∧
      t.state.queue.length ≤ kMaxQueue ∧
      ∀ rev, (pushFront t.state.queue rev).1.length ≤ kMaxQueue := by
  have hinit : InOrder (.start initial) := ⟨List.Sublist.slnil, Nat.zero_le _⟩
  have hin : InOrder t := run_invariant (fun s a _ u hi hs => hi.step hs) hinit hr
  have hsent : (eventsOf t.sent).Sublist t.accepted := by
    have hprefix := List.sublist_append_left (eventsOf t.sent) (t.state.worker.inHand ++ t.state.queue)
    rw [← List.append_assoc] at hprefix
    exact hprefix.trans hin.sublist
  exact ⟨hsent, hsent.count_le, fun batch _ => batch.bounded, inHand_length_le _, hin.bounded,
    fun rev => pushFront_length_le rev hin.bounded⟩

def failedThenSent : List Action :=
  [.enqueue "a", .enqueue "b", .start, .popBatch, .checkDeadline, .answer .kRetryable, .retry,
    .answer .kRetryable, .retry, .answer .kRetryable, .retry, .enqueue "c", .answer .kRetryable, .retry,
    .requeueOrDrop, .finish, .popBatch, .checkDeadline, .answer .kOk]

theorem requeued_batch_sent_in_order :
    ∃ t, run (Traffic.step true) (.start initial) failedThenSent = some t ∧
      eventsOf t.sent = ["a", "b", "c"] ∧ (eventsOf t.sent).Sublist t.accepted := by
  have hrun : run (Traffic.step true) (.start initial) failedThenSent = some _ := rfl
  exact ⟨_, hrun, rfl, (delivery_in_order hrun).1⟩

structure NothingMissing (h : Traffic) : Prop where
  held (event : String) : h.accepted.count event ≤
    (eventsOf h.sent ++ h.counted ++ h.state.worker.inHand ++ h.state.queue).count event
  dropped : h.state.dropped + h.accepted.length = h.state.offered + h.counted.length

theorem NothingMissing.step (hi : NothingMissing h) (hs : Traffic.step true h a = some h') :
    NothingMissing h' := by
  obtain ⟨t, ht, rfl⟩ := Traffic.step_eq_some.mp hs
  constructor
  · intro event
    have hstep := step_count ht event
    have hold := hi.held event
    simp only [eventsOf_append, List.count_append] at hstep hold ⊢
    omega
  · have hstep := step_dropped ht
    have hold := hi.dropped
    simp only [List.length_append]
    omega

end Run

end JvmScout.Agent.AsyncQueue
