import JvmScout.Agent.QueueDelivery

namespace JvmScout.Agent.AsyncQueue

open Runs

def isWork : Action → Bool
  | .popBatch | .checkDeadline | .answer _ | .retry | .requeueOrDrop | .dropBatchAndQueue | .finish => true
  | .enqueue _ | .start | .publishDeadline | .clearRunning | .tick _ => false

variable {s t : State} {a : Action}

theorem exists_work (h : s.worker ≠ .idle) : ∃ a, isWork a = true ∧ (step true s a).isSome = true := by
  cases hw : s.worker with
  | idle => exact absurd hw h
  | waiting =>
    refine ⟨.popBatch, rfl, ?_⟩
    simp only [step, popBatch, hw]
    split <;> rfl
  | loaded batch =>
    refine ⟨.checkDeadline, rfl, ?_⟩
    simp only [step, checkDeadline, hw]
    split <;> rfl
  | sending batch stopping attempt =>
    refine ⟨.answer .kOk, rfl, ?_⟩
    simp only [step, answer, hw]
    rfl
  | retrying batch stopping attempt =>
    refine ⟨.retry, rfl, ?_⟩
    simp only [step, retry, hw]
    split <;> rfl
  | unsent batch stopping =>
    refine ⟨.requeueOrDrop, rfl, ?_⟩
    simp only [step, requeueOrDrop, hw]
    split <;> rfl
  | dropping batch exits =>
    refine ⟨.dropBatchAndQueue, rfl, ?_⟩
    simp only [step, dropBatchAndQueue, hw]
    rfl
  | tail =>
    refine ⟨.finish, rfl, ?_⟩
    simp only [step, finish, hw]
    rfl

theorem Step.ne_idle {transport : Bool} (h : Step transport s a t) (hwork : isWork a = true) : s.worker ≠ .idle := by
  intro hidle
  cases h with
  | refuse | accept | launch | resume | publishDeadline | clearRunning | tick => cases hwork
  | _ => simp only [hidle, reduceCtorEq] at *

theorem Step.idle_empty {transport : Bool} (h : Step transport s a t) (hwork : isWork a = true)
    (ht : t.worker = .idle) : t.queue = [] := by
  cases h with
  | refuse | accept | launch | resume | publishDeadline | clearRunning | tick => cases hwork
  | leave _ hq _ => exact hq
  | exit _ _ hq => exact hq
  | dropAndLeave => rfl
  | _ => cases ht

def Worker.rank : Worker → ℕ
  | .idle => 0
  | .waiting => 1
  | .tail => 2
  | .dropping _ _ => 3
  | .unsent _ _ => 4
  | .retrying _ _ _ => 5
  | .sending _ _ _ => 6
  | .loaded _ => 7

def Worker.returnable : Worker → ℕ
  | .sending batch false _ | .retrying batch false _ | .unsent batch false => batch.events.length
  | _ => 0

def effort (s : State) : ℕ := 8 * (s.queue.length + s.worker.returnable) + s.worker.rank

def Worker.haste : Worker → ℕ
  | .idle => 0
  | .dropping _ true => 1
  | .loaded _ => 2
  | .waiting => 3
  | .tail => 4
  | .dropping _ false => 5
  | .unsent _ _ => 6
  | .retrying _ _ _ => 7
  | .sending _ _ _ => 8

theorem Step.effort_lt (h : Step true s a t) (hwork : isWork a = true) (hr : s.running = false) :
    effort t < effort s := by
  cases h with
  | refuse | accept | launch | resume | publishDeadline | clearRunning | tick => cases hwork
  | wait _ _ hrun | resend _ _ _ _ hrun => simp [hr] at hrun
  | skip _ _ hno => cases hno
  | pop batch rest hw hq _ =>
    have hpos := List.length_pos_iff.mpr batch.nonempty
    simp only [effort, hw, hq, Worker.rank, Worker.returnable, List.length_append]
    omega
  | send batch hw _ => simp [effort, hw, hr, Worker.rank, Worker.returnable]
  | delivered batch stopping attempt hw | failed batch stopping attempt hw | giveUp batch stopping attempt hw =>
    cases stopping <;> simp [effort, hw, Worker.rank, Worker.returnable]
    all_goals omega
  | rejected batch attempt hw =>
    simp only [effort, hw, Worker.rank, Worker.returnable]
    omega
  | requeue batch lost kept hw hb _ =>
    simp only [effort, hw, hb, Worker.rank, Worker.returnable, List.length_append]
    omega
  | leave hw | late _ hw | rejectedStopping _ _ hw | abandon _ hw | drop _ hw | dropAndLeave _ hw | exit hw
  | again hw =>
    simp [effort, hw, Worker.rank, Worker.returnable]

theorem Step.haste_lt (h : Step true s a t) (hwork : isWork a = true) (hr : s.running = false)
    (hd : s.stopDeadline ≤ s.clock) : t.worker.haste < s.worker.haste := by
  cases h with
  | refuse | accept | launch | resume | publishDeadline | clearRunning | tick => cases hwork
  | wait _ _ hrun | resend _ _ _ _ hrun => simp [hr] at hrun
  | skip _ _ hno => cases hno
  | send _ _ hin => exact absurd ⟨hr, hd⟩ hin
  | leave hw | pop _ _ hw | late _ hw | delivered _ _ _ hw | rejected _ _ hw | rejectedStopping _ _ hw
  | failed _ _ _ hw | giveUp _ _ _ hw | abandon _ hw | requeue _ _ _ hw | drop _ hw | dropAndLeave _ hw
  | exit hw | again hw =>
    simp [hw, Worker.haste]

theorem Step.times {transport : Bool} (h : Step transport s a t) (hwork : isWork a = true) :
    t.running = s.running ∧ t.stopDeadline = s.stopDeadline ∧ t.clock = s.clock := by
  cases h with
  | refuse | accept | launch | resume | publishDeadline | clearRunning | tick => cases hwork
  | _ => exact ⟨rfl, rfl, rfl⟩

end JvmScout.Agent.AsyncQueue
