import JvmScout.Lib.Runs
import Mathlib.Data.Int.Notation

/-!
The agent's event queue (`async_queue.cpp`) as a step system: producers, the
thread that starts and stops it, a clock, and the single worker thread, whose
steps lie between two accesses to shared state.
-/

namespace JvmScout.Agent

inductive SendResult where
  | kOk
  | kRetryable
  | kPermanent
deriving DecidableEq

def classifyHttpStatus (status : ℤ) : SendResult :=
  if 200 ≤ status ∧ status < 300 then .kOk
  else if status = 408 ∨ status = 429 ∨ 500 ≤ status then .kRetryable
  else .kPermanent

namespace AsyncQueue

def kMaxQueue : ℕ := 10000

def kBatchSize : ℕ := 20

def kSendRetries : ℕ := 3

def kShutdownDrainMs : ℕ := 3000

structure Batch where
  events : List String
  nonempty : events ≠ []
  bounded : events.length ≤ kBatchSize

/-- Where the worker stands, with the batch it holds there. `stopping` is the value
of `!running_` read before the send. -/
inductive Worker where
  | idle
  | waiting
  | loaded (batch : Batch)
  | sending (batch : Batch) (stopping : Bool) (attempt : ℕ)
  | retrying (batch : Batch) (stopping : Bool) (attempt : ℕ)
  | unsent (batch : Batch) (stopping : Bool)
  | dropping (batch : Batch) (exits : Bool)
  | tail

def Worker.inHand : Worker → List String
  | .idle | .waiting | .tail => []
  | .loaded batch | .sending batch _ _ | .retrying batch _ _ | .unsent batch _ | .dropping batch _ =>
    batch.events

/-- `offered` and `delivered` are not members of the class: they count the calls of
`enqueue` and the events of the batches whose send returned `kOk`. -/
structure State where
  queue : List String
  running : Bool
  dropped : ℕ
  permanentRejects : ℕ
  stopDeadline : ℕ
  clock : ℕ
  worker : Worker
  offered : ℕ
  delivered : ℕ

def initial : State := ⟨[], false, 0, 0, 0, 0, .idle, 0, 0⟩

inductive Action where
  | enqueue (event : String)
  | start
  | publishDeadline
  | clearRunning
  | tick (ms : ℕ)
  | popBatch
  | checkDeadline
  | answer (r : SendResult)
  | retry
  | requeueOrDrop
  | dropBatchAndQueue
  | finish

def enqueue (event : String) (s : State) : State :=
  if kMaxQueue ≤ s.queue.length then
    { s with dropped := s.dropped + 1, offered := s.offered + 1 }
  else { s with queue := s.queue ++ [event], offered := s.offered + 1 }

def buildBatch (events : List String) : String :=
  (events.foldl (fun (body, first) ev => ((if first then body else body ++ ",") ++ ev, false)) ("[", true)).1 ++
    "]"

def start (s : State) : State :=
  if s.running then s
  else
    match s.worker with
    | .idle => { s with running := true, worker := .waiting }
    | _ => { s with running := true }

def popBatch (s : State) : Option State :=
  match s.worker with
  | .waiting =>
    let batch := s.queue.take kBatchSize
    let rest := s.queue.drop kBatchSize
    if h : batch = [] then
      some { s with worker := if !s.running && rest.isEmpty then .idle else .waiting }
    else some { s with queue := rest, worker := .loaded ⟨batch, h, List.length_take_le _ _⟩ }
  | _ => none

def checkDeadline (transport : Bool) (s : State) : Option State :=
  match s.worker with
  | .loaded batch =>
    if !s.running && decide (s.stopDeadline ≤ s.clock) then
      some { s with worker := .dropping batch true }
    else if transport then some { s with worker := .sending batch (!s.running) 0 }
    else some { s with worker := .tail }
  | _ => none

def answer (r : SendResult) (s : State) : Option State :=
  match s.worker with
  | .sending batch stopping attempt =>
    match r with
    | .kOk => some { s with delivered := s.delivered + batch.events.length, worker := .tail }
    | .kPermanent =>
      some { s with
        permanentRejects := s.permanentRejects + 1
        dropped := s.dropped + batch.events.length
        worker := if stopping then .dropping batch false else .tail }
    | .kRetryable => some { s with worker := .retrying batch stopping attempt }
  | _ => none

def retry (s : State) : Option State :=
  match s.worker with
  | .retrying batch stopping attempt =>
    if !s.running || attempt == kSendRetries then some { s with worker := .unsent batch stopping }
    else some { s with worker := .sending batch stopping (attempt + 1) }
  | _ => none

def pushFront (queue : List String) : List String → List String × ℕ
  | [] => (queue, 0)
  | event :: rest =>
    if kMaxQueue ≤ queue.length then (queue, (event :: rest).length)
    else pushFront (event :: queue) rest

def requeueFront (batch queue : List String) : List String × ℕ := pushFront queue batch.reverse

def requeueOrDrop (s : State) : Option State :=
  match s.worker with
  | .unsent batch stopping =>
    if stopping then some { s with worker := .dropping batch false }
    else
      let (queue, overflow) := requeueFront batch.events s.queue
      some { s with queue := queue, dropped := s.dropped + overflow, worker := .tail }
  | _ => none

def dropBatchAndQueue (s : State) : Option State :=
  match s.worker with
  | .dropping batch exits =>
    some { s with
      queue := []
      dropped := s.dropped + (batch.events.length + s.queue.length)
      worker := if exits then .idle else .tail }
  | _ => none

def finish (s : State) : Option State :=
  match s.worker with
  | .tail => some { s with worker := if !s.running && s.queue.isEmpty then .idle else .waiting }
  | _ => none

def step (transport : Bool) (s : State) : Action → Option State
  | .enqueue event => some (enqueue event s)
  | .start => some (start s)
  | .publishDeadline => some { s with stopDeadline := s.clock + kShutdownDrainMs }
  | .clearRunning => some { s with running := false }
  | .tick ms => some { s with clock := s.clock + ms }
  | .popBatch => popBatch s
  | .checkDeadline => checkDeadline transport s
  | .answer r => answer r s
  | .retry => retry s
  | .requeueOrDrop => requeueOrDrop s
  | .dropBatchAndQueue => dropBatchAndQueue s
  | .finish => finish s

theorem pushFront_eq (queue rev : List String) :
    ∃ pushed lost, rev = pushed ++ lost ∧ pushFront queue rev = (pushed.reverse ++ queue, lost.length) := by
  induction rev generalizing queue with
  | nil => exact ⟨[], [], rfl, rfl⟩
  | cons event rest ih =>
    unfold pushFront
    split
    · exact ⟨[], event :: rest, rfl, rfl⟩
    · obtain ⟨pushed, lost, hrest, hpush⟩ := ih (event :: queue)
      refine ⟨event :: pushed, lost, by rw [hrest, List.cons_append], ?_⟩
      rw [hpush]
      simp

theorem requeueFront_eq (batch queue : List String) :
    ∃ lost kept, batch = lost ++ kept ∧ requeueFront batch queue = (kept ++ queue, lost.length) := by
  obtain ⟨pushed, lost, hrev, hpush⟩ := pushFront_eq queue batch.reverse
  refine ⟨lost.reverse, pushed.reverse, ?_, ?_⟩
  · rw [← List.reverse_append, ← hrev, List.reverse_reverse]
  · rw [requeueFront, hpush, List.length_reverse]

theorem pushFront_length_le (rev : List String) {queue : List String} (h : queue.length ≤ kMaxQueue) :
    (pushFront queue rev).1.length ≤ kMaxQueue := by
  induction rev generalizing queue with
  | nil => exact h
  | cons event rest ih =>
    unfold pushFront
    split
    · exact h
    · apply ih
      simp only [List.length_cons]
      omega

inductive Step (transport : Bool) (s : State) : Action → State → Prop where
  | refuse (event : String) (hq : kMaxQueue ≤ s.queue.length) :
    Step transport s (.enqueue event) { s with dropped := s.dropped + 1, offered := s.offered + 1 }
  | accept (event : String) (hq : ¬ kMaxQueue ≤ s.queue.length) :
    Step transport s (.enqueue event) { s with queue := s.queue ++ [event], offered := s.offered + 1 }
  | launch (hw : s.worker = .idle) : Step transport s .start { s with running := true, worker := .waiting }
  | resume : Step transport s .start { s with running := true }
  | publishDeadline : Step transport s .publishDeadline { s with stopDeadline := s.clock + kShutdownDrainMs }
  | clearRunning : Step transport s .clearRunning { s with running := false }
  | tick (ms : ℕ) : Step transport s (.tick ms) { s with clock := s.clock + ms }
  | wait (hw : s.worker = .waiting) (hq : s.queue = []) (hr : s.running = true) :
    Step transport s .popBatch { s with worker := .waiting }
  | leave (hw : s.worker = .waiting) (hq : s.queue = []) (hr : s.running = false) :
    Step transport s .popBatch { s with worker := .idle }
  | pop (batch : Batch) (rest : List String) (hw : s.worker = .waiting)
    (hq : s.queue = batch.events ++ rest) (hb : batch.events = s.queue.take kBatchSize) :
    Step transport s .popBatch { s with queue := rest, worker := .loaded batch }
  | late (batch : Batch) (hw : s.worker = .loaded batch) (hr : s.running = false)
    (hd : s.stopDeadline ≤ s.clock) : Step transport s .checkDeadline { s with worker := .dropping batch true }
  | send (batch : Batch) (hw : s.worker = .loaded batch) (hd : ¬ (s.running = false ∧ s.stopDeadline ≤ s.clock)) :
    Step transport s .checkDeadline { s with worker := .sending batch (!s.running) 0 }
  | skip (batch : Batch) (hw : s.worker = .loaded batch) (hno : transport = false) :
    Step transport s .checkDeadline { s with worker := .tail }
  | delivered (batch : Batch) (stopping : Bool) (attempt : ℕ) (hw : s.worker = .sending batch stopping attempt) :
    Step transport s (.answer .kOk) { s with delivered := s.delivered + batch.events.length, worker := .tail }
  | rejected (batch : Batch) (attempt : ℕ) (hw : s.worker = .sending batch false attempt) :
    Step transport s (.answer .kPermanent)
      { s with
        permanentRejects := s.permanentRejects + 1
        dropped := s.dropped + batch.events.length
        worker := .tail }
  | rejectedStopping (batch : Batch) (attempt : ℕ) (hw : s.worker = .sending batch true attempt) :
    Step transport s (.answer .kPermanent)
      { s with
        permanentRejects := s.permanentRejects + 1
        dropped := s.dropped + batch.events.length
        worker := .dropping batch false }
  | failed (batch : Batch) (stopping : Bool) (attempt : ℕ) (hw : s.worker = .sending batch stopping attempt) :
    Step transport s (.answer .kRetryable) { s with worker := .retrying batch stopping attempt }
  | resend (batch : Batch) (stopping : Bool) (attempt : ℕ) (hw : s.worker = .retrying batch stopping attempt)
    (hr : s.running = true) : Step transport s .retry { s with worker := .sending batch stopping (attempt + 1) }
  | giveUp (batch : Batch) (stopping : Bool) (attempt : ℕ) (hw : s.worker = .retrying batch stopping attempt) :
    Step transport s .retry { s with worker := .unsent batch stopping }
  | abandon (batch : Batch) (hw : s.worker = .unsent batch true) :
    Step transport s .requeueOrDrop { s with worker := .dropping batch false }
  | requeue (batch : Batch) (lost kept : List String) (hw : s.worker = .unsent batch false)
    (hb : batch.events = lost ++ kept) (hp : requeueFront batch.events s.queue = (kept ++ s.queue, lost.length)) :
    Step transport s .requeueOrDrop
      { s with queue := kept ++ s.queue, dropped := s.dropped + lost.length, worker := .tail }
  | drop (batch : Batch) (hw : s.worker = .dropping batch false) :
    Step transport s .dropBatchAndQueue
      { s with queue := [], dropped := s.dropped + (batch.events.length + s.queue.length), worker := .tail }
  | dropAndLeave (batch : Batch) (hw : s.worker = .dropping batch true) :
    Step transport s .dropBatchAndQueue
      { s with queue := [], dropped := s.dropped + (batch.events.length + s.queue.length), worker := .idle }
  | exit (hw : s.worker = .tail) (hr : s.running = false) (hq : s.queue = []) :
    Step transport s .finish { s with worker := .idle }
  | again (hw : s.worker = .tail) (hd : ¬ (s.running = false ∧ s.queue = [])) :
    Step transport s .finish { s with worker := .waiting }

section Step

variable {transport : Bool} {s t : State} {a : Action}

theorem step_cases (h : step transport s a = some t) : Step transport s a t := by
  cases a with
  | enqueue event =>
    cases h
    unfold enqueue
    split
    · apply Step.refuse event
      assumption
    · apply Step.accept event
      assumption
  | start =>
    cases h
    unfold start
    split
    · rename_i hr
      have hstep : Step transport s .start { s with running := true } := .resume
      rwa [← hr] at hstep
    · split
      · apply Step.launch
        assumption
      · exact .resume
  | publishDeadline =>
    cases h
    exact .publishDeadline
  | clearRunning =>
    cases h
    exact .clearRunning
  | tick ms =>
    cases h
    exact .tick ms
  | popBatch =>
    simp only [step, popBatch] at h
    split at h
    · rename_i hw
      split at h
      · rename_i hempty
        have hq : s.queue = [] := by
          rcases List.take_eq_nil_iff.mp hempty with hzero | hq
          · cases hzero
          · exact hq
        cases h
        cases hr : s.running with
        | true => simpa [hq, hr] using Step.wait hw hq hr
        | false => simpa [hq, hr] using Step.leave hw hq hr
      · cases h
        exact .pop _ _ hw (List.take_append_drop _ _).symm rfl
    · cases h
  | checkDeadline =>
    simp only [step, checkDeadline] at h
    split at h
    · rename_i batch hw
      split at h
      · rename_i hlate
        simp only [Bool.and_eq_true, Bool.not_eq_true', decide_eq_true_eq] at hlate
        cases h
        exact .late batch hw hlate.1 hlate.2
      · rename_i hlate
        simp only [Bool.and_eq_true, Bool.not_eq_true', decide_eq_true_eq] at hlate
        split at h
        · cases h
          exact .send batch hw hlate
        · rename_i hno
          cases h
          exact .skip batch hw (Bool.eq_false_iff.mpr hno)
    · cases h
  | answer r =>
    simp only [step, answer] at h
    split at h
    · rename_i batch stopping attempt hw
      cases r with
      | kOk =>
        cases h
        exact .delivered batch stopping attempt hw
      | kRetryable =>
        cases h
        exact .failed batch stopping attempt hw
      | kPermanent =>
        cases h
        cases stopping with
        | false => exact .rejected batch attempt hw
        | true => exact .rejectedStopping batch attempt hw
    · cases h
  | retry =>
    simp only [step, retry] at h
    split at h
    · rename_i batch stopping attempt hw
      split at h
      · cases h
        exact .giveUp batch stopping attempt hw
      · rename_i hgo
        simp only [Bool.or_eq_true, Bool.not_eq_true', not_or, Bool.not_eq_false] at hgo
        cases h
        exact .resend batch stopping attempt hw hgo.1
    · cases h
  | requeueOrDrop =>
    simp only [step, requeueOrDrop] at h
    split at h
    · rename_i batch stopping hw
      cases stopping with
      | true =>
        cases h
        exact .abandon batch hw
      | false =>
        cases h
        obtain ⟨lost, kept, hbatch, hpush⟩ := requeueFront_eq batch.events s.queue
        simpa only [hpush] using Step.requeue batch lost kept hw hbatch hpush
    · cases h
  | dropBatchAndQueue =>
    simp only [step, dropBatchAndQueue] at h
    split at h
    · rename_i batch exits hw
      cases h
      cases exits with
      | false => exact .drop batch hw
      | true => exact .dropAndLeave batch hw
    · cases h
  | finish =>
    simp only [step, finish] at h
    split at h
    · rename_i hw
      cases h
      by_cases hd : s.running = false ∧ s.queue = []
      · simpa [hd.1, hd.2] using Step.exit hw hd.1 hd.2
      · have hgo : (!s.running && s.queue.isEmpty) = false := by
          simpa [Bool.and_eq_false_iff] using hd
        rw [hgo]
        exact .again hw hd
    · cases h

theorem queue_bounded_step (hs : s.queue.length ≤ kMaxQueue) (h : step transport s a = some t) :
    t.queue.length ≤ kMaxQueue := by
  cases step_cases h with
  | accept event hroom =>
    rw [List.length_append, List.length_singleton]
    omega
  | pop batch rest _ hq _ =>
    rw [hq, List.length_append] at hs
    exact (Nat.le_add_left _ _).trans hs
  | requeue batch lost kept _ _ hp =>
    have hfits := pushFront_length_le batch.events.reverse hs
    rwa [← requeueFront, hp] at hfits
  | drop | dropAndLeave => exact Nat.zero_le _
  | _ => exact hs

end Step

end AsyncQueue

end JvmScout.Agent
