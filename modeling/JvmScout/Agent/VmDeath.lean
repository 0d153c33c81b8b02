import JvmScout.Agent.WorkerLoop
import Mathlib.Algebra.BigOperators.Ring.List
import Mathlib.Algebra.Ring.Nat

/-!
`vm_death` beside the exception callbacks that are still under way and the worker of
the queue: it clears `started`, enqueues what a forced drain of the aggregator hands
out, and stops the queue. A callback that has passed the check of `started` enqueues
whenever it gets there, as `vm_init` does with the registration event.
-/

namespace JvmScout.Agent.VmDeath

open Runs AsyncQueue

inductive Death where
  | alive
  | cleared
  | flushing (summaries : List String)
  | stopping
  | joining
  | returned

structure AgentContext where
  traffic : Traffic
  started : Bool
  inFlight : ℕ
  death : Death

abbrev AgentContext.queue (s : AgentContext) : AsyncQueue.State := s.traffic.state

/-- `Agent_OnLoad` has started the queue; no callback captures yet. -/
def onLoad : AgentContext where
  traffic := .start { AsyncQueue.initial with running := true, worker := .waiting }
  started := false
  inFlight := 0
  death := .alive

inductive Label where
  | vmInit
  | enterCallback
  | produce (event : String)
  | leaveCallback
  | clearStarted
  | drain (summaries : List String)
  | flush
  | publishDeadline
  | clearRunning
  | join
  | tick (ms : ℕ)
  | work (a : Action)

def act (a : Action) (s : AgentContext) : Option AgentContext :=
  (Traffic.step true s.traffic a).map fun traffic => { s with traffic := traffic }

def step (s : AgentContext) : Label → Option AgentContext
  | .vmInit =>
    match s.death with
    | .alive => some { s with started := true }
    | _ => none
  | .enterCallback => if s.started then some { s with inFlight := s.inFlight + 1 } else none
  | .produce event => if 0 < s.inFlight then act (.enqueue event) s else none
  | .leaveCallback => if 0 < s.inFlight then some { s with inFlight := s.inFlight - 1 } else none
  | .clearStarted =>
    match s.death with
    | .alive => some { s with started := false, death := .cleared }
    | _ => none
  | .drain summaries =>
    match s.death with
    | .cleared => some { s with death := .flushing summaries }
    | _ => none
  | .flush =>
    match s.death with
    | .flushing (summary :: rest) => act (.enqueue summary) { s with death := .flushing rest }
    | _ => none
  | .publishDeadline =>
    match s.death with
    | .flushing [] => act .publishDeadline { s with death := .stopping }
    | _ => none
  | .clearRunning =>
    match s.death with
    | .stopping => act .clearRunning { s with death := .joining }
    | _ => none
  | .join =>
    match s.death, s.queue.worker with
    | .joining, .idle => some { s with death := .returned }
    | _, _ => none
  | .tick ms => act (.tick ms) s
  | .work a => if isWork a then act a s else none

def Death.running : Death → Bool
  | .joining | .returned => false
  | _ => true

structure Sound (s : AgentContext) : Prop where
  missing : NothingMissing s.traffic
  running : s.queue.running = s.death.running
  idle : s.queue.worker = .idle → s.death.running = false
  exits : ∀ batch, s.queue.worker = .dropping batch true → s.death.running = false
  joined : s.death = .returned → s.queue.worker = .idle

variable {s t : AgentContext} {a : Action} {l : Label}

theorem act_eq_some : act a s = some t ↔ ∃ traffic, Traffic.step true s.traffic a = some traffic ∧
    t = { s with traffic := traffic } := by
  simp only [act, Option.map_eq_some_iff]
  constructor
  · rintro ⟨traffic, h, rfl⟩
    exact ⟨traffic, h, rfl⟩
  · rintro ⟨traffic, h, rfl⟩
    exact ⟨traffic, h, rfl⟩

theorem act_queue (h : act a s = some t) : AsyncQueue.step true s.queue a = some t.queue ∧
    t.started = s.started ∧ t.inFlight = s.inFlight ∧ t.death = s.death ∧
    (NothingMissing s.traffic → NothingMissing t.traffic) := by
  obtain ⟨traffic, hstep, rfl⟩ := act_eq_some.mp h
  obtain ⟨u, hu, heq⟩ := Traffic.step_eq_some.mp hstep
  refine ⟨?_, rfl, rfl, rfl, fun hm => hm.step hstep⟩
  rw [hu, heq]

theorem enqueue_fields (event : String) (q : AsyncQueue.State) :
    (enqueue event q).running = q.running ∧ (enqueue event q).worker = q.worker ∧
      (enqueue event q).stopDeadline = q.stopDeadline ∧ (enqueue event q).clock = q.clock ∧
      (enqueue event q).queue.length ≤ q.queue.length + 1 ∧ (q.queue ≠ [] → (enqueue event q).queue ≠ []) := by
  unfold enqueue
  split
  · exact ⟨rfl, rfl, rfl, rfl, Nat.le_succ _, id⟩
  · exact ⟨rfl, rfl, rfl, rfl, by simp, by simp⟩

theorem Sound.moveTo (h : Sound s) {d : Death} (hrun : d.running = s.death.running)
    (hjoined : d = .returned → s.queue.worker = .idle) : Sound { s with death := d } := by
  refine ⟨h.missing, h.running.trans hrun.symm, fun hw => ?_, fun batch hw => ?_, hjoined⟩
  · rw [hrun]
    exact h.idle hw
  · rw [hrun]
    exact h.exits batch hw

theorem Sound.enqueue {event : String} (h : Sound s) (hs : act (.enqueue event) s = some t) : Sound t := by
  obtain ⟨hstep, -, -, hdeath, hmissing⟩ := act_queue hs
  obtain ⟨hrun, hworker, -⟩ := enqueue_fields event s.queue
  have hq : t.queue = AsyncQueue.enqueue event s.queue := (Option.some.inj hstep).symm
  refine ⟨hmissing h.missing, ?_, ?_, ?_, ?_⟩
  all_goals rw [hdeath, hq]
  · exact hrun.trans h.running
  · exact fun hw => h.idle (hworker.symm.trans hw)
  · exact fun batch hw => h.exits batch (hworker.symm.trans hw)
  · exact fun hd => hworker.trans (h.joined hd)

theorem Sound.work (h : Sound s) (hwork : isWork a = true) (hs : act a s = some t) : Sound t := by
  obtain ⟨hstep, -, -, hdeath, hmissing⟩ := act_queue hs
  have hcases := step_cases hstep
  have hrun : s.queue.running = false → s.death.running = false := fun hr => h.running.symm.trans hr
  refine ⟨hmissing h.missing, ?_, ?_, ?_, ?_⟩
  all_goals rw [hdeath]
  · exact (hcases.times hwork).1.trans h.running
  · intro hw
    generalize hq : t.queue = q at hcases hw
    cases hcases with
    | refuse | accept | launch | resume | publishDeadline | clearRunning | tick => cases hwork
    | leave _ _ hr | exit _ hr _ => exact hrun hr
    | dropAndLeave batch hdrop => exact h.exits batch hdrop
    | _ => cases hw
  · intro batch hw
    generalize hq : t.queue = q at hcases hw
    cases hcases with
    | refuse | accept | launch | resume | publishDeadline | clearRunning | tick => cases hwork
    | late _ _ hr _ => exact hrun hr
    | _ => cases hw
  · intro hd
    exact absurd (h.joined hd) (hcases.ne_idle hwork)

inductive Move (s : AgentContext) : Label → AgentContext → Prop where
  | vmInit (hd : s.death = .alive) : Move s .vmInit { s with started := true }
  | enterCallback (hstart : s.started = true) : Move s .enterCallback { s with inFlight := s.inFlight + 1 }
  | produce (event : String) (t : AgentContext) (hin : 0 < s.inFlight) (h : act (.enqueue event) s = some t) :
    Move s (.produce event) t
  | leaveCallback (hin : 0 < s.inFlight) : Move s .leaveCallback { s with inFlight := s.inFlight - 1 }
  | clearStarted (hd : s.death = .alive) : Move s .clearStarted { s with started := false, death := .cleared }
  | drain (summaries : List String) (hd : s.death = .cleared) :
    Move s (.drain summaries) { s with death := .flushing summaries }
  | flush (summary : String) (rest : List String) (t : AgentContext) (hd : s.death = .flushing (summary :: rest))
    (h : act (.enqueue summary) { s with death := .flushing rest } = some t) : Move s .flush t
  | publishDeadline (t : AgentContext) (hd : s.death = .flushing [])
    (h : act .publishDeadline { s with death := .stopping } = some t) : Move s .publishDeadline t
  | clearRunning (t : AgentContext) (hd : s.death = .stopping)
    (h : act .clearRunning { s with death := .joining } = some t) : Move s .clearRunning t
  | join (hd : s.death = .joining) (hw : s.queue.worker = .idle) : Move s .join { s with death := .returned }
  | tick (ms : ℕ) (t : AgentContext) (h : act (.tick ms) s = some t) : Move s (.tick ms) t
  | work (a : Action) (t : AgentContext) (hwork : isWork a = true) (h : act a s = some t) : Move s (.work a) t

theorem move_of_step (hs : step s l = some t) : Move s l t := by
  cases l with
  | vmInit | clearStarted | drain _ =>
    simp only [step] at hs
    split at hs
    · rename_i hd
      cases hs
      constructor
      exact hd
    · cases hs
  | enterCallback | leaveCallback =>
    simp only [step] at hs
    split at hs
    · cases hs
      constructor
      assumption
    · cases hs
  | produce event =>
    simp only [step] at hs
    split at hs
    · rename_i hin
      exact .produce event t hin hs
    · cases hs
  | flush =>
    simp only [step] at hs
    split at hs
    · rename_i summary rest hd
      exact .flush summary rest t hd hs
    · cases hs
  | publishDeadline =>
    simp only [step] at hs
    split at hs
    · rename_i hd
      exact .publishDeadline t hd hs
    · cases hs
  | clearRunning =>
    simp only [step] at hs
    split at hs
    · rename_i hd
      exact .clearRunning t hd hs
    · cases hs
  | join =>
    simp only [step] at hs
    split at hs
    · rename_i hd hw
      cases hs
      exact .join hd hw
    · cases hs
  | tick ms => exact .tick ms t hs
  | work a =>
    simp only [step] at hs
    split at hs
    · rename_i hwork
      exact .work a t hwork hs
    · cases hs

theorem Sound.step (h : Sound s) (hs : step s l = some t) : Sound t := by
  cases move_of_step hs with
  | vmInit | enterCallback | leaveCallback => exact ⟨h.missing, h.running, h.idle, h.exits, h.joined⟩
  | produce event _ _ hact => exact h.enqueue hact
  | clearStarted hd =>
    have hrun : Death.cleared.running = s.death.running := by rw [hd]; rfl
    have hm := h.moveTo hrun nofun
    exact ⟨hm.missing, hm.running, hm.idle, hm.exits, hm.joined⟩
  | drain summaries hd =>
    have hrun : (Death.flushing summaries).running = s.death.running := by rw [hd]; rfl
    exact h.moveTo hrun nofun
  | flush summary rest _ hd hact =>
    have hrun : (Death.flushing rest).running = s.death.running := by rw [hd]; rfl
    exact (h.moveTo hrun nofun).enqueue hact
  | publishDeadline _ hd hact =>
    have hrun : Death.stopping.running = s.death.running := by rw [hd]; rfl
    have hm := h.moveTo hrun nofun
    obtain ⟨hstep, -, -, hdeath, hmissing⟩ := act_queue hact
    have hq : t.queue = { s.queue with stopDeadline := s.queue.clock + kShutdownDrainMs } :=
      (Option.some.inj hstep).symm
    refine ⟨hmissing hm.missing, ?_, ?_, ?_, ?_⟩
    all_goals rw [hdeath, hq]
    · exact hm.running
    · exact hm.idle
    · exact hm.exits
    · exact hm.joined
  | clearRunning _ hd hact =>
    obtain ⟨hstep, -, -, hdeath, hmissing⟩ := act_queue hact
    have hq : t.queue = { s.queue with running := false } := (Option.some.inj hstep).symm
    refine ⟨hmissing h.missing, ?_, ?_, ?_, ?_⟩
    all_goals rw [hdeath, hq]
    · rfl
    · exact fun _ => rfl
    · exact fun _ _ => rfl
    · nofun
  | join hd hw =>
    have hrun : Death.returned.running = s.death.running := by rw [hd]; rfl
    exact h.moveTo hrun fun _ => hw
  | tick ms _ hact =>
    obtain ⟨hstep, -, -, hdeath, hmissing⟩ := act_queue hact
    have hq : t.queue = { s.queue with clock := s.queue.clock + ms } := (Option.some.inj hstep).symm
    refine ⟨hmissing h.missing, ?_, ?_, ?_, ?_⟩
    all_goals rw [hdeath, hq]
    · exact h.running
    · exact h.idle
    · exact h.exits
    · exact h.joined
  | work a _ hwork hact => exact h.work hwork hact

def Label.worked : Label → ℕ
  | .work _ => 1
  | _ => 0

def Label.produced : Label → ℕ
  | .produce _ | .flush => 1
  | _ => 0

theorem stopped_step (hd : s.death.running = false) (hs : step s l = some t) :
    t.death.running = false ∧
      ((l.worked = 0 ∧ t.queue = s.queue) ∨
        (l.worked = 0 ∧ ∃ event, l = .produce event ∧ t.queue = enqueue event s.queue) ∨
        (l.worked = 0 ∧ ∃ ms, t.queue = { s.queue with clock := s.queue.clock + ms }) ∨
        ∃ a, l = .work a ∧ isWork a = true ∧ Step true s.queue a t.queue) := by
  cases move_of_step hs with
  | vmInit heq | clearStarted heq | drain _ heq | flush _ _ _ heq | publishDeadline _ heq | clearRunning _ heq =>
    rw [heq] at hd
    cases hd
  | enterCallback | leaveCallback => exact ⟨hd, .inl ⟨rfl, rfl⟩⟩
  | join => exact ⟨rfl, .inl ⟨rfl, rfl⟩⟩
  | produce event _ _ hact =>
    obtain ⟨hstep, -, -, hdeath, -⟩ := act_queue hact
    exact ⟨hdeath ▸ hd, .inr (.inl ⟨rfl, event, rfl, (Option.some.inj hstep).symm⟩)⟩
  | tick ms _ hact =>
    obtain ⟨hstep, -, -, hdeath, -⟩ := act_queue hact
    exact ⟨hdeath ▸ hd, .inr (.inr (.inl ⟨rfl, ms, (Option.some.inj hstep).symm⟩))⟩
  | work a _ hwork hact =>
    obtain ⟨hstep, -, -, hdeath, -⟩ := act_queue hact
    exact ⟨hdeath ▸ hd, .inr (.inr (.inr ⟨a, rfl, hwork, step_cases hstep⟩))⟩

def Stopped (s : AgentContext) : Prop := s.death.running = false ∧ s.queue.running = false

theorem Stopped.step (h : Stopped s) (hs : step s l = some t) : Stopped t := by
  obtain ⟨hd, hcases⟩ := stopped_step h.1 hs
  refine ⟨hd, ?_⟩
  rcases hcases with ⟨-, hq⟩ | ⟨-, event, -, hq⟩ | ⟨-, ms, hq⟩ | ⟨a, -, hwork, hstep⟩
  · rw [hq, h.2]
  · rw [hq, (enqueue_fields event s.queue).1, h.2]
  · rw [hq]
    exact h.2
  · rw [(hstep.times hwork).1, h.2]

theorem Stopped.effort_le (h : Stopped s) (hs : VmDeath.step s l = some t) :
    effort t.queue + l.worked ≤ effort s.queue + 8 * l.produced := by
  rcases (stopped_step h.1 hs).2 with ⟨hl, hq⟩ | ⟨hl, event, rfl, hq⟩ | ⟨hl, ms, hq⟩ | ⟨a, rfl, hwork, hstep⟩
  · rw [hl, hq]
    omega
  · obtain ⟨-, hworker, -, -, hlen, -⟩ := enqueue_fields event s.queue
    rw [hl, hq]
    simp only [effort, hworker, Label.produced]
    omega
  · rw [hl, hq]
    simp only [effort]
    omega
  · have hlt := hstep.effort_lt hwork h.2
    simp only [Label.worked, Label.produced]
    omega

theorem Stopped.late_step (h : Stopped s) (hlate : s.queue.stopDeadline ≤ s.queue.clock)
    (hs : VmDeath.step s l = some t) : t.queue.stopDeadline ≤ t.queue.clock ∧
      t.queue.worker.haste + l.worked ≤ s.queue.worker.haste := by
  rcases (stopped_step h.1 hs).2 with ⟨hl, hq⟩ | ⟨hl, event, rfl, hq⟩ | ⟨hl, ms, hq⟩ | ⟨a, rfl, hwork, hstep⟩
  · rw [hl, hq]
    exact ⟨hlate, Nat.le_refl _⟩
  · obtain ⟨-, hworker, hdeadline, hclock, -⟩ := enqueue_fields event s.queue
    rw [hl, hq, hdeadline, hclock, hworker]
    exact ⟨hlate, Nat.le_refl _⟩
  · rw [hl, hq]
    exact ⟨hlate.trans (Nat.le_add_right _ _), Nat.le_refl _⟩
  · obtain ⟨-, hdeadline, hclock⟩ := hstep.times hwork
    have hlt := hstep.haste_lt hwork h.2 hlate
    refine ⟨by rw [hdeadline, hclock]; exact hlate, ?_⟩
    simp only [Label.worked]
    omega

theorem haste_le (w : Worker) : w.haste ≤ 8 := by
  cases w with
  | dropping _ exits => cases exits <;> simp [Worker.haste]
  | _ => simp [Worker.haste]

structure WorkEnds (s : AgentContext) : Prop where
  progress : s.queue.worker ≠ .idle → ∃ a u, step s (.work a) = some u
  bounded : ∀ labels u, run step s labels = some u →
    (labels.map Label.worked).sum ≤ effort s.queue + 8 * (labels.map Label.produced).sum
  hurried : s.queue.stopDeadline ≤ s.queue.clock → ∀ labels u, run step s labels = some u →
    (labels.map Label.worked).sum ≤ 8

theorem exists_step (h : s.queue.worker ≠ .idle) : ∃ a u, step s (.work a) = some u := by
  obtain ⟨a, hwork, hsome⟩ := exists_work h
  obtain ⟨u, hu⟩ := Option.isSome_iff_exists.mp hsome
  have hsome : (step s (.work a)).isSome = true := by
    simp only [step, hwork, if_true, act, Traffic.step, hu, Option.map_some, Option.isSome_some]
  exact ⟨a, Option.isSome_iff_exists.mp hsome⟩

theorem Stopped.workEnds (h : Stopped s) : WorkEnds s := by
  refine ⟨exists_step, fun labels u hr => ?_, fun hlate labels u hr => ?_⟩
  · have hpay := run_potential (I := Stopped) (m := fun s => effort s.queue) (c := Label.worked)
      (g := fun l => 8 * l.produced) (fun s l t hi hs => hi.step hs) (fun s l t hi hs => hi.effort_le hs) h hr
    rw [List.sum_map_mul_left] at hpay
    exact (Nat.le_add_left _ _).trans hpay
  · have hpay := run_potential (I := fun s => Stopped s ∧ s.queue.stopDeadline ≤ s.queue.clock)
      (m := fun s => s.queue.worker.haste) (c := Label.worked) (g := fun _ => 0)
      (fun s l t hi hs => ⟨hi.1.step hs, (hi.1.late_step hi.2 hs).1⟩)
      (fun s l t hi hs => (hi.1.late_step hi.2 hs).2) ⟨h, hlate⟩ hr
    have hhaste := haste_le s.queue.worker
    have hnone : (labels.map fun _ => 0).sum = 0 := by simp
    omega

def Late (s : AgentContext) (l : Label) : Prop := s.queue.worker = .idle ∧ ∃ event, l = .produce event

def NothingLeft (s : AgentContext) : Prop :=
  s.queue.queue = [] ∧ s.queue.dropped + s.traffic.accepted.length = s.queue.offered + s.traffic.counted.length ∧
    ∀ event, s.traffic.accepted.count event ≤ (eventsOf s.traffic.sent ++ s.traffic.counted).count event

theorem step_queue (hs : step s l = some t) :
    (t.queue.queue = s.queue.queue ∧ t.queue.worker = s.queue.worker) ∨
      (∃ event, (l = .produce event ∨ s.death.running = true) ∧ t.queue = enqueue event s.queue) ∨
      ∃ a, isWork a = true ∧ Step true s.queue a t.queue := by
  cases move_of_step hs with
  | vmInit | clearStarted | drain | enterCallback | leaveCallback | join => exact .inl ⟨rfl, rfl⟩
  | produce event _ _ hact =>
    obtain ⟨hstep, -⟩ := act_queue hact
    exact .inr (.inl ⟨event, .inl rfl, (Option.some.inj hstep).symm⟩)
  | flush summary rest _ hd hact =>
    obtain ⟨hstep, -⟩ := act_queue hact
    exact .inr (.inl ⟨summary, .inr (by rw [hd]; rfl), (Option.some.inj hstep).symm⟩)
  | publishDeadline _ _ hact | clearRunning _ _ hact | tick _ _ hact =>
    obtain ⟨hstep, -⟩ := act_queue hact
    have hq := (Option.some.inj hstep).symm
    exact .inl ⟨by rw [hq], by rw [hq]⟩
  | work a _ hwork hact =>
    obtain ⟨hstep, -⟩ := act_queue hact
    exact .inr (.inr ⟨a, hwork, step_cases hstep⟩)

structure Clean (s : AgentContext) : Prop extends Sound s where
  empty : s.queue.worker = .idle → s.queue.queue = []

def Stranded (s : AgentContext) : Prop := s.queue.worker = .idle ∧ s.queue.queue ≠ []

theorem Clean.step (h : Clean s) (hl : ¬ Late s l) (hs : VmDeath.step s l = some t) : Clean t := by
  refine ⟨h.toSound.step hs, fun hw => ?_⟩
  rcases step_queue hs with ⟨hq, hworker⟩ | ⟨event, hl', hq⟩ | ⟨a, hwork, hstep⟩
  · rw [hq]
    exact h.empty (hworker.symm.trans hw)
  · rw [hq, (enqueue_fields event s.queue).2.1] at hw
    rcases hl' with hl' | hrun
    · exact absurd ⟨hw, event, hl'⟩ hl
    · rw [h.idle hw] at hrun
      cases hrun
  · exact hstep.idle_empty hwork hw

theorem Clean.stranded (h : Clean s) (hl : Late s l) (hs : VmDeath.step s l = some t) : Stranded t := by
  obtain ⟨hw, event, rfl⟩ := hl
  cases move_of_step hs with
  | produce _ _ _ hact =>
    obtain ⟨hstep, -⟩ := act_queue hact
    have hq : t.queue = enqueue event s.queue := (Option.some.inj hstep).symm
    have hempty := h.empty hw
    have hroom : ¬ kMaxQueue ≤ s.queue.queue.length := by
      rw [hempty]
      decide
    rw [enqueue, if_neg hroom] at hq
    rw [Stranded, hq]
    exact ⟨hw, by simp⟩

theorem Stranded.step (h : Stranded s) (hs : VmDeath.step s l = some t) : Stranded t := by
  rcases step_queue hs with ⟨hq, hworker⟩ | ⟨event, -, hq⟩ | ⟨a, hwork, hstep⟩
  · rw [Stranded, hq, hworker]
    exact h
  · obtain ⟨-, hworker, -, -, -, hne⟩ := enqueue_fields event s.queue
    rw [Stranded, hq, hworker]
    exact ⟨h.1, hne h.2⟩
  · exact absurd h.1 (hstep.ne_idle hwork)

theorem Clean.nothingLeft (h : Clean s) (hd : s.death = .returned) : NothingLeft s := by
  have hw := h.joined hd
  have hempty := h.empty hw
  refine ⟨hempty, h.missing.dropped, fun event => ?_⟩
  have hheld := h.missing.held event
  simpa only [hempty, hw, Worker.inHand, List.append_nil] using hheld

theorem onLoad_clean : Clean onLoad where
  missing := ⟨fun _ => Nat.zero_le _, rfl⟩
  running := rfl
  idle := nofun
  exits := nofun
  joined := nofun
  empty := nofun

/-- The worker leaves its loop after `running_` has been cleared, and a `stop` that has
returned has left nothing behind exactly when no callback enqueued after that. -/
theorem nothing_left_behind_iff {labels : List Label} (hr : run step onLoad labels = some t) :
    (t.queue.running = false → WorkEnds t) ∧
      (t.death = .returned →
        (NothingLeft t ↔ AllSteps step (fun s l => ¬ Late s l) onLoad labels)) := by
  have hsound : Sound t :=
    run_invariant (fun s l _ t (hi : Sound s) hs => hi.step hs) onLoad_clean.toSound hr
  constructor
  · intro hrun
    exact Stopped.workEnds ⟨hsound.running.symm.trans hrun, hrun⟩
  · intro hd
    rcases run_dichotomy (fun s l _ t (hi : Clean s) hl hs => hi.step hl hs)
      (fun s l _ t hi hl hs => hi.stranded (not_not.mp hl) hs)
      (fun s l _ t hi hs => Stranded.step hi hs) onLoad_clean hr with ⟨hall, hclean⟩ | ⟨hnot, hstranded⟩
    · exact iff_of_true (hclean.nothingLeft hd) hall
    · exact iff_of_false (fun hleft => hstranded.2 hleft.1) hnot

def lateCallback : List Label :=
  [.vmInit, .enterCallback, .clearStarted, .drain [], .publishDeadline, .clearRunning, .work .popBatch,
    .join, .produce "{}"]

theorem late_event_is_stranded :
    ∃ t, run step onLoad lateCallback = some t ∧ t.death = .returned ∧ t.traffic.accepted = ["{}"] ∧
      ¬ NothingLeft t := by
  refine ⟨_, rfl, rfl, rfl, ?_⟩
  rintro ⟨hempty, -⟩
  cases hempty

def summarySent : List Label :=
  [.vmInit, .clearStarted, .drain ["{}"], .flush, .work .popBatch, .work .checkDeadline,
    .publishDeadline, .clearRunning, .work (.answer .kOk), .work .finish, .join]

theorem flushed_summary_is_sent :
    ∃ t, run step onLoad summarySent = some t ∧ t.traffic.accepted = ["{}"] ∧ NothingLeft t := by
  have hrun : run step onLoad summarySent = some _ := rfl
  refine ⟨_, hrun, rfl, ((nothing_left_behind_iff hrun).2 rfl).mpr ?_⟩
  apply allSteps_of_forall
  simp [summarySent, Late]

end JvmScout.Agent.VmDeath
