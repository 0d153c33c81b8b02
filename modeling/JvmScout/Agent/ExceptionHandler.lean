import JvmScout.Agent.AsyncQueue
import JvmScout.Agent.Config
import JvmScout.Agent.CountAggregator
import JvmScout.Agent.Sampler

namespace JvmScout.Agent.ExceptionHandler

open Runs

structure Throw where
  fingerprint : Bytes
  timestamp : Bytes
  exceptionType : Bytes
  caught : Bool
  location : Location Bytes
  exceptionMessage : Bytes
  caughtAt : Location Bytes
  thread : ThreadDetails Bytes
  causeChain : List (CauseInfo Bytes)
  suppressed : List (CauseInfo Bytes)
  metrics : JvmMetrics
  stack : List (StackFrame Bytes)
  unshippedClasses : List (Bytes × Bytes)

def noLocation : Location Bytes := ⟨[], [], -1, [], false⟩

def noMetrics : JvmMetrics := ⟨-1, -1, -1, -1, -1, -1, -1⟩

def countOnlyProto (cfg : AgentConfig) (x : Throw) (hitCount : ℕ) : CapturedEvent Bytes where
  fingerprint := x.fingerprint
  mode := .COUNT_ONLY
  hitCount := hitCount
  occurrences := 1
  timestamp := x.timestamp
  deploymentId := cfg.deployment
  environment := cfg.environment
  instanceId := cfg.instanceId
  exceptionType := x.exceptionType
  exceptionMessage := []
  caught := x.caught
  location := x.location
  caughtAt := noLocation
  thread := ⟨[], -1, false⟩
  causeChain := []
  suppressed := []
  metrics := noMetrics
  metricsValid := false
  stack := []

def capturedEvent (cfg : AgentConfig) (x : Throw) (d : Sampler.Decision) : CapturedEvent Bytes where
  fingerprint := x.fingerprint
  mode := d.mode
  hitCount := d.hitCount
  occurrences := 1
  timestamp := x.timestamp
  deploymentId := cfg.deployment
  environment := cfg.environment
  instanceId := cfg.instanceId
  exceptionType := x.exceptionType
  exceptionMessage := x.exceptionMessage
  caught := x.caught
  location := x.location
  caughtAt := x.caughtAt
  thread := x.thread
  causeChain := x.causeChain
  suppressed := x.suppressed
  metrics := if d.mode = .FULL then x.metrics else noMetrics
  metricsValid := decide (d.mode = .FULL)
  stack := x.stack

def sourceClassText (cfg : AgentConfig) (slash b64 : Bytes) : String :=
  let w := JsonWriter.empty.beginObject
  let w := w.fieldText "type" "source_class"
  let w := w.fieldString "instanceId" cfg.instanceId
  let w := w.fieldString "deploymentId" cfg.deployment
  let w := w.fieldString "className" slash
  let w := w.fieldString "bytecodeB64" b64
  let w := w.endObject
  w.out

inductive Shipment where
  | event (ev : CapturedEvent Bytes)
  | sourceClass (text : String)

def Shipment.text : Shipment → String
  | .event ev => serializeEvent ev
  | .sourceClass text => text

def shipments (cfg : AgentConfig) (x : Throw) (d : Sampler.Decision) : List Shipment :=
  (if d.mode = .FULL then x.unshippedClasses.map fun c => .sourceClass (sourceClassText cfg c.1 c.2) else []) ++
    [.event (capturedEvent cfg x d)]

inductive Call where
  | decided (x : Throw) (d : Sampler.Decision)
  | handing (rest : List Shipment)
  | flushing (force : Bool)
  | shipping (rest : List Shipment)
  | done

structure State where
  sampler : Sampler
  aggregator : CountAggregator
  queue : AsyncQueue.State
  calls : List Call
  processed : ℕ
  handed : List Shipment

def initial : State := ⟨Sampler.new Sampler.kDefaultMaxEntries, CountAggregator.empty, AsyncQueue.initial, [], 0, []⟩

/-- A callback begins with the sampler's decision. `t` is the clock that its next atomic part reads. -/
inductive Label where
  | throw (x : Throw) (t : ℤ)
  | vmDeath
  | advance (i : ℕ) (t : ℤ)
  | queue (a : AsyncQueue.Action)

def hand (h : Shipment) (s : State) : State :=
  { s with queue := AsyncQueue.enqueue h.text s.queue, handed := s.handed ++ [h] }

def Call.advance (cfg : AgentConfig) (t : ℤ) (s : State) : Call → Option (Call × State)
  | .decided x d =>
    if d.mode = .COUNT_ONLY then
      some (.flushing false,
        { s with aggregator := s.aggregator.record x.fingerprint (countOnlyProto cfg x d.hitCount) t })
    else some (.handing (shipments cfg x d), s)
  | .handing [] => some (.flushing false, s)
  | .handing (h :: rest) => some (.handing rest, hand h s)
  | .flushing force =>
    let (ready, aggregator) := s.aggregator.drain force t
    some (.shipping (ready.map fun e => .event e.2.summary), { s with aggregator := aggregator })
  | .shipping [] => some (.done, s)
  | .shipping (h :: rest) => some (.shipping rest, hand h s)
  | .done => none

def step (cfg : AgentConfig) (hash : Bytes → ℕ) (transport : Bool) (s : State) : Label → Option State
  | .throw x t =>
    let (d, sampler) := s.sampler.decide hash x.fingerprint t
    some { s with sampler := sampler, calls := s.calls ++ [.decided x d], processed := s.processed + 1 }
  | .vmDeath => some { s with calls := s.calls ++ [.flushing true] }
  | .advance i t =>
    match s.calls[i]? with
    | none => none
    | some c => (c.advance cfg t s).map fun (c, s) => { s with calls := s.calls.set i c }
  | .queue (.enqueue _) => none
  | .queue a => (AsyncQueue.step transport s.queue a).map fun queue => { s with queue := queue }

def Quiescent (s : State) : Prop := ∀ c ∈ s.calls, c = .done

def Shipment.captures : Shipment → ℕ
  | .event ev => if ev.mode = .COUNT_ONLY then 0 else 1
  | .sourceClass _ => 0

def Shipment.summarized : Shipment → ℕ
  | .event ev => if ev.mode = .COUNT_ONLY then ev.wireOccurrences else 0
  | .sourceClass _ => 0

def captures (hs : List Shipment) : ℕ := (hs.map Shipment.captures).sum

def summarized (hs : List Shipment) : ℕ := (hs.map Shipment.summarized).sum

def Call.carried : Call → ℕ
  | .decided _ _ => 1
  | .handing rest | .shipping rest => captures rest + summarized rest
  | .flushing _ | .done => 0

def carried (calls : List Call) : ℕ := (calls.map Call.carried).sum

structure Balanced (s : State) : Prop where
  throws : s.processed = captures s.handed + summarized s.handed + s.aggregator.pendingCount +
    s.aggregator.overflowDropped + carried s.calls
  aggregator : s.aggregator.Sound
  offered : s.queue.offered = s.handed.length

variable {cfg : AgentConfig} {hash : Bytes → ℕ} {transport : Bool} {s s' : State}

theorem captures_cons (h : Shipment) (hs : List Shipment) : captures (h :: hs) = h.captures + captures hs :=
  List.sum_cons

theorem summarized_cons (h : Shipment) (hs : List Shipment) :
    summarized (h :: hs) = h.summarized + summarized hs := List.sum_cons

theorem captures_append (hs ks : List Shipment) : captures (hs ++ ks) = captures hs + captures ks := by
  rw [captures, List.map_append, List.sum_append, captures, captures]

theorem summarized_append (hs ks : List Shipment) : summarized (hs ++ ks) = summarized hs + summarized ks := by
  rw [summarized, List.map_append, List.sum_append, summarized, summarized]

theorem shipments_count (cfg : AgentConfig) (x : Throw) {d : Sampler.Decision} (hd : d.mode ≠ .COUNT_ONLY) :
    captures (shipments cfg x d) = 1 ∧ summarized (shipments cfg x d) = 0 := by
  have hclasses (cs : List (Bytes × Bytes)) :
      captures (cs.map fun c => .sourceClass (sourceClassText cfg c.1 c.2)) = 0 ∧
        summarized (cs.map fun c => .sourceClass (sourceClassText cfg c.1 c.2)) = 0 := by
    induction cs with
    | nil => exact ⟨rfl, rfl⟩
    | cons c cs ih =>
      rw [List.map_cons, captures_cons, summarized_cons, ih.1, ih.2]
      exact ⟨rfl, rfl⟩
  have hevent : captures [.event (capturedEvent cfg x d)] = 1 ∧ summarized [.event (capturedEvent cfg x d)] = 0 := by
    simp [captures, summarized, Shipment.captures, Shipment.summarized, capturedEvent, hd]
  rw [shipments, captures_append, summarized_append, hevent.1, hevent.2]
  split
  · rw [(hclasses _).1, (hclasses _).2]
    exact ⟨rfl, rfl⟩
  · exact ⟨rfl, rfl⟩

theorem summaries_count {ready : List (Bytes × CountAggregator.Entry)}
    (h : ∀ e ∈ ready, 0 < e.2.count ∧ e.2.proto.mode = .COUNT_ONLY) :
    captures (ready.map fun e => .event e.2.summary) = 0 ∧
      summarized (ready.map fun e => .event e.2.summary) = (ready.map fun e => e.2.count).sum := by
  induction ready with
  | nil => exact ⟨rfl, rfl⟩
  | cons e ready ih =>
    obtain ⟨hcount, hmode⟩ := h e List.mem_cons_self
    obtain ⟨hcaptures, hsummarized⟩ := ih fun x hx => h x (List.mem_cons_of_mem e hx)
    have hwire : e.2.summary.wireOccurrences = e.2.count := if_neg (Nat.pos_iff_ne_zero.mp hcount)
    have hsummary : e.2.summary.mode = .COUNT_ONLY := hmode
    rw [List.map_cons, captures_cons, summarized_cons, hcaptures, hsummarized, List.map_cons, List.sum_cons]
    simp [Shipment.captures, Shipment.summarized, hsummary, hwire]

theorem carried_set {calls : List Call} {i : ℕ} {c : Call} (hc : calls[i]? = some c) (c' : Call) :
    carried (calls.set i c') + c.carried = carried calls + c'.carried := by
  induction calls generalizing i with
  | nil => cases hc
  | cons c₀ calls ih =>
    cases i with
    | zero =>
      cases hc
      simp only [carried, List.set_cons_zero, List.map_cons, List.sum_cons]
      omega
    | succ i =>
      have hrest := ih (i := i) hc
      simp only [carried, List.set_cons_succ, List.map_cons, List.sum_cons] at hrest ⊢
      omega

theorem offered_enqueue (event : String) (q : AsyncQueue.State) :
    (AsyncQueue.enqueue event q).offered = q.offered + 1 := by
  unfold AsyncQueue.enqueue
  split <;> rfl

theorem offered_step {q q' : AsyncQueue.State} {a : AsyncQueue.Action} (ha : ∀ event, a ≠ .enqueue event)
    (h : AsyncQueue.step transport q a = some q') : q'.offered = q.offered := by
  cases AsyncQueue.step_cases h with
  | refuse event | accept event => exact absurd rfl (ha event)
  | _ => rfl

structure Conserves (s s' : State) (c c' : Call) : Prop where
  throws : captures s'.handed + summarized s'.handed + s'.aggregator.pendingCount + s'.aggregator.overflowDropped +
    c'.carried = captures s.handed + summarized s.handed + s.aggregator.pendingCount + s.aggregator.overflowDropped +
      c.carried
  processed : s'.processed = s.processed
  calls : s'.calls = s.calls
  aggregator : s'.aggregator.Sound
  offered : s'.queue.offered = s'.handed.length

theorem hand_conserves (h : Shipment) (rest : List Shipment) (hi : s.aggregator.Sound)
    (ho : s.queue.offered = s.handed.length) {c c' : Call} (hc : c.carried = captures (h :: rest) + summarized (h :: rest))
    (hc' : c'.carried = captures rest + summarized rest) : Conserves s (hand h s) c c' where
  throws := by
    have hone : captures [h] = h.captures ∧ summarized [h] = h.summarized := ⟨rfl, rfl⟩
    rw [hc, hc', captures_cons, summarized_cons, hand, captures_append, summarized_append, hone.1, hone.2]
    dsimp only
    omega
  processed := rfl
  calls := rfl
  aggregator := hi
  offered := by
    rw [hand, List.length_append, List.length_singleton, ← ho]
    exact offered_enqueue h.text s.queue

theorem Call.advance_conserves {c c' : Call} {t : ℤ} (hi : s.aggregator.Sound)
    (ho : s.queue.offered = s.handed.length) (h : c.advance cfg t s = some (c', s')) : Conserves s s' c c' := by
  cases c with
  | decided x d =>
    simp only [Call.advance] at h
    split at h
    · cases h
      have hcount := CountAggregator.record_count x.fingerprint (countOnlyProto cfg x d.hitCount) t s.aggregator
      have hproto : (countOnlyProto cfg x d.hitCount).mode = .COUNT_ONLY := rfl
      have hsound := hi.record x.fingerprint hproto t
      refine ⟨?_, rfl, rfl, hsound, ho⟩
      simp only [Call.carried]
      omega
    · rename_i hd
      cases h
      obtain ⟨hcaptures, hsummarized⟩ := shipments_count cfg x hd
      refine ⟨?_, rfl, rfl, hi, ho⟩
      simp only [Call.carried, hcaptures, hsummarized]
  | handing rest =>
    cases rest with
    | nil =>
      cases h
      exact ⟨rfl, rfl, rfl, hi, ho⟩
    | cons h' rest =>
      cases h
      exact hand_conserves h' rest hi ho rfl rfl
  | flushing force =>
    rw [Call.advance, Option.some.injEq, Prod.mk.injEq] at h
    obtain ⟨rfl, rfl⟩ := h
    obtain ⟨hcount, hoverflow⟩ := CountAggregator.drain_count force t s.aggregator
    obtain ⟨hsound, hready⟩ := hi.drain force t
    obtain ⟨hcaptures, hsummarized⟩ := summaries_count hready
    refine ⟨?_, rfl, rfl, hsound, ho⟩
    simp only [Call.carried, hcaptures, hsummarized, hoverflow]
    omega
  | shipping rest =>
    cases rest with
    | nil =>
      cases h
      exact ⟨rfl, rfl, rfl, hi, ho⟩
    | cons h' rest =>
      cases h
      exact hand_conserves h' rest hi ho rfl rfl
  | done => cases h

theorem carried_snoc (calls : List Call) (c : Call) : carried (calls ++ [c]) = carried calls + c.carried := by
  rw [carried, carried, List.map_append, List.sum_append, List.map_singleton, List.sum_singleton]

theorem Balanced.step {l : Label} (hi : Balanced s) (h : step cfg hash transport s l = some s') : Balanced s' := by
  cases l with
  | throw x t =>
    cases h
    have hthrows := hi.throws
    refine ⟨?_, hi.aggregator, hi.offered⟩
    simp only [carried_snoc, Call.carried]
    omega
  | vmDeath =>
    cases h
    have hthrows := hi.throws
    refine ⟨?_, hi.aggregator, hi.offered⟩
    simp only [carried_snoc, Call.carried]
    omega
  | advance i t =>
    simp only [ExceptionHandler.step] at h
    split at h
    · cases h
    · rename_i c hc
      obtain ⟨⟨c', u⟩, hadvance, rfl⟩ := Option.map_eq_some_iff.mp h
      obtain ⟨hthrows, hprocessed, hcalls, haggregator, hoffered⟩ :=
        Call.advance_conserves hi.aggregator hi.offered hadvance
      have hold := hi.throws
      have hset := carried_set hc c'
      refine ⟨?_, haggregator, hoffered⟩
      dsimp only
      rw [hcalls, hprocessed]
      omega
  | queue a =>
    have hkeep (ha : ∀ event, a ≠ .enqueue event)
        (h : (AsyncQueue.step transport s.queue a).map (fun queue => { s with queue := queue }) = some s') :
        Balanced s' := by
      obtain ⟨q, hq, rfl⟩ := Option.map_eq_some_iff.mp h
      refine ⟨hi.throws, hi.aggregator, ?_⟩
      rw [offered_step ha hq]
      exact hi.offered
    cases a with
    | enqueue event => cases h
    | start | publishDeadline | clearRunning | tick _ | popBatch | checkDeadline | answer _ | retry | requeueOrDrop
    | dropBatchAndQueue | finish => exact hkeep (fun event he => by cases he) h

/-- Every throw is in an event, in a summary, pending or counted as lost, once no callback is in progress. -/
theorem throws_conserved {ls : List Label} (hr : run (step cfg hash transport) initial ls = some s)
    (hq : Quiescent s) :
    s.processed = captures s.handed + summarized s.handed + s.aggregator.pendingCount +
      s.aggregator.overflowDropped ∧ s.queue.offered = s.handed.length := by
  have hinit : Balanced initial :=
    ⟨rfl, ⟨fun e he => (by cases he), fun e he => (by cases he), Nat.zero_le _⟩, rfl⟩
  have hbalanced : Balanced s := run_invariant (fun s l _ t hi h => hi.step h) hinit hr
  have hnone : carried s.calls = 0 := by
    apply List.sum_eq_zero
    intro n hn
    obtain ⟨c, hc, rfl⟩ := List.mem_map.mp hn
    rw [hq c hc]
    rfl
  have hthrows := hbalanced.throws
  rw [hnone, Nat.add_zero] at hthrows
  exact ⟨hthrows, hbalanced.offered⟩

def sampleThrow : Throw where
  fingerprint := [0x66, 0x31]
  timestamp := []
  exceptionType := []
  caught := false
  location := noLocation
  exceptionMessage := []
  caughtAt := noLocation
  thread := ⟨[], 5, false⟩
  causeChain := []
  suppressed := []
  metrics := noMetrics
  stack := []
  unshippedClasses := [([0x43], [])]

def otherThrow : Throw := { sampleThrow with fingerprint := [0x66, 0x32] }

def overlappingThrows : List Label :=
  List.replicate 59 (.throw sampleThrow 1) ++ [.throw otherThrow 2] ++ (List.range' 50 9).map (.advance · 2) ++
    [.vmDeath, .advance 60 3, .throw sampleThrow 4, .queue .start, .advance 61 4] ++
    (List.replicate 5 ((List.range 50).map (.advance · 4))).flatten ++ (List.range 10).map (.advance · 4) ++
    List.replicate 6 (.advance 59 4) ++ (List.replicate 2 ((List.range' 50 9 ++ [60, 61]).map (.advance · 5))).flatten

def Call.isDone : Call → Bool
  | .done => true
  | _ => false

theorem overlapping_throws_conserved :
    ∃ s, run (step sampleConfig (fun _ => 0) true) initial overlappingThrows = some s ∧
      captures s.handed = 51 ∧ summarized s.handed = 9 ∧ s.aggregator.pendingCount = 1 ∧
      s.processed = captures s.handed + summarized s.handed + s.aggregator.pendingCount +
        s.aggregator.overflowDropped := by
  have hend : (run (step sampleConfig (fun _ => 0) true) initial overlappingThrows).map (fun s =>
      (s.calls.all Call.isDone, captures s.handed, summarized s.handed, s.aggregator.pendingCount)) =
        some (true, 51, 9, 1) := by
    decide +kernel
  obtain ⟨s, hrun, heq⟩ := Option.map_eq_some_iff.mp hend
  obtain ⟨hdone, hcaptures, hsummarized, hpending⟩ : s.calls.all Call.isDone = true ∧ captures s.handed = 51 ∧
      summarized s.handed = 9 ∧ s.aggregator.pendingCount = 1 := by simpa using heq
  refine ⟨s, hrun, hcaptures, hsummarized, hpending, (throws_conserved hrun fun c hc => ?_).1⟩
  have hc' := List.all_eq_true.mp hdone c hc
  cases c with
  | done => rfl
  | decided | handing | flushing | shipping => cases hc'

end JvmScout.Agent.ExceptionHandler
