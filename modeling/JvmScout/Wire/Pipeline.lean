import JvmScout.Agent.QueueDelivery
import JvmScout.Collector.Charts
import JvmScout.Collector.AcknowledgedBatch
import JvmScout.Wire.Shipments

/-!
The agent and the collector as one system: the worker's batches are POSTed to the
ingest endpoint, whose answer may be lost on its way back.
-/

namespace JvmScout.Wire.Pipeline

open Runs Agent Agent.AsyncQueue Routes Storage Security

/-- `lost` and `repeated` are the texts that left the agent for good without being stored, and
those that were stored although the agent, not having heard of it, kept them. -/
structure State where
  agent : ExceptionHandler.State
  db : Db
  lost : List String
  repeated : List String

def start (db : Db) : State := ⟨ExceptionHandler.initial, db, [], []⟩

inductive Label (py : Python) where
  | agent (l : ExceptionHandler.Label)
  | post (env : IngestEnv py) (heard : Bool)

def held (q : AsyncQueue.State) : List String := q.worker.inHand ++ q.queue

def discards (q : AsyncQueue.State) : Action → List String
  | .enqueue event => if kMaxQueue ≤ q.queue.length then [event] else []
  | .answer .kPermanent =>
    match q.worker with
    | .sending batch false _ => batch.events
    | _ => []
  | .requeueOrDrop =>
    match q.worker with
    | .unsent batch false => batch.events.take (requeueFront batch.events q.queue).2
    | _ => []
  | .dropBatchAndQueue => held q
  | _ => []

def handedBy (s : ExceptionHandler.State) : ExceptionHandler.Label → List ExceptionHandler.Shipment
  | .advance i _ =>
    match s.calls[i]? with
    | some (.handing (h :: _)) | some (.shipping (h :: _)) => [h]
    | _ => []
  | _ => []

def discardedBy (s : ExceptionHandler.State) : ExceptionHandler.Label → List String
  | .queue a => discards s.queue a
  | l => (handedBy s l).flatMap fun h => discards s.queue (.enqueue h.text)

def postBody (events : List String) : Body :=
  let text := buildBatch events
  ⟨some (toString text.utf8ByteSize), text.utf8ByteSize, (JsonText.parse text).elim .decodeError .json⟩

def stored (acc : Intake) (events : List String) : List String :=
  (events.zipIdx.filter fun x => decide (x.2 ∈ acc.committed)).map Prod.fst

def unstored (acc : Intake) (events : List String) : List String :=
  (events.zipIdx.filter fun x => !decide (x.2 ∈ acc.committed)).map Prod.fst

variable {py : Python}

def post (who : Principal) (env : IngestEnv py) (heard : Bool) (s : State) : Option State :=
  match s.agent.queue.worker with
  | .sending batch _ _ =>
    let result := ingest env who (postBody batch.events) s.db
    let a := Action.answer (if heard then classifyHttpStatus (ingestStatus result) else .kRetryable)
    (AsyncQueue.step true s.agent.queue a).map fun queue =>
      let agent := { s.agent with queue := queue }
      match result with
      | .error _ => { s with agent := agent, lost := s.lost ++ discards s.agent.queue a }
      | .ok acc =>
        if heard then { s with agent := agent, db := acc.db, lost := s.lost ++ unstored acc batch.events }
        else { s with agent := agent, db := acc.db, repeated := s.repeated ++ stored acc batch.events }
  | _ => none

def step (who : Principal) (cfg : AgentConfig) (hash : Bytes → ℕ) (s : State) : Label py → Option State
  | .agent (.queue (.answer .kOk)) => none
  | .agent l =>
    (ExceptionHandler.step cfg hash true s.agent l).map fun agent =>
      { s with agent := agent, lost := s.lost ++ discardedBy s.agent l }
  | .post env heard => post who env heard s

/-! ### What a batch adds to the stored throws -/

theorem total_stored (acc : Intake) (events : List String) :
    total (stored acc events) + total (unstored acc events) = total events := by
  have hsplit (xs : List (String × ℕ)) :
      total ((xs.filter fun x => decide (x.2 ∈ acc.committed)).map Prod.fst) +
        total ((xs.filter fun x => !decide (x.2 ∈ acc.committed)).map Prod.fst) = total (xs.map Prod.fst) := by
    induction xs with
    | nil => rfl
    | cons x xs ih =>
      by_cases hx : x.2 ∈ acc.committed
      · simp only [List.filter_cons, hx, decide_true, if_true, Bool.not_true, Bool.false_eq_true, if_false,
          List.map_cons, total_cons]
        omega
      · simp only [List.filter_cons, hx, decide_false, Bool.false_eq_true, if_false, Bool.not_false, if_true,
          List.map_cons, total_cons]
        omega
  have h := hsplit events.zipIdx
  rw [List.zipIdx_map_fst] at h
  exact h

def ReadAs (rules : Redaction.CompiledRules py.Pattern) (text : String) (item : Json) : Prop :=
  (∃ ev raw, readItem rules item = .ok (.exception ev raw) ∧ orOne ev.occurrences = throwsOf text) ∨
    ∃ className bytecodeB64, readItem rules item = .ok (.sourceClass className bytecodeB64) ∧ throwsOf text = 0

theorem sumOcc_items {rules : Redaction.CompiledRules py.Pattern} {texts : List String} {items : List Json}
    (h : List.Forall₂ (ReadAs rules) texts items) (committed : List ℕ) (now : ℕ) (projectId : Option String) (n : ℕ) :
    sumOcc (((exceptionItems rules (items.zipIdx n)).filter fun x => decide (x.1 ∈ committed)).map fun x =>
        exceptionRow now x.2.1 x.2.2 projectId) =
      (total (((texts.zipIdx n).filter fun x => decide (x.2 ∈ committed)).map Prod.fst) : ℤ) := by
  induction h generalizing n with
  | nil => rfl
  | @cons text item texts items hread _ ih =>
    have hrest := ih (n + 1)
    rw [List.zipIdx_cons, List.zipIdx_cons]
    rcases hread with ⟨ev, raw, hread, hocc⟩ | ⟨className, bytecodeB64, hread, hzero⟩
    · have hitem : exceptionItems rules ((item, n) :: items.zipIdx (n + 1)) =
          (n, ev, raw) :: exceptionItems rules (items.zipIdx (n + 1)) := by
        simp [exceptionItems, hread]
      have hrow : occ (exceptionRow now ev raw projectId) = throwsOf text := hocc
      rw [hitem]
      by_cases hn : n ∈ committed
      · simp only [List.filter_cons, hn, decide_true, if_true, List.map_cons, total_cons, Nat.cast_add]
        rw [sumOcc, List.map_cons, List.sum_cons, hrow, ← sumOcc, hrest]
      · simpa only [List.filter_cons, hn, decide_false, Bool.false_eq_true, if_false] using hrest
    · have hitem : exceptionItems rules ((item, n) :: items.zipIdx (n + 1)) =
          exceptionItems rules (items.zipIdx (n + 1)) := by
        simp [exceptionItems, hread]
      rw [hitem]
      by_cases hn : n ∈ committed
      · simp only [List.filter_cons, hn, decide_true, if_true, List.map_cons, total_cons, hzero, Nat.zero_add]
        exact hrest
      · simpa only [List.filter_cons, hn, decide_false, Bool.false_eq_true, if_false] using hrest

theorem parse_buildBatch {texts : List String} {docs : List Dict} (h : List.Forall₂ (Legible py) texts docs) :
    JsonText.parse (buildBatch texts) = some (.arr (docs.map .obj)) := by
  rw [buildBatch_eq]
  apply JsonText.parse_of_reads
  apply JsonText.reads_arr
  rw [List.forall₂_map_right_iff]
  exact h.imp fun text d hd => hd.reads

theorem readJsonBody_postBody {limit : ℕ} {texts : List String} {docs : List Dict} {payload : Json}
    (h : List.Forall₂ (Legible py) texts docs) (hread : readJsonBody py limit (postBody texts) = .ok payload) :
    payload = .arr (docs.map .obj) := by
  have hparse := parse_buildBatch h
  have hsize : (buildBatch texts).utf8ByteSize ≠ 0 := by
    rw [buildBatch_eq, String.utf8ByteSize_append, String.utf8ByteSize_append]
    have hopen : "[".utf8ByteSize = 1 := rfl
    omega
  unfold readJsonBody at hread
  cases hc : checkContentLength py limit (postBody texts).contentLength with
  | error f =>
    rw [hc] at hread
    cases hread
  | ok _ =>
    rw [hc] at hread
    by_cases hbig : limit < (buildBatch texts).utf8ByteSize
    · simp only [bind, Except.bind, postBody, hbig, if_true] at hread
      cases hread
    · simp only [bind, Except.bind, postBody, hbig, hparse, hsize, if_false, Option.elim_some] at hread
      cases hread
      rfl

theorem ingest_stored {who : Principal} {env : IngestEnv py} {db : Db} {acc : Intake} {texts : List String}
    (hlegible : ∀ text ∈ texts, ∃ d, Legible py text d) (h : ingest env who (postBody texts) db = .ok acc) :
    sumOcc acc.db.exceptions.values = sumOcc db.exceptions.values + total (stored acc texts) := by
  obtain ⟨docs, hdocs⟩ : ∃ docs, List.Forall₂ (Legible py) texts docs := by
    choose! d hd using hlegible
    exact ⟨texts.map d, List.forall₂_map_right_iff.mpr (List.forall₂_same.mpr hd)⟩
  simp only [ingest, Traverse.bind_eq_ok, Traverse.pure_eq_ok] at h
  obtain ⟨⟨ing, items⟩, hadmitted, rfl⟩ := h
  have hitems : items = docs.map .obj := by
    unfold admitted at hadmitted
    simp only [Traverse.bind_eq_ok] at hadmitted
    obtain ⟨-, -, hadmitted⟩ := hadmitted
    split at hadmitted
    · simp only [Traverse.bind_eq_ok, Traverse.pure_eq_ok, Prod.mk.injEq] at hadmitted
      obtain ⟨payload, hbody, -, -, -, rfl⟩ := hadmitted
      rw [readJsonBody_postBody hdocs hbody]
      rfl
    · cases hadmitted
  have hread : List.Forall₂ (ReadAs ing.rules) texts items := by
    rw [hitems, List.forall₂_map_right_iff]
    exact hdocs.imp fun text d hd => hd.read ing.rules
  rw [exceptions_after_ingest, sumOcc_append, sumOcc_items hread, stored]

/-! ### What the queue keeps and gives up -/

theorem queue_step_total {q q' : AsyncQueue.State} {a : Action} (henqueue : ∀ event, a ≠ .enqueue event)
    (hok : a ≠ .answer .kOk) (h : AsyncQueue.step true q a = some q') :
    total (held q) = total (discards q a) + total (held q') := by
  cases AsyncQueue.step_cases h with
  | refuse event | accept event => exact absurd rfl (henqueue event)
  | delivered => exact absurd rfl hok
  | resume | publishDeadline | clearRunning | tick => simp [discards, held]
  | launch hw | wait hw | leave hw | exit hw | again hw | late _ hw | send _ hw | giveUp _ _ _ hw | resend _ _ _ hw
  | abandon _ hw | failed _ _ _ hw | rejected _ _ hw | rejectedStopping _ _ hw =>
    simp [discards, held, hw, Worker.inHand]
  | skip _ _ hno => cases hno
  | pop batch rest hw hq _ => simp [discards, held, hw, hq, Worker.inHand]
  | requeue batch lost kept hw hb hp =>
    simp only [discards, held, hw, hp, Worker.inHand, List.nil_append, total_append]
    rw [hb, List.take_left, total_append]
    omega
  | drop batch hw | dropAndLeave batch hw => simp [discards, held, hw, Worker.inHand]

theorem enqueue_total (event : String) (q : AsyncQueue.State) :
    total (held q) + throwsOf event = total (discards q (.enqueue event)) + total (held (enqueue event q)) := by
  by_cases hq : kMaxQueue ≤ q.queue.length
  · simp only [enqueue, discards, held, hq, if_true, total_cons, total_nil]
    omega
  · simp only [enqueue, discards, held, hq, if_false, total_append, total_cons, total_nil]
    omega

theorem mem_held_enqueue {event text : String} {q : AsyncQueue.State} (h : text ∈ held (enqueue event q)) :
    text ∈ held q ∨ text = event := by
  unfold enqueue held at h
  unfold held
  split at h
  · exact .inl h
  · simpa [or_assoc] using h

theorem mem_held_step {q q' : AsyncQueue.State} {a : Action} (henqueue : ∀ event, a ≠ .enqueue event)
    (h : AsyncQueue.step true q a = some q') {text : String} (ht : text ∈ held q') : text ∈ held q := by
  have hnone : accepts q a = [] := by
    cases a with
    | enqueue event => exact absurd rfl (henqueue event)
    | _ => rfl
  have hsub := (AsyncQueue.step_sublist h).subset
  rw [hnone, List.append_nil, List.append_assoc] at hsub
  exact hsub (List.mem_append_right _ ht)

/-! ### The agent's side of the ledger -/

def CallOfText : ExceptionHandler.Call → Prop
  | .decided x _ => ThrowOfText x
  | .handing rest | .shipping rest => ∀ h ∈ rest, Sound h
  | .flushing _ | .done => True

structure AgentOfText (a : ExceptionHandler.State) : Prop where
  handed : ∀ h ∈ a.handed, Sound h
  calls : ∀ c ∈ a.calls, CallOfText c
  pending : ∀ e ∈ a.aggregator.pending, EventOfText e.2.proto
  suppressed : a.aggregator.Sound
  held : ∀ text ∈ held a.queue, ∃ h, Sound h ∧ h.text = text

def ThrowLabel : ExceptionHandler.Label → Prop
  | .throw x _ => ThrowOfText x
  | _ => True

theorem mem_pending_record {fingerprint : Bytes} {proto : CapturedEvent Bytes} {t : ℤ} {agg : CountAggregator}
    {e : Bytes × CountAggregator.Entry} (he : e ∈ (agg.record fingerprint proto t).pending) :
    e ∈ agg.pending ∨ e.2.proto = proto := by
  unfold CountAggregator.record at he
  dsimp only at he
  split at he
  · rcases Assoc.mem_set he with he | rfl
    · exact .inl he
    · exact .inr rfl
  · split at he
    · exact .inl he
    · rcases Assoc.mem_set he with he | rfl
      · exact .inl he
      · exact .inr rfl

theorem mem_drain {force : Bool} {t : ℤ} {agg : CountAggregator} {e : Bytes × CountAggregator.Entry}
    (he : e ∈ (agg.drain force t).1 ∨ e ∈ (agg.drain force t).2.pending) : e ∈ agg.pending := by
  unfold CountAggregator.drain at he
  split at he <;> simpa using he

section Agent

variable {cfg : AgentConfig} {hash : Bytes → ℕ} {a a' : ExceptionHandler.State}

theorem AgentOfText.set (h : AgentOfText a) {i : ℕ} {c : ExceptionHandler.Call} (hc : CallOfText c) :
    ∀ c' ∈ a.calls.set i c, CallOfText c' := by
  intro c' hc'
  rcases List.mem_or_eq_of_mem_set hc' with hold | rfl
  · exact h.calls c' hold
  · exact hc

theorem AgentOfText.hand (h : AgentOfText a) {i : ℕ} {x : ExceptionHandler.Shipment} (hx : Sound x)
    {c : ExceptionHandler.Call} (hc : CallOfText c) :
    AgentOfText { ExceptionHandler.hand x a with calls := (ExceptionHandler.hand x a).calls.set i c } where
  handed := by
    intro y hy
    rcases List.mem_append.mp hy with hold | hnew
    · exact h.handed y hold
    · cases List.mem_singleton.mp hnew
      exact hx
  calls := h.set hc
  pending := h.pending
  suppressed := h.suppressed
  held := by
    intro text ht
    rcases mem_held_enqueue ht with hold | rfl
    · exact h.held text hold
    · exact ⟨x, hx, rfl⟩

theorem sound_summaries {ready : List (Bytes × CountAggregator.Entry)}
    (htext : ∀ e ∈ ready, EventOfText e.2.proto) (hmode : ∀ e ∈ ready, e.2.proto.mode = .COUNT_ONLY) :
    ∀ h ∈ ready.map fun e => ExceptionHandler.Shipment.event e.2.summary, Sound h := by
  intro h hh
  obtain ⟨e, he, rfl⟩ := List.mem_map.mp hh
  refine ⟨(htext e he).summary, fun hne => absurd ?_ hne⟩
  exact hmode e he

theorem AgentOfText.step {l : ExceptionHandler.Label} (hcfg : ConfigOfText cfg) (h : AgentOfText a)
    (hl : ThrowLabel l) (hs : ExceptionHandler.step cfg hash true a l = some a') : AgentOfText a' := by
  cases l with
  | throw x t =>
    cases hs
    refine ⟨h.handed, fun c hc => ?_, h.pending, h.suppressed, h.held⟩
    rcases List.mem_append.mp hc with hold | hnew
    · exact h.calls c hold
    · cases List.mem_singleton.mp hnew
      exact hl
  | vmDeath =>
    cases hs
    refine ⟨h.handed, fun c hc => ?_, h.pending, h.suppressed, h.held⟩
    rcases List.mem_append.mp hc with hold | hnew
    · exact h.calls c hold
    · cases List.mem_singleton.mp hnew
      trivial
  | advance i t =>
    simp only [ExceptionHandler.step] at hs
    split at hs
    · cases hs
    · rename_i c hc
      have hcall := h.calls c (List.mem_of_getElem? hc)
      obtain ⟨⟨c', u⟩, hadvance, rfl⟩ := Option.map_eq_some_iff.mp hs
      cases c with
      | decided x d =>
        simp only [ExceptionHandler.Call.advance] at hadvance
        split at hadvance
        · cases hadvance
          refine ⟨h.handed, h.set trivial, fun e he => ?_, h.suppressed.record x.fingerprint rfl t, h.held⟩
          rcases mem_pending_record he with hold | hnew
          · exact h.pending e hold
          · rw [hnew]
            exact hcall.countOnlyProto hcfg d.hitCount
        · cases hadvance
          exact ⟨h.handed, h.set (sound_shipments hcfg hcall), h.pending, h.suppressed, h.held⟩
      | handing rest =>
        cases rest with
        | nil =>
          cases hadvance
          exact ⟨h.handed, h.set trivial, h.pending, h.suppressed, h.held⟩
        | cons x rest =>
          cases hadvance
          exact h.hand (hcall x List.mem_cons_self) fun y hy => hcall y (List.mem_cons_of_mem x hy)
      | flushing force =>
        rw [ExceptionHandler.Call.advance, Option.some.injEq, Prod.mk.injEq] at hadvance
        obtain ⟨rfl, rfl⟩ := hadvance
        obtain ⟨hsound, hready⟩ := h.suppressed.drain force t
        refine ⟨h.handed, h.set ?_, fun e he => h.pending e (mem_drain (.inr he)), hsound, h.held⟩
        exact sound_summaries (fun e he => h.pending e (mem_drain (.inl he))) fun e he => (hready e he).2
      | shipping rest =>
        cases rest with
        | nil =>
          cases hadvance
          exact ⟨h.handed, h.set trivial, h.pending, h.suppressed, h.held⟩
        | cons x rest =>
          cases hadvance
          exact h.hand (hcall x List.mem_cons_self) fun y hy => hcall y (List.mem_cons_of_mem x hy)
      | done => cases hadvance
  | queue act =>
    have hkeep (henqueue : ∀ event, act ≠ .enqueue event)
        (hs : (AsyncQueue.step true a.queue act).map (fun queue => { a with queue := queue }) = some a') :
        AgentOfText a' := by
      obtain ⟨q, hq, rfl⟩ := Option.map_eq_some_iff.mp hs
      exact ⟨h.handed, h.calls, h.pending, h.suppressed, fun text ht => h.held text (mem_held_step henqueue hq ht)⟩
    cases act with
    | enqueue event => cases hs
    | start | publishDeadline | clearRunning | tick _ | popBatch | checkDeadline | answer _ | retry | requeueOrDrop
    | dropBatchAndQueue | finish => exact hkeep (fun event he => by cases he) hs

def handedTexts (a : ExceptionHandler.State) : List String := a.handed.map ExceptionHandler.Shipment.text

theorem hand_total (x : ExceptionHandler.Shipment) (a : ExceptionHandler.State) :
    total (handedTexts (ExceptionHandler.hand x a)) + total (held a.queue) =
      total (handedTexts a) + total (discards a.queue (.enqueue x.text)) +
        total (held (ExceptionHandler.hand x a).queue) := by
  have hqueue := enqueue_total x.text a.queue
  have hhanded : total (handedTexts (ExceptionHandler.hand x a)) = total (handedTexts a) + throwsOf x.text := by
    rw [handedTexts, ExceptionHandler.hand, List.map_append, total_append, List.map_singleton, total_cons, total_nil]
    rfl
  have hheld : held (ExceptionHandler.hand x a).queue = held (enqueue x.text a.queue) := rfl
  rw [hhanded, hheld]
  omega

theorem agent_total {l : ExceptionHandler.Label} (hok : l ≠ .queue (.answer .kOk))
    (hs : ExceptionHandler.step cfg hash true a l = some a') :
    total (handedTexts a') + total (held a.queue) =
      total (handedTexts a) + total (discardedBy a l) + total (held a'.queue) := by
  cases l with
  | throw x t | vmDeath =>
    cases hs
    simp [discardedBy, handedBy, handedTexts]
  | advance i t =>
    simp only [ExceptionHandler.step] at hs
    split at hs
    · cases hs
    · rename_i c hc
      obtain ⟨⟨c', u⟩, hadvance, rfl⟩ := Option.map_eq_some_iff.mp hs
      have one {x : ExceptionHandler.Shipment} (hx : handedBy a (.advance i t) = [x]) :
          discardedBy a (.advance i t) = discards a.queue (.enqueue x.text) := by
        simp [discardedBy, hx]
      have none (hx : handedBy a (.advance i t) = []) : discardedBy a (.advance i t) = [] := by
        simp [discardedBy, hx]
      cases c with
      | decided x d =>
        rw [none (by simp [handedBy, hc])]
        simp only [ExceptionHandler.Call.advance] at hadvance
        split at hadvance <;> cases hadvance <;> simp [handedTexts]
      | handing rest =>
        cases rest with
        | nil =>
          rw [none (by simp [handedBy, hc])]
          cases hadvance
          simp [handedTexts]
        | cons x rest =>
          rw [one (x := x) (by simp [handedBy, hc])]
          cases hadvance
          exact hand_total x a
      | flushing force =>
        rw [none (by simp [handedBy, hc])]
        rw [ExceptionHandler.Call.advance, Option.some.injEq, Prod.mk.injEq] at hadvance
        obtain ⟨rfl, rfl⟩ := hadvance
        simp [handedTexts]
      | shipping rest =>
        cases rest with
        | nil =>
          rw [none (by simp [handedBy, hc])]
          cases hadvance
          simp [handedTexts]
        | cons x rest =>
          rw [one (x := x) (by simp [handedBy, hc])]
          cases hadvance
          exact hand_total x a
      | done => cases hadvance
  | queue act =>
    have hkeep (henqueue : ∀ event, act ≠ .enqueue event)
        (hs : (AsyncQueue.step true a.queue act).map (fun queue => { a with queue := queue }) = some a') :
        total (handedTexts a') + total (held a.queue) =
          total (handedTexts a) + total (discardedBy a (.queue act)) + total (held a'.queue) := by
      obtain ⟨q, hq, rfl⟩ := Option.map_eq_some_iff.mp hs
      have hqueue := queue_step_total henqueue (fun h => hok (by rw [h])) hq
      simp only [discardedBy, handedTexts]
      omega
    cases act with
    | enqueue event => cases hs
    | start | publishDeadline | clearRunning | tick _ | popBatch | checkDeadline | answer _ | retry | requeueOrDrop
    | dropBatchAndQueue | finish => exact hkeep (fun event he => by cases he) hs

end Agent

/-! ### Whole runs -/

section Run

variable {who : Principal} {cfg : AgentConfig} {hash : Bytes → ℕ} {s s' : State}

structure Ledger (db : Db) (s : State) : Prop where
  agent : AgentOfText s.agent
  balanced : ExceptionHandler.Balanced s.agent
  texts : sumOcc s.db.exceptions.values + total s.lost + total (held s.agent.queue) =
    sumOcc db.exceptions.values + total s.repeated + total (handedTexts s.agent)

theorem post_cases {env : IngestEnv py} {heard : Bool} (h : post who env heard s = some s') :
    ∃ batch stopping attempt queue, s.agent.queue.worker = .sending batch stopping attempt ∧
      ((∃ f a, a ≠ .answer .kOk ∧ (∀ event, a ≠ .enqueue event) ∧
          AsyncQueue.step true s.agent.queue a = some queue ∧
          ingest env who (postBody batch.events) s.db = .error f ∧
          s' = { s with agent := { s.agent with queue := queue }, lost := s.lost ++ discards s.agent.queue a }) ∨
        (∃ acc, AsyncQueue.step true s.agent.queue (.answer .kOk) = some queue ∧
          ingest env who (postBody batch.events) s.db = .ok acc ∧
          s' = { s with
            agent := { s.agent with queue := queue }
            db := acc.db
            lost := s.lost ++ unstored acc batch.events }) ∨
        ∃ acc, AsyncQueue.step true s.agent.queue (.answer .kRetryable) = some queue ∧
          ingest env who (postBody batch.events) s.db = .ok acc ∧
          s' = { s with
            agent := { s.agent with queue := queue }
            db := acc.db
            repeated := s.repeated ++ stored acc batch.events }) := by
  unfold post at h
  split at h
  · rename_i batch stopping attempt hw
    dsimp only at h
    obtain ⟨queue, hqueue, rfl⟩ := Option.map_eq_some_iff.mp h
    refine ⟨batch, stopping, attempt, queue, hw, ?_⟩
    cases hingest : ingest env who (postBody batch.events) s.db with
    | error f =>
      rw [hingest] at hqueue
      refine .inl ⟨f, _, ?_, ?_, hqueue, rfl, rfl⟩
      · intro hanswer
        cases heard with
        | false => cases hanswer
        | true =>
          have hclass : classifyHttpStatus (ingestStatus (.error f)) = .kOk := by simpa using hanswer
          obtain ⟨acc, hacc⟩ := delivered_of_ok hclass fun f' hf' => by
            cases hf'
            unfold ingest at hingest
            cases hadmitted : admitted env who (postBody batch.events) with
            | error f' =>
              rw [hadmitted] at hingest
              cases hingest
              exact admit_error_status hadmitted
            | ok r =>
              rw [hadmitted] at hingest
              cases hingest
          cases hacc
      · intro event hevent
        cases hevent
    | ok acc =>
      have hok : classifyHttpStatus (ingestStatus (.ok acc)) = .kOk := by simp [ingestStatus, classifyHttpStatus]
      rw [hingest, hok] at hqueue
      cases heard with
      | true => exact .inr (.inl ⟨acc, hqueue, rfl, rfl⟩)
      | false => exact .inr (.inr ⟨acc, hqueue, rfl, rfl⟩)
  · cases h

theorem Ledger.post {db : Db} {env : IngestEnv py} {heard : Bool} (hint : ∀ n, py.laxInt (.int n) = some n)
    (hbool : ∀ b, py.laxBool (.bool b) = some b) (hl : Ledger db s) (h : post who env heard s = some s') :
    Ledger db s' := by
  obtain ⟨batch, stopping, attempt, queue, hw, hcases⟩ := post_cases h
  have hheld : held s.agent.queue = batch.events ++ s.agent.queue.queue := by rw [held, hw, Worker.inHand]
  have htexts := hl.texts
  have agent {a : Action} (henqueue : ∀ event, a ≠ .enqueue event)
      (hq : AsyncQueue.step true s.agent.queue a = some queue) :
      AgentOfText { s.agent with queue := queue } ∧ ExceptionHandler.Balanced { s.agent with queue := queue } := by
    have ha := hl.agent
    have hb := hl.balanced
    refine ⟨⟨ha.handed, ha.calls, ha.pending, ha.suppressed, fun text ht => ?_⟩, hb.throws, hb.aggregator, ?_⟩
    · exact ha.held text (mem_held_step henqueue hq ht)
    · have hoffered := ExceptionHandler.offered_step henqueue hq
      exact hoffered.trans hb.offered
  have hlegible : ∀ text ∈ batch.events, ∃ d, Legible py text d := by
    intro text ht
    obtain ⟨x, hx, rfl⟩ := hl.agent.held text (by rw [hheld]; exact List.mem_append_left _ ht)
    exact hx.legible hint hbool
  rcases hcases with ⟨f, a, hok, henqueue, hq, -, rfl⟩ | ⟨acc, hq, hingest, rfl⟩ | ⟨acc, hq, hingest, rfl⟩
  · obtain ⟨hagent, hbalanced⟩ := agent henqueue hq
    refine ⟨hagent, hbalanced, ?_⟩
    have htotal := queue_step_total henqueue hok hq
    simp only [total_append, handedTexts, Nat.cast_add] at htexts ⊢
    omega
  · have henqueue : ∀ event, Action.answer .kOk ≠ .enqueue event := fun event he => by cases he
    obtain ⟨hagent, hbalanced⟩ := agent henqueue hq
    refine ⟨hagent, hbalanced, ?_⟩
    have hrows := ingest_stored hlegible hingest
    have hsplit := total_stored acc batch.events
    have hafter : held queue = s.agent.queue.queue := by
      simp only [AsyncQueue.step, answer, hw, Option.some.injEq] at hq
      rw [← hq]
      rfl
    simp only [total_append, handedTexts, hheld, hafter, hrows, Nat.cast_add] at htexts ⊢
    omega
  · have henqueue : ∀ event, Action.answer .kRetryable ≠ .enqueue event := fun event he => by cases he
    obtain ⟨hagent, hbalanced⟩ := agent henqueue hq
    refine ⟨hagent, hbalanced, ?_⟩
    have hrows := ingest_stored hlegible hingest
    have hafter : held queue = held s.agent.queue := by
      simp only [AsyncQueue.step, answer, hw, Option.some.injEq] at hq
      rw [← hq, held, held, hw]
      rfl
    simp only [total_append, handedTexts, hafter, hrows, Nat.cast_add] at htexts ⊢
    omega

theorem post_sending {batch : Batch} {stopping : Bool} {attempt : ℕ}
    (hw : s.agent.queue.worker = .sending batch stopping attempt) (env : IngestEnv py) (heard : Bool) :
    ∃ s', post who env heard s = some s' := by
  have answered (r : SendResult) : ∃ queue, AsyncQueue.step true s.agent.queue (.answer r) = some queue := by
    rw [AsyncQueue.step, answer, hw]
    cases r with
    | kOk | kPermanent | kRetryable => exact ⟨_, rfl⟩
  unfold post
  rw [hw]
  dsimp only
  obtain ⟨queue, hqueue⟩ := answered
    (if heard then classifyHttpStatus (ingestStatus (ingest env who (postBody batch.events) s.db)) else .kRetryable)
  rw [hqueue]
  exact ⟨_, rfl⟩

def OfTextLabel : Label py → Prop
  | .agent l => ThrowLabel l
  | .post _ _ => True

theorem Ledger.step {db : Db} {l : Label py} (hint : ∀ n, py.laxInt (.int n) = some n)
    (hbool : ∀ b, py.laxBool (.bool b) = some b) (hcfg : ConfigOfText cfg) (hl : Ledger db s) (hlabel : OfTextLabel l)
    (h : step who cfg hash s l = some s') : Ledger db s' := by
  cases l with
  | post env heard => exact hl.post hint hbool h
  | agent l =>
    have hagent (hok : l ≠ .queue (.answer .kOk)) : Ledger db s' := by
      have hstep : (ExceptionHandler.step cfg hash true s.agent l).map (fun agent =>
          { s with agent := agent, lost := s.lost ++ discardedBy s.agent l }) = some s' := by
        rw [← h]
        cases l with
        | queue a =>
          cases a with
          | answer r =>
            cases r with
            | kOk => exact absurd rfl hok
            | kRetryable | kPermanent => rfl
          | _ => rfl
        | _ => rfl
      obtain ⟨a, ha, rfl⟩ := Option.map_eq_some_iff.mp hstep
      refine ⟨hl.agent.step hcfg hlabel ha, hl.balanced.step ha, ?_⟩
      have htotal := agent_total hok ha
      have htexts := hl.texts
      simp only [total_append, Nat.cast_add]
      omega
    by_cases hok : l = .queue (.answer .kOk)
    · rw [hok] at h
      cases h
    · exact hagent hok

theorem total_handed {hs : List ExceptionHandler.Shipment} (h : ∀ x ∈ hs, Sound x) :
    total (hs.map ExceptionHandler.Shipment.text) = ExceptionHandler.captures hs + ExceptionHandler.summarized hs := by
  induction hs with
  | nil => rfl
  | cons x hs ih =>
    have hx := (h x List.mem_cons_self).throwsOf
    have hrest := ih fun y hy => h y (List.mem_cons_of_mem x hy)
    rw [List.map_cons, total_cons, hx, hrest, ExceptionHandler.captures_cons, ExceptionHandler.summarized_cons]
    omega

/-- The occurrences that the collector stores, over any run of the agent and the network, are the agent's throws:
less what it still has or gave up, and again what was stored without its knowing. -/
theorem throws_stored {db : Db} {ls : List (Label py)} (hint : ∀ n, py.laxInt (.int n) = some n)
    (hbool : ∀ b, py.laxBool (.bool b) = some b) (hcfg : ConfigOfText cfg) (hls : ∀ l ∈ ls, OfTextLabel l)
    (hr : run (step who cfg hash) (start db) ls = some s) :
    sumOcc s.db.exceptions.values + total s.lost + total (held s.agent.queue) + s.agent.aggregator.pendingCount +
        s.agent.aggregator.overflowDropped + ExceptionHandler.carried s.agent.calls =
      sumOcc db.exceptions.values + total s.repeated + s.agent.processed := by
  have hstart : Ledger db (start db) := by
    refine ⟨⟨fun x hx => ?_, fun c hc => ?_, fun e he => ?_, ?_, fun text ht => ?_⟩, ⟨rfl, ?_, rfl⟩, rfl⟩
    · cases hx
    · cases hc
    · cases he
    · exact ⟨fun e he => (by cases he), fun e he => (by cases he), Nat.zero_le _⟩
    · cases ht
    · exact ⟨fun e he => (by cases he), fun e he => (by cases he), Nat.zero_le _⟩
  have hledger : Ledger db s := by
    apply run_invariant (fun t l hl u ht hu => ?_) hstart hr
    exact ht.step hint hbool hcfg (hls l hl) hu
  have htexts := hledger.texts
  have hthrows := hledger.balanced.throws
  rw [handedTexts, total_handed hledger.agent.handed] at htexts
  omega

end Run

def plainThrow : ExceptionHandler.Throw where
  fingerprint := Utf16.modifiedUtf8 "f1"
  timestamp := []
  exceptionType := Utf16.modifiedUtf8 "E"
  caught := false
  location := ExceptionHandler.noLocation
  exceptionMessage := []
  caughtAt := ExceptionHandler.noLocation
  thread := ⟨[], 5, false⟩
  causeChain := []
  suppressed := []
  metrics := ExceptionHandler.noMetrics
  stack := []
  unshippedClasses := []

theorem plainThrow_ofText : ThrowOfText plainThrow where
  fingerprint := ⟨"f1", rfl⟩
  timestamp := ofText_nil
  exceptionType := ⟨"E", rfl⟩
  location := ⟨⟨"", "", -1, "", false⟩, rfl⟩
  exceptionMessage := ofText_nil
  caughtAt := ⟨⟨"", "", -1, "", false⟩, rfl⟩
  thread := ⟨⟨"", 5, false⟩, rfl⟩
  causeChain := ⟨[], rfl⟩
  suppressed := ⟨[], rfl⟩
  stack := ⟨[], rfl⟩
  unshippedClasses c hc := by cases hc

def openEnv : IngestEnv Python.literal := { lockedEnv with faults := .none }

def untilSent : List (Label Python.literal) :=
  [.agent (.throw plainThrow 1), .agent (.advance 0 1), .agent (.advance 0 1), .agent (.queue .start),
    .agent (.queue .popBatch), .agent (.queue .checkDeadline)]

theorem throws_stored_one_posted :
    ∃ s, run (step acme.principal sampleConfig (fun _ => 0)) (start .empty) (untilSent ++ [.post openEnv true]) = some s ∧
      sumOcc s.db.exceptions.values + total s.lost + total (held s.agent.queue) + s.agent.aggregator.pendingCount +
        s.agent.aggregator.overflowDropped + ExceptionHandler.carried s.agent.calls =
      sumOcc Db.empty.exceptions.values + total s.repeated + s.agent.processed := by
  obtain ⟨s₁, hsent, batch, stopping, attempt, hw⟩ :
      ∃ s₁, run (step acme.principal sampleConfig (fun _ => 0)) (start .empty) untilSent = some s₁ ∧
        ∃ batch stopping attempt, s₁.agent.queue.worker = .sending batch stopping attempt :=
    ⟨_, rfl, _, _, _, rfl⟩
  obtain ⟨s, hs⟩ : ∃ s, step acme.principal sampleConfig (fun _ => 0) s₁ (.post openEnv true) = some s :=
    post_sending hw openEnv true
  have hrun : run (step acme.principal sampleConfig fun _ => 0) (start .empty) (untilSent ++ [.post openEnv true]) =
      some s := run_append.mpr ⟨s₁, hsent, run_cons.mpr ⟨s, hs, rfl⟩⟩
  refine ⟨s, hrun, throws_stored (fun _ => rfl) (fun _ => rfl) ⟨ofText_nil, ofText_nil, ofText_nil⟩ ?_ hrun⟩
  intro l hl
  simp only [untilSent, List.cons_append, List.nil_append, List.mem_cons, List.not_mem_nil, or_false] at hl
  rcases hl with rfl | rfl | rfl | rfl | rfl | rfl | rfl
  · exact plainThrow_ofText
  all_goals trivial

end JvmScout.Wire.Pipeline
