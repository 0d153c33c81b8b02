import JvmScout.Collector.Storage
import JvmScout.Lib.AssocKeys
import JvmScout.Lib.IsoTime
import JvmScout.Lib.Runs

namespace JvmScout.Storage

open Models Relational Runs IsoTime

def daysBack (days now : ℕ) : Except PyError ℕ :=
  if (306 + days) * 86400 ≤ now + epoch then .ok (now + epoch - days * 86400) else .error .overflowError

def purgeOldRecords (retentionDays now : ℕ) (db : Db) : Except PyError (Db × ℕ) := do
  let cutoff ← daysBack retentionDays now
  let instanceCutoff ← daysBack (2 * retentionDays) now
  let old (row : ExceptionRow) : Bool := decide (Python.isoFormat row.receivedAt < isoText cutoff)
  let stale (row : JvmInstanceRow) : Bool := decide (Python.isoFormat row.receivedAt < isoText instanceCutoff)
  return ({ db with
    exceptions := db.exceptions.delete old
    jvmInstances := db.jvmInstances.delete stale }, db.exceptions.count old)

/-- `lastStart` and `lastEvent` keep, for each instance id, the time of the last accepted
`agent_start` and of the last stored event that names it. -/
structure Collected where
  db : Db
  clock : ℕ
  lastStart : List (String × ℕ)
  lastEvent : List (String × ℕ)

def Collected.start : Collected := ⟨Db.empty, 0, [], []⟩

inductive StoreCall where
  | tick (d : ℕ)
  | exceptions (events : List (ExceptionEvent × Dict)) (projectId : Option String)
  | agentStart (ev : AgentStartEvent) (raw : Dict) (projectId : Option String)
  | purge

def storeStep (backend : Backend) (retentionDays : ℕ) (s : Collected) : StoreCall → Option Collected
  | .tick d => some { s with clock := s.clock + d }
  | .exceptions events projectId =>
    match storeExceptions backend s.clock events projectId s.db with
    | .ok (db, _) =>
      some { s with db := db, lastEvent := Assoc.setAll s.lastEvent (instanceIds events) s.clock }
    | .error _ => some s
  | .agentStart ev raw projectId =>
    match storeAgentStart s.clock ev raw projectId s.db with
    | .ok db => some { s with db := db, lastStart := Assoc.set s.lastStart (ev.instanceId.getD "") s.clock }
    | .error _ => some s
  | .purge =>
    match purgeOldRecords retentionDays s.clock s.db with
    | .ok (db, _) => some { s with db := db }
    | .error _ => some s

def FourDigitYears (retentionDays now : ℕ) : Prop :=
  1000 ≤ yearOf (now + epoch - 2 * retentionDays * 86400) ∧ yearOf (now + epoch) ≤ 9999

section Purge

variable {retentionDays now : ℕ}

theorem daysBack_ok {days : ℕ} (hyears : FourDigitYears retentionDays now) (hdays : days ≤ 2 * retentionDays) :
    daysBack days now = .ok (now + epoch - days * 86400) := by
  rw [daysBack, if_pos]
  by_contra hearly
  have hfirst : yearOf (306 * 86400) = 1 := by decide +kernel
  have hmono : yearOf (now + epoch - 2 * retentionDays * 86400) ≤ yearOf (306 * 86400) := by
    apply yearOf_mono
    omega
  have hyear := hyears.1
  omega

theorem isoFormat_lt_cutoff {received days : ℕ} (hyears : FourDigitYears retentionDays now)
    (hdays : days ≤ 2 * retentionDays) (hpast : received ≤ now) :
    Python.isoFormat received < isoText (now + epoch - days * 86400) ↔ received + days * 86400 < now := by
  have hlate := hyears.2
  have hreceived : yearOf (received + epoch) ≤ yearOf (now + epoch) := yearOf_mono (by omega)
  have hcutoff : yearOf (now + epoch - days * 86400) ≤ yearOf (now + epoch) := yearOf_mono (by omega)
  rw [isoFormat_eq, isoText_lt_iff (by omega) (by omega)]
  have hback := daysBack_ok hyears hdays
  unfold daysBack at hback
  split at hback
  · omega
  · cases hback

end Purge

theorem mem_touch {now : ℕ} {ids : List String} {t : UniqueTable JvmInstanceRow JvmInstanceRow.instanceId}
    {r : ℕ × JvmInstanceRow} (hr : r ∈ (touch now ids t).rows) :
    ∃ w, (r.1, w) ∈ t.rows ∧ r.2.instanceId = w.instanceId ∧ r.2.rawJson = w.rawJson ∧
      r.2.receivedAt = if w.instanceId ∈ ids then now else w.receivedAt := by
  obtain ⟨w, hw, hrow⟩ := (Table.mem_update _).mp hr
  refine ⟨w, hw, ?_⟩
  rw [hrow]
  by_cases hnamed : w.instanceId ∈ ids <;> simp [hnamed]

theorem mem_agentStarted {now : ℕ} {ev : AgentStartEvent} {raw : Dict} {projectId : Option String} {db db' : Db}
    (hs : storeAgentStart now ev raw projectId db = .ok db') {r : ℕ × JvmInstanceRow}
    (hr : r ∈ db'.jvmInstances.rows) :
    (r.2.instanceId = ev.instanceId.getD "" ∧ r.2.rawJson = raw ∧ r.2.receivedAt = now) ∨
      (ev.instanceId.getD "" ≠ r.2.instanceId ∧ r ∈ db.jvmInstances.rows) := by
  obtain ⟨t, rfl, hcase⟩ := storeAgentStart_cases hs
  rcases hcase with ⟨_, -, rfl⟩ | ⟨hnone, ht⟩
  · obtain ⟨w, hw, hrow⟩ := (Table.mem_update _).mp hr
    by_cases hid : w.instanceId = ev.instanceId.getD ""
    · rw [if_pos (by simp [hid])] at hrow
      rw [hrow]
      exact .inl ⟨hid, rfl, rfl⟩
    · rw [if_neg (by simpa using hid)] at hrow
      rw [← hrow] at hw
      refine .inr ⟨?_, hw⟩
      rw [hrow]
      exact Ne.symm hid
  · change r ∈ t.toTable.rows at hr
    rw [ht] at hr
    rcases Table.mem_rows_insert.mp hr with hold | hnew
    · refine .inr ⟨fun heq => ?_, hold⟩
      have hfree := List.find?_eq_none.mp hnone r hold
      simp [heq] at hfree
    · rw [hnew]
      exact .inl ⟨rfl, rfl, rfl⟩

def lastSeen (s : Collected) (instanceId : String) : Option ℕ :=
  (Assoc.get? s.lastStart instanceId).map fun started =>
    max started ((Assoc.get? s.lastEvent instanceId).getD 0)

structure Dated (s : Collected) : Prop where
  exceptions : ∀ r ∈ s.db.exceptions.rows, r.2.receivedAt ≤ s.clock
  starts : ∀ instanceId t, Assoc.get? s.lastStart instanceId = some t → t ≤ s.clock
  events : ∀ instanceId t, Assoc.get? s.lastEvent instanceId = some t → t ≤ s.clock
  instances : ∀ r ∈ s.db.jvmInstances.rows, r.2.instanceId ≠ "" →
    lastSeen s r.2.instanceId = some r.2.receivedAt

section Steps

variable {backend : Backend} {retentionDays : ℕ} {s s' : Collected}

theorem Dated.event_le (h : Dated s) (instanceId : String) :
    (Assoc.get? s.lastEvent instanceId).getD 0 ≤ s.clock := by
  cases he : Assoc.get? s.lastEvent instanceId with
  | none => exact Nat.zero_le _
  | some t => exact h.events instanceId t he

theorem Dated.tick (h : Dated s) (d : ℕ) : Dated { s with clock := s.clock + d } := by
  refine ⟨fun r hr => ?_, fun id t ht => ?_, fun id t ht => ?_, h.instances⟩
  · exact (h.exceptions r hr).trans (Nat.le_add_right _ _)
  · exact (h.starts id t ht).trans (Nat.le_add_right _ _)
  · exact (h.events id t ht).trans (Nat.le_add_right _ _)

theorem Dated.exceptionsStored {events : List (ExceptionEvent × Dict)} {projectId : Option String}
    {db : Db} {ids : List ℕ} (h : Dated s)
    (hs : storeExceptions backend s.clock events projectId s.db = .ok (db, ids)) :
    Dated { s with db := db, lastEvent := Assoc.setAll s.lastEvent (instanceIds events) s.clock } := by
  have hadded : (addExceptions s.clock events projectId s.db).1 = db := by
    rw [(storeExceptions_ok.mp hs).2]
  subst hadded
  refine ⟨fun r hr => ?_, h.starts, fun id t ht => ?_, fun r hr hne => ?_⟩
  · obtain ⟨added, hrows, hvalues⟩ := s.db.exceptions.rows_insertAll
      (events.map fun e => exceptionRow s.clock e.1 e.2 projectId)
    simp only [addExceptions, hrows] at hr
    rcases List.mem_append.mp hr with hr | hr
    · exact h.exceptions r hr
    · have hvalue : r.2 ∈ added.map Prod.snd := List.mem_map_of_mem hr
      rw [hvalues] at hvalue
      obtain ⟨e, -, he⟩ := List.mem_map.mp hvalue
      rw [← he]
      exact le_rfl
  · rw [Assoc.get?_setAll] at ht
    split at ht
    · cases ht
      exact le_rfl
    · exact h.events id t ht
  · obtain ⟨w, hw, hid, -, hreceived⟩ := mem_touch hr
    have hseen := h.instances (r.1, w) hw (hid ▸ hne)
    obtain ⟨started, hstarted, hmax⟩ := Option.map_eq_some_iff.mp hseen
    have hpast : started ≤ s.clock := h.starts w.instanceId started hstarted
    dsimp only at hstarted hmax
    rw [hid, hreceived, lastSeen, hstarted, Option.map_some, Assoc.get?_setAll]
    split
    · rw [Option.getD_some, Nat.max_eq_right hpast]
    · rw [hmax]

theorem Dated.agentStarted {ev : AgentStartEvent} {raw : Dict} {projectId : Option String} {db : Db}
    (h : Dated s) (hs : storeAgentStart s.clock ev raw projectId s.db = .ok db) :
    Dated { s with db := db, lastStart := Assoc.set s.lastStart (ev.instanceId.getD "") s.clock } := by
  refine ⟨fun r hr => ?_, fun id a ha => ?_, h.events, fun r hr hne => ?_⟩
  · obtain ⟨t, rfl, -⟩ := storeAgentStart_cases hs
    exact h.exceptions r hr
  · rw [Assoc.get?_set] at ha
    split at ha
    · cases ha
      exact le_rfl
    · exact h.starts id a ha
  · obtain ⟨hid, -, hreceived⟩ | ⟨hid, hold⟩ := mem_agentStarted hs hr
    · rw [hid, hreceived, lastSeen, Assoc.get?_set_self, Option.map_some, Nat.max_eq_left (h.event_le _)]
    · rw [lastSeen, Assoc.get?_set_ne _ _ hid]
      exact h.instances r hold hne

theorem Dated.purged {db : Db} {count : ℕ} (h : Dated s)
    (hs : purgeOldRecords retentionDays s.clock s.db = .ok (db, count)) : Dated { s with db := db } := by
  simp only [purgeOldRecords, Traverse.bind_eq_ok, Traverse.pure_eq_ok] at hs
  obtain ⟨cutoff, -, instanceCutoff, -, hs⟩ := hs
  cases hs
  refine ⟨fun r hr => ?_, h.starts, h.events, fun r hr => ?_⟩
  · exact h.exceptions r (List.mem_filter.mp hr).1
  · exact h.instances r (List.mem_filter.mp hr).1

theorem Dated.step {call : StoreCall} (h : Dated s) (hs : storeStep backend retentionDays s call = some s') :
    Dated s' := by
  cases call with
  | tick d =>
    cases hs
    exact h.tick d
  | exceptions events projectId =>
    simp only [storeStep] at hs
    split at hs <;> cases hs
    · rename_i hstored
      exact h.exceptionsStored hstored
    · exact h
  | agentStart ev raw projectId =>
    simp only [storeStep] at hs
    split at hs <;> cases hs
    · rename_i hstored
      exact h.agentStarted hstored
    · exact h
  | purge =>
    simp only [storeStep] at hs
    split at hs <;> cases hs
    · rename_i hpurged
      exact h.purged hpurged
    · exact h

theorem dated_start : Dated .start := by
  refine ⟨fun r hr => ?_, fun id t ht => ?_, fun id t ht => ?_, fun r hr => ?_⟩
  · cases hr
  · cases ht
  · cases ht
  · cases hr

end Steps

theorem stale_iff {s : Collected} {retentionDays : ℕ} (hdated : Dated s)
    (hyears : FourDigitYears retentionDays s.clock) {r : ℕ × JvmInstanceRow}
    (hmem : r ∈ s.db.jvmInstances.rows) (hne : r.2.instanceId ≠ "") :
    ∃ started, Assoc.get? s.lastStart r.2.instanceId = some started ∧
      (Python.isoFormat r.2.receivedAt < isoText (s.clock + epoch - 2 * retentionDays * 86400) ↔
        started + 2 * retentionDays * 86400 < s.clock ∧
          ∀ t, Assoc.get? s.lastEvent r.2.instanceId = some t → t + 2 * retentionDays * 86400 < s.clock) := by
  obtain ⟨started, hstarted, hmax⟩ := Option.map_eq_some_iff.mp (hdated.instances r hmem hne)
  have hpast : r.2.receivedAt ≤ s.clock := by
    rw [← hmax]
    exact Nat.max_le.mpr ⟨hdated.starts _ _ hstarted, hdated.event_le _⟩
  refine ⟨started, hstarted, ?_⟩
  rw [isoFormat_lt_cutoff hyears (Nat.le_refl _) hpast]
  cases hevent : Assoc.get? s.lastEvent r.2.instanceId with
  | none =>
    rw [hevent, Option.getD_none, Nat.max_zero] at hmax
    simp [hmax]
  | some t =>
    rw [hevent, Option.getD_some] at hmax
    simp only [Option.some.injEq, forall_eq']
    omega

/-- Of the rows that a purge finds it leaves those of the retention window, counts the others,
and evicts an instance when twice the window has passed it by on both write paths. -/
theorem purge_exact {backend : Backend} {retentionDays : ℕ} {calls : List StoreCall} {s : Collected}
    (hr : run (storeStep backend retentionDays) .start calls = some s)
    (hyears : FourDigitYears retentionDays s.clock) :
    ∃ db purged, purgeOldRecords retentionDays s.clock s.db = .ok (db, purged) ∧
      db.exceptions.rows = s.db.exceptions.rows.filter
        (fun r => decide (s.clock ≤ r.2.receivedAt + retentionDays * 86400)) ∧
      purged + db.exceptions.rows.length = s.db.exceptions.rows.length ∧
      db.jvmInstances.rows.Sublist s.db.jvmInstances.rows ∧
      ∀ r ∈ s.db.jvmInstances.rows, r.2.instanceId ≠ "" →
        ∃ started, Assoc.get? s.lastStart r.2.instanceId = some started ∧
          (r ∉ db.jvmInstances.rows ↔ started + 2 * retentionDays * 86400 < s.clock ∧
            ∀ t, Assoc.get? s.lastEvent r.2.instanceId = some t → t + 2 * retentionDays * 86400 < s.clock) := by
  have hdated : Dated s := run_invariant (fun _ _ _ _ h hs => h.step hs) dated_start hr
  have hwindow : retentionDays ≤ 2 * retentionDays := by omega
  have hcutoff := daysBack_ok hyears hwindow
  have hinstances := daysBack_ok hyears (Nat.le_refl (2 * retentionDays))
  refine ⟨_, _, by simp only [purgeOldRecords, hcutoff, hinstances]; rfl, ?_, ?_, List.filter_sublist, ?_⟩
  · apply List.filter_congr
    intro r hmem
    have horder := isoFormat_lt_cutoff hyears hwindow (hdated.exceptions r hmem)
    dsimp only
    rw [← decide_not, decide_eq_decide, horder, Nat.not_lt]
  · rw [Table.count, Table.select]
    exact (List.length_eq_length_filter_add _).symm
  · intro r hmem hne
    obtain ⟨started, hstarted, hstale⟩ := stale_iff hdated hyears hmem hne
    refine ⟨started, hstarted, ?_⟩
    rw [← hstale]
    change r ∉ List.filter _ _ ↔ _
    simp [List.mem_filter, hmem]

def registered (instanceId : String) : AgentStartEvent where
  type := "agent_start"
  timestamp := none
  instanceId := some instanceId
  deploymentId := none
  environment := none
  jvmInfo := none
  hostInfo := none
  jvmArgs := []
  classpath := none
  envVars := []
  systemProperties := []
  agentConfig := []

def thrown (instanceId : String) : ExceptionEvent where
  timestamp := none
  fingerprint := "f1"
  captureMode := none
  hitCount := 1
  occurrences := 1
  deploymentId := none
  environment := none
  instanceId := some instanceId
  exceptionType := none
  exceptionMessage := none
  caught := none
  location := none
  caughtAt := none
  threadInfo := none
  causeChain := []
  suppressedExceptions := []
  jvmMetrics := none
  stackTrace := []

def threeDays : List StoreCall :=
  [.agentStart (registered "i1") [] none, .agentStart (registered "i2") [] none, .tick 43200,
    .exceptions [(thrown "i1", [])] none, .tick 172800, .exceptions [(thrown "i1", [])] none]

theorem purge_exact_three_days : ∃ s, run (storeStep .sqlite 1) .start threeDays = some s ∧
    ∃ db purged, purgeOldRecords 1 s.clock s.db = .ok (db, purged) ∧
      purged + db.exceptions.rows.length = 2 ∧
      db.exceptions.rows = s.db.exceptions.rows.filter (fun r => decide (s.clock ≤ r.2.receivedAt + 1 * 86400)) ∧
      ∀ r ∈ s.db.jvmInstances.rows, r.2.instanceId = "i2" → r ∉ db.jvmInstances.rows := by
  have hend : (run (storeStep .sqlite 1) .start threeDays).map (fun s => (s.clock,
      s.db.exceptions.rows.length, Assoc.get? s.lastStart "i2", Assoc.get? s.lastEvent "i2")) =
      some (216000, 2, some 0, none) := by
    decide +kernel
  obtain ⟨s, hs, heq⟩ := Option.map_eq_some_iff.mp hend
  simp only [Prod.mk.injEq] at heq
  obtain ⟨hclock, hcount, hstart, hevent⟩ := heq
  have hyears : FourDigitYears 1 s.clock := by
    rw [hclock]
    unfold FourDigitYears
    decide +kernel
  obtain ⟨db, purged, hpurge, hleft, hremoved, -, hinstances⟩ := purge_exact hs hyears
  refine ⟨s, hs, db, purged, hpurge, by rw [hremoved, hcount], hleft, fun r hr hid => ?_⟩
  obtain ⟨started, hstarted, hiff⟩ := hinstances r hr (by rw [hid]; decide)
  rw [hid, hstart] at hstarted
  cases hstarted
  apply hiff.mpr
  rw [hid, hevent, hclock]
  exact ⟨by decide, fun t ht => by cases ht⟩

end JvmScout.Storage
