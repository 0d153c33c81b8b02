import JvmScout.Collector.AlertRules
import JvmScout.Collector.IngestBatch
import JvmScout.Lib.Runs

/-!
Ingest requests and the alert worker on one event loop. A request commits its batch
and then queues the events one by one; the worker takes an event, is suspended, and
counts the rows that are there when it resumes. The queue never overflows here.
-/

namespace JvmScout.Alerts

open Models Storage Routes Relational Runs

variable {py : Python}

abbrev Scheduled := Dict × Option String

structure Worker where
  db : Db
  scheduling : List (List Scheduled)
  queue : List Scheduled
  current : Option Scheduled
  evaluated : List Scheduled
  delivered : List (ℕ × Dict)

def Worker.start (db : Db) : Worker := ⟨db, [], [], none, [], []⟩

inductive Label (py : Python) where
  | ingest (ing : Ingestion py) (items : List Json)
  | schedule (i : ℕ)
  | take
  | evaluate (clock : ℚ)

section Step

def commitBatch (ing : Ingestion py) (items : List Json) (s : Worker) : Worker :=
  let acc := ingestItems ing items s.db
  { s with
    db := acc.db
    scheduling := s.scheduling ++ [acc.scheduled.map fun raw => (raw, ing.projectId)] }

def scheduleEvaluation (i : ℕ) (s : Worker) : Option Worker :=
  match s.scheduling[i]? with
  | some (e :: rest) => some { s with scheduling := s.scheduling.set i rest, queue := s.queue ++ [e] }
  | _ => none

def takeNext (s : Worker) : Option Worker :=
  match s.current, s.queue with
  | none, e :: rest => some { s with queue := rest, current := some e }
  | _, _ => none

variable (py) (backend : Backend) (net : Network)

def evaluateCurrent (clock : ℚ) (s : Worker) : Option Worker :=
  match s.current with
  | some (ev, projectId) =>
    let out := evaluateEvent py backend clock net ev projectId s.db
    some { s with
      db := out.1
      current := none
      evaluated := s.evaluated ++ [(ev, projectId)]
      delivered := s.delivered ++ out.2 }
  | none => none

def step (s : Worker) : Label py → Option Worker
  | .ingest ing items => some (commitBatch ing items s)
  | .schedule i => scheduleEvaluation i s
  | .take => takeNext s
  | .evaluate clock => evaluateCurrent py backend net clock s

end Step

def Worker.pending (s : Worker) : List Scheduled := s.scheduling.flatten ++ s.queue ++ s.current.toList

def Quiescent (s : Worker) : Prop := s.pending = []

def ownClause (t : Option String) (fp : String) (row : ExceptionRow) : Bool :=
  row.fingerprint == fp && owned ExceptionRow.projectId t row

def ownRows (t : Option String) (fp : String) (db : Db) : ℕ := db.exceptions.count (ownClause t fp)

def concerns (py : Python) (t : Option String) (fp : String) (e : Scheduled) : Bool :=
  e.2 == t && eventFingerprint py e.1 == fp

def evaluations (py : Python) (t : Option String) (fp : String) (s : Worker) : ℕ :=
  s.evaluated.countP (concerns py t fp)

def awaiting (py : Python) (t : Option String) (fp : String) (s : Worker) : ℕ :=
  s.pending.countP (concerns py t fp)

def inBatch (fp : String) (events : List (ExceptionEvent × Dict)) : ℕ :=
  events.countP fun e => e.1.fingerprint == fp

def ExactlyOnce (k : ℕ) (t : Option String) (s : Worker) : Prop :=
  ∀ r ∈ s.db.exceptions.rows, r.2.projectId = t → r.2.fingerprint ≠ "" →
    deliveries k r.2.fingerprint s.delivered = 1

def Covers (rule : Dict) (t : Option String) : Label py → Prop
  | .ingest ing items =>
    ing.projectId = t → ∀ e ∈ committedEvents ing items, matchesScope rule e.2 = true
  | _ => True

/-- A batch commits no second row of a fingerprint of the tenant before a first event of
it has been evaluated. For the tenant `NULL` the rows of every project count. -/
def KeepsFirst (py : Python) (t : Option String) (s : Worker) : Label py → Prop
  | .ingest ing items => ∀ fp, fp ≠ "" → 0 < inBatch fp (committedEvents ing items) →
      0 < evaluations py t fp s ∨
        (ing.projectId = t ∧ fingerprintRowCount fp t s.db = 0 ∧
          inBatch fp (committedEvents ing items) = 1) ∨
        (ing.projectId ≠ t ∧ (t = none → ownRows t fp s.db = 0))
  | _ => True

theorem ownRows_le (t : Option String) (fp : String) (db : Db) :
    ownRows t fp db ≤ fingerprintRowCount fp t db := by
  rw [ownRows, fingerprintRowCount, Table.count_eq_countP, Table.count_eq_countP]
  apply List.countP_mono_left
  intro row _ h
  simp only [ownClause, Bool.and_eq_true] at h
  simp only [fingerprintClause, inScope, applyProject, h.1, h.2, Bool.or_true, Bool.and_self]

section Ingest

variable (t : Option String) (fp : String) (ing : Ingestion py) (items : List Json) (s : Worker)

variable {ing items} in
theorem committed_fingerprint {e : ExceptionEvent × Dict} (he : e ∈ committedEvents ing items) :
    eventFingerprint py e.2 = e.1.fingerprint := by
  obtain ⟨item, -, hread⟩ := mem_committedEvents he
  obtain ⟨raw, -, -, -, -, hvalid⟩ := readItem_exception hread
  have hfield := (ExceptionEvent.validate_fields hvalid).2.2
  rw [eventFingerprint, Dict.get]
  cases hg : Dict.get? e.2 "fingerprint" with
  | none =>
    rw [hg] at hfield
    simpa [withDefault, coerceFingerprint] using hfield
  | some v =>
    rw [hg] at hfield
    simpa [withDefault] using hfield

theorem commitBatch_ownRows : ownRows t fp (commitBatch ing items s).db =
    ownRows t fp s.db + if ing.projectId = t then inBatch fp (committedEvents ing items) else 0 := by
  have hrows := (ingestItems_committed ing items s.db).1
  rw [ownRows, commitBatch, hrows, Table.count_insertAll, List.countP_map, ownRows, inBatch]
  congr 1
  split
  · rename_i hp
    apply List.countP_congr
    intro e _
    simp [ownClause, exceptionRow, owned, hp]
  · rename_i hp
    rw [List.countP_eq_zero]
    intro e _
    simp [ownClause, exceptionRow, owned, hp]

theorem commitBatch_rowCount : fingerprintRowCount fp t (commitBatch ing items s).db =
    fingerprintRowCount fp t s.db +
      if t = none ∨ ing.projectId = t then inBatch fp (committedEvents ing items) else 0 := by
  have hrows := (ingestItems_committed ing items s.db).1
  rw [fingerprintRowCount, commitBatch, hrows, Table.count_insertAll, List.countP_map,
    fingerprintRowCount, inBatch]
  congr 1
  split
  · rename_i hp
    apply List.countP_congr
    intro e _
    rcases hp with rfl | hp
    · simp [fingerprintClause, exceptionRow, inScope, applyProject]
    · simp [fingerprintClause, exceptionRow, inScope, applyProject, owned, hp]
  · rename_i hp
    rw [not_or] at hp
    rw [List.countP_eq_zero]
    intro e _
    simp [fingerprintClause, exceptionRow, inScope, applyProject, owned, hp]

theorem commitBatch_pending : (commitBatch ing items s).pending.Perm
    (s.pending ++ (committedEvents ing items).map fun e => (e.2, ing.projectId)) := by
  have hscheduled := (ingestItems_committed ing items s.db).2.2
  rw [Worker.pending, commitBatch]
  dsimp only
  rw [hscheduled, List.map_map, List.flatten_append, List.flatten_singleton, Worker.pending]
  simp only [List.append_assoc]
  apply List.Perm.append_left
  rw [← List.append_assoc s.queue]
  exact List.perm_append_comm

theorem commitBatch_awaiting : awaiting py t fp (commitBatch ing items s) =
    awaiting py t fp s + if ing.projectId = t then inBatch fp (committedEvents ing items) else 0 := by
  rw [awaiting, (commitBatch_pending ing items s).countP_eq, List.countP_append, List.countP_map, awaiting, inBatch]
  congr 1
  split
  · rename_i hp
    apply List.countP_congr
    intro e he
    simp [concerns, hp, committed_fingerprint he]
  · rename_i hp
    rw [List.countP_eq_zero]
    intro e _
    simp [concerns, hp]

end Ingest

section Queue

variable {s s' : Worker} {i : ℕ}

theorem flatten_set_perm {α : Type} {xss : List (List α)} {i : ℕ} {e : α} {rest : List α}
    (h : xss[i]? = some (e :: rest)) : ((xss.set i rest).flatten ++ [e]).Perm xss.flatten := by
  induction xss generalizing i with
  | nil => simp at h
  | cons xs xss ih =>
    cases i with
    | zero =>
      simp only [List.getElem?_cons_zero, Option.some.injEq] at h
      subst h
      rw [List.set_cons_zero, List.flatten_cons, List.flatten_cons]
      exact List.perm_append_comm
    | succ i =>
      rw [List.getElem?_cons_succ] at h
      rw [List.set_cons_succ, List.flatten_cons, List.flatten_cons, List.append_assoc]
      exact (ih h).append_left xs

theorem scheduleEvaluation_pending (h : scheduleEvaluation i s = some s') :
    s'.pending.Perm s.pending ∧ s'.db = s.db ∧ s'.evaluated = s.evaluated ∧
      s'.delivered = s.delivered := by
  unfold scheduleEvaluation at h
  split at h
  · rename_i e rest hi
    cases h
    refine ⟨?_, rfl, rfl, rfl⟩
    have hset := flatten_set_perm hi
    simp only [Worker.pending]
    apply List.Perm.append_right
    have hswap : ((s.scheduling.set i rest).flatten ++ (s.queue ++ [e])).Perm
        ((s.scheduling.set i rest).flatten ++ ([e] ++ s.queue)) := by
      apply List.Perm.append_left
      exact List.perm_append_comm
    rw [← List.append_assoc _ [e]] at hswap
    exact hswap.trans (hset.append_right s.queue)
  · cases h

theorem takeNext_pending (h : takeNext s = some s') :
    s'.pending.Perm s.pending ∧ s'.db = s.db ∧ s'.evaluated = s.evaluated ∧
      s'.delivered = s.delivered := by
  unfold takeNext at h
  split at h
  · rename_i e rest hcurrent hqueue
    cases h
    refine ⟨?_, rfl, rfl, rfl⟩
    simp only [Worker.pending, hcurrent, hqueue, Option.toList_none, Option.toList_some, List.append_nil,
      List.append_assoc]
    apply List.Perm.append_left
    exact List.perm_append_comm
  · cases h

end Queue

end JvmScout.Alerts
