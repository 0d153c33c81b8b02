import JvmScout.Collector.AlertRules
import JvmScout.Lib.AssocKeys
import JvmScout.Lib.Runs

/-!
The single alert worker between its awaits: the cache of rules, the check of the
cool-down against the whole second of the last delivery, the delivery, and the write
that records it.
-/

namespace JvmScout.Alerts.Debounce

open Storage Relational Runs

variable (py : Python)

def ruleId (rule : Dict) : String := py.str (Dict.get rule "id")

structure Turn where
  ev : Dict
  projectId : Option String
  rule : Dict
  rest : List Dict
  checkedAt : ℚ

inductive Stage where
  | idle
  | loading (ev : Dict) (projectId : Option String) (startedAt : ℚ) (rows : Option (List Dict))
  | visiting (ev : Dict) (projectId : Option String) (rules : List Dict)
  | checked (turn : Turn)
  | delivering (turn : Turn) (payload : Dict)
  | recording (turn : Turn)

structure Firing where
  projectId : Option String
  ruleId : String
  checkedAt : ℚ

def Turn.firing (turn : Turn) : Firing := ⟨turn.projectId, ruleId py turn.rule, turn.checkedAt⟩

structure Worker where
  db : Db
  byProject : List (Option String × (ℚ × List Dict))
  monotonic : ℚ
  wall : ℚ
  stage : Stage
  delivered : List Firing

def Worker.start (db : Db) (wall : ℚ) : Worker := ⟨db, [], 0, wall, .idle, []⟩

inductive Label where
  | tick (d e : ℚ)
  | write (db : Db)
  | reset
  | begin (ev : Dict) (projectId : Option String)
  | query
  | resume
  | fail
  | check
  | condition
  | deliver (net : Network)
  | record

section Step

variable (backend : Backend) (ttl : ℚ)

def enter (ev : Dict) (projectId : Option String) (rules : List Dict) : Stage :=
  if rules.isEmpty || eventFingerprint py ev == "" then .idle else .visiting ev projectId rules

def begin (ev : Dict) (projectId : Option String) (s : Worker) : Option Worker :=
  match s.stage with
  | .idle =>
    match (Assoc.get? s.byProject projectId).filter fun ent => decide (s.monotonic - ent.1 ≤ ttl) with
    | some ent => some { s with stage := enter py ev projectId ent.2 }
    | none => some { s with stage := .loading ev projectId s.monotonic none }
  | _ => none

def query (s : Worker) : Option Worker :=
  match s.stage with
  | .loading ev projectId startedAt none =>
    let rows := listConfig "alert_rules" projectId false s.db
    some { s with stage := .loading ev projectId startedAt (some rows) }
  | _ => none

def resume (s : Worker) : Option Worker :=
  match s.stage with
  | .loading ev projectId startedAt (some rows) =>
    some { s with
      byProject := Assoc.set s.byProject projectId (startedAt, rows)
      stage := enter py ev projectId rows }
  | _ => none

def fail (s : Worker) : Option Worker :=
  match s.stage with
  | .loading _ _ _ _ => some { s with stage := .idle }
  | .checked turn => some { s with stage := .visiting turn.ev turn.projectId turn.rest }
  | _ => none

def passes (clock : ℚ) (rule ev : Dict) : Bool :=
  (Dict.get rule "enabled").truthy && matchesScope rule ev &&
    match debounced py clock rule with
    | .ok tooSoon => !tooSoon
    | .error _ => false

def check (s : Worker) : Option Worker :=
  match s.stage with
  | .visiting ev projectId (rule :: rest) =>
    if passes py s.wall rule ev then
      some { s with stage := .checked ⟨ev, projectId, rule, rest, s.wall⟩ }
    else some { s with stage := .visiting ev projectId rest }
  | .visiting _ _ [] => some { s with stage := .idle }
  | _ => none

def condition (s : Worker) : Option Worker :=
  match s.stage with
  | .checked turn =>
    match conditionMet py backend s.wall turn.rule (eventFields py turn.ev) turn.projectId s.db with
    | .ok (some reason) =>
      let payload := buildMessage py s.wall turn.rule (eventFields py turn.ev) reason
      some { s with stage := .delivering turn payload }
    | _ => some { s with stage := .visiting turn.ev turn.projectId turn.rest }
  | _ => none

def send (net : Network) (s : Worker) : Option Worker :=
  match s.stage with
  | .delivering turn payload =>
    match deliver net turn.rule payload with
    | .ok true => some { s with stage := .recording turn, delivered := s.delivered ++ [turn.firing py] }
    | _ => some { s with stage := .visiting turn.ev turn.projectId turn.rest }
  | _ => none

/-- The stamp in the cached copy of the rule goes with the cache, which is reset before
the worker reads it again. -/
def record (s : Worker) : Option Worker :=
  match s.stage with
  | .recording turn =>
    some { s with
      db := markFired py s.wall turn.rule turn.projectId s.db
      byProject := []
      stage := .visiting turn.ev turn.projectId turn.rest }
  | _ => none

def tick (d e : ℚ) (s : Worker) : Option Worker :=
  if 0 ≤ d ∧ 0 ≤ e then some { s with monotonic := s.monotonic + d, wall := s.wall + e } else none

def step (s : Worker) : Label → Option Worker
  | .tick d e => tick d e s
  | .write db => some { s with db := db }
  | .reset => some { s with byProject := [] }
  | .begin ev projectId => begin py ttl ev projectId s
  | .query => query s
  | .resume => resume py s
  | .fail => fail s
  | .check => check py s
  | .condition => condition py backend s
  | .deliver net => send py net s
  | .record => record py s

end Step

variable {py}

section Undisturbed

variable {backend : Backend} {ttl : ℚ} {s : Worker} {rule ev : Dict} {projectId : Option String}

theorem firing_of_passes {clock : ℚ} {db : Db} (h : passes py clock rule ev = true) :
    firing py backend clock rule ev projectId db =
      conditionMet py backend clock rule (eventFields py ev) projectId db := by
  simp only [passes, Bool.and_eq_true] at h
  obtain ⟨⟨henabled, hscope⟩, hdebounced⟩ := h
  cases hd : debounced py clock rule with
  | error e => simp [hd] at hdebounced
  | ok tooSoon =>
    simp only [hd, Bool.not_eq_true'] at hdebounced
    simp [firing, henabled, hscope, hd, hdebounced, bind, Except.bind]

theorem firing_of_not_passes {clock : ℚ} {db : Db} (h : passes py clock rule ev = false) (reason : String) :
    firing py backend clock rule ev projectId db ≠ .ok (some reason) := by
  intro hfiring
  unfold firing at hfiring
  split at hfiring
  · cases hfiring
  · rename_i hadmitted
    simp only [Bool.or_eq_true, Bool.not_eq_true', not_or, Bool.not_eq_false] at hadmitted
    cases hd : debounced py clock rule with
    | error e => simp [hd, bind, Except.bind] at hfiring
    | ok tooSoon =>
      cases tooSoon with
      | true => simp [hd, bind, Except.bind, pure, Except.pure] at hfiring
      | false => simp [passes, hadmitted, hd] at h

theorem tryRule_quiet {clock : ℚ} {net : Network} {db : Db}
    (h : ∀ reason, firing py backend clock rule ev projectId db ≠ .ok (some reason)) :
    tryRule py backend clock net rule ev projectId db = (db, none) := by
  unfold tryRule evaluateRule
  cases hf : firing py backend clock rule ev projectId db with
  | error e => rfl
  | ok fired =>
    cases fired with
    | none => rfl
    | some reason => exact absurd hf (h reason)

theorem tryRule_fires {clock : ℚ} {net : Network} {db : Db} {reason : String}
    (h : firing py backend clock rule ev projectId db = .ok (some reason)) :
    (tryRule py backend clock net rule ev projectId db).1 =
      if deliver net rule (buildMessage py clock rule (eventFields py ev) reason) = .ok true then
        markFired py clock rule projectId db
      else db := by
  unfold tryRule evaluateRule
  simp only [h, bind, Except.bind]
  cases hd : deliver net rule (buildMessage py clock rule (eventFields py ev) reason) with
  | error e => simp
  | ok sent => cases sent <;> simp [pure, Except.pure]

theorem run_tryRule (net : Network) {rest : List Dict} (hstage : s.stage = .visiting ev projectId (rule :: rest)) :
    ∃ labels s', run (step py backend ttl) s labels = some s' ∧ s'.stage = .visiting ev projectId rest ∧
      s'.db = (tryRule py backend s.wall net rule ev projectId s.db).1 ∧ s'.wall = s.wall := by
  cases hpasses : passes py s.wall rule ev with
  | false =>
    rw [tryRule_quiet (firing_of_not_passes hpasses)]
    refine ⟨[.check], { s with stage := .visiting ev projectId rest }, ?_, rfl, rfl, rfl⟩
    simp [run, Debounce.step, Debounce.check, hstage, hpasses]
  | true =>
    have hfiring : firing py backend s.wall rule ev projectId s.db =
        conditionMet py backend s.wall rule (eventFields py ev) projectId s.db := firing_of_passes hpasses
    have hcheck : Debounce.step py backend ttl s .check =
        some { s with stage := .checked ⟨ev, projectId, rule, rest, s.wall⟩ } := by
      simp [Debounce.step, Debounce.check, hstage, hpasses]
    cases hmet : conditionMet py backend s.wall rule (eventFields py ev) projectId s.db with
    | error e =>
      rw [tryRule_quiet (by simp [hfiring, hmet])]
      refine ⟨[.check, .condition], { s with stage := .visiting ev projectId rest },
        run_cons.mpr ⟨_, hcheck, ?_⟩, rfl, rfl, rfl⟩
      simp [run, Debounce.step, Debounce.condition, hmet]
    | ok fired =>
      cases fired with
      | none =>
        rw [tryRule_quiet (by simp [hfiring, hmet])]
        refine ⟨[.check, .condition], { s with stage := .visiting ev projectId rest },
          run_cons.mpr ⟨_, hcheck, ?_⟩, rfl, rfl, rfl⟩
        simp [run, Debounce.step, Debounce.condition, hmet]
      | some reason =>
        rw [tryRule_fires (hfiring.trans hmet)]
        split
        · rename_i hsent
          refine ⟨[.check, .condition, .deliver net, .record], { s with
            db := markFired py s.wall rule projectId s.db
            byProject := []
            stage := .visiting ev projectId rest
            delivered := s.delivered ++ [⟨projectId, ruleId py rule, s.wall⟩] },
            run_cons.mpr ⟨_, hcheck, ?_⟩, rfl, rfl, rfl⟩
          simp [run, Debounce.step, Debounce.condition, Debounce.send, Debounce.record, Turn.firing, hmet, hsent]
        · rename_i hunsent
          refine ⟨[.check, .condition, .deliver net], { s with stage := .visiting ev projectId rest },
            run_cons.mpr ⟨_, hcheck, ?_⟩, rfl, rfl, rfl⟩
          simp only [run, Debounce.step, Debounce.condition, Debounce.send, hmet, Option.bind_some]

theorem run_evaluateRules (net : Network) {rules : List (ℕ × Dict)}
    (hstage : s.stage = .visiting ev projectId (rules.map Prod.snd)) :
    ∃ labels s', run (step py backend ttl) s labels = some s' ∧ s'.stage = .visiting ev projectId [] ∧
      s'.db = (evaluateRules py backend s.wall net ev projectId rules s.db).1 := by
  induction rules generalizing s with
  | nil => exact ⟨[], s, rfl, hstage, rfl⟩
  | cons entry rules ih =>
    obtain ⟨first, u, hfirst, hu, hdb, hwall⟩ := run_tryRule net hstage
    obtain ⟨others, s', hothers, hs', hdb'⟩ := ih hu
    refine ⟨first ++ others, s', run_append.mpr ⟨u, hfirst, hothers⟩, hs', ?_⟩
    rw [hdb', hwall, hdb, evaluateRules]

theorem run_evaluateEvent (net : Network) (ev : Dict) (hidle : s.stage = .idle)
    (hempty : Assoc.get? s.byProject projectId = none) :
    ∃ labels s', run (step py backend ttl) s labels = some s' ∧ s'.stage = .idle ∧
      s'.db = (evaluateEvent py backend s.wall net ev projectId s.db).1 := by
  have hload : run (step py backend ttl) s [.begin ev projectId, .query, .resume] = some { s with
      byProject := Assoc.set s.byProject projectId (s.monotonic, listConfig "alert_rules" projectId false s.db)
      stage := enter py ev projectId (listConfig "alert_rules" projectId false s.db) } := by
    simp [run, Debounce.step, Debounce.begin, Debounce.query, Debounce.resume, hidle, hempty]
  unfold evaluateEvent
  by_cases hfp : eventFingerprint py ev = ""
  · refine ⟨_, _, hload, ?_, ?_⟩
    · simp [enter, hfp]
    · rw [if_pos hfp]
  · rw [if_neg hfp]
    cases hrules : alertRules projectId s.db with
    | nil =>
      have hnone : listConfig "alert_rules" projectId false s.db = [] := by
        rw [← alertRules_eq_listConfig, hrules, List.map_nil]
      refine ⟨_, _, hload, ?_, rfl⟩
      simp [enter, hnone]
    | cons entry rules =>
      have hlist : listConfig "alert_rules" projectId false s.db = (entry :: rules).map Prod.snd := by
        rw [← alertRules_eq_listConfig, hrules]
      have henter : enter py ev projectId (listConfig "alert_rules" projectId false s.db) =
          .visiting ev projectId ((entry :: rules).map Prod.snd) := by
        simp [enter, hlist, hfp]
      rw [henter] at hload
      obtain ⟨labels, u, hloop, hu, hdb⟩ := run_evaluateRules net (s := { s with
        byProject := Assoc.set s.byProject projectId (s.monotonic, listConfig "alert_rules" projectId false s.db)
        stage := .visiting ev projectId ((entry :: rules).map Prod.snd) }) rfl
      have hlast : run (step py backend ttl) u [.check] = some { u with stage := .idle } := by
        simp [run, Debounce.step, Debounce.check, hu]
      exact ⟨[.begin ev projectId, .query, .resume] ++ (labels ++ [.check]), { u with stage := .idle },
        run_append.mpr ⟨_, hload, run_append.mpr ⟨u, hloop, hlast⟩⟩, rfl, hdb⟩

end Undisturbed

end JvmScout.Alerts.Debounce
