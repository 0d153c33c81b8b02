import JvmScout.Collector.Ingest
import JvmScout.Lib.AssocKeys
import JvmScout.Lib.Runs
import JvmScout.Lib.VersionLog

/-!
The cache of compiled redaction rules on the event loop. An ingest that finds no
fresh entry reads the rules, is suspended, and stores what it compiled under the time
at which it began, whatever the cache holds by then.
-/

namespace JvmScout.Redaction

open Relational Runs Storage VersionLog

variable (py : Python)

abbrev Cached := ℚ × CompiledRules py.Pattern

structure Reload where
  projectId : Option String
  startedAt : ℚ
  rows : Option (List Dict)

structure Answer where
  projectId : Option String
  startedAt : ℚ
  answeredAt : ℚ
  rules : CompiledRules py.Pattern

/-- `log` is the history of `db`, with the time at which each version was committed. -/
structure Loop where
  db : Db
  log : Log Db
  byProject : List (Option String × Cached py)
  clock : ℚ
  reloading : List Reload
  answers : List (Answer py)

def Loop.start (db : Db) : Loop py := ⟨db, [(0, db)], [], 0, [], []⟩

inductive Label where
  | tick (d : ℚ)
  | write (db : Db)
  | reset
  | get (projectId : Option String)
  | query (i : ℕ)
  | resume (i : ℕ)

def redactionRules (projectId : Option String) (db : Db) : List Dict :=
  listConfig "redaction_rules" projectId false db

variable {py}

def fresh (ttl now : ℚ) (ent : Cached py) : Bool := decide (now - ent.1 ≤ ttl)

def tick (d : ℚ) (s : Loop py) : Option (Loop py) :=
  if 0 ≤ d then some { s with clock := s.clock + d } else none

def write (db : Db) (s : Loop py) : Loop py := { s with db := db, log := s.log ++ [(s.clock, db)] }

def get (ttl : ℚ) (projectId : Option String) (s : Loop py) : Loop py :=
  match (Assoc.get? s.byProject projectId).filter (fresh ttl s.clock) with
  | some ent => { s with answers := s.answers ++ [⟨projectId, s.clock, s.clock, ent.2⟩] }
  | none => { s with reloading := s.reloading ++ [⟨projectId, s.clock, none⟩] }

def query (i : ℕ) (s : Loop py) : Option (Loop py) :=
  match s.reloading[i]? with
  | some ⟨projectId, startedAt, none⟩ =>
    some { s with
      reloading := s.reloading.set i ⟨projectId, startedAt, some (redactionRules projectId s.db)⟩ }
  | _ => none

def resume (i : ℕ) (s : Loop py) : Option (Loop py) :=
  match s.reloading[i]? with
  | some ⟨projectId, startedAt, some rows⟩ =>
    match compileRules py rows with
    | .ok compiled =>
      some { s with
        reloading := s.reloading.eraseIdx i
        byProject := Assoc.set s.byProject projectId (startedAt, compiled)
        answers := s.answers ++ [⟨projectId, startedAt, s.clock, compiled⟩] }
    | .error _ => some { s with reloading := s.reloading.eraseIdx i }
  | _ => none

def step (ttl : ℚ) (s : Loop py) : Label → Option (Loop py)
  | .tick d => tick d s
  | .write db => some (write db s)
  | .reset => some { s with byProject := [] }
  | .get projectId => some (get ttl projectId s)
  | .query i => query i s
  | .resume i => resume i s

def CompiledFrom (projectId : Option String) (rules : CompiledRules py.Pattern) (db : Db) : Prop :=
  compileRules py (redactionRules projectId db) = .ok rules

structure Sound (ttl : ℚ) (s : Loop py) : Prop where
  current : ∃ c, s.log.getLast? = some (c, s.db)
  committed : ∀ e ∈ s.log, e.1 ≤ s.clock
  cached : ∀ p ent, Assoc.get? s.byProject p = some ent →
    ent.1 ≤ s.clock ∧ ReadSince s.log ent.1 fun e => CompiledFrom p ent.2 e.2
  reading : ∀ r ∈ s.reloading, r.startedAt ≤ s.clock
  read : ∀ r ∈ s.reloading, ∀ rows, r.rows = some rows →
    ReadSince s.log r.startedAt fun e => redactionRules r.projectId e.2 = rows
  answered : ∀ a ∈ s.answers, a.startedAt ≤ s.clock ∧
    ReadSince s.log (a.startedAt - ttl) fun e => e.1 ≤ a.answeredAt ∧ CompiledFrom a.projectId a.rules e.2

section Steps

variable {ttl : ℚ} {s s' : Loop py}

theorem sound_start (ttl : ℚ) (db : Db) : Sound ttl (.start py db) := by
  refine ⟨⟨0, rfl⟩, ?_, fun p ent h => ?_, fun r hr => ?_, fun r hr => ?_, fun a ha => ?_⟩
  · simp [Loop.start]
  · cases h
  · cases hr
  · cases hr
  · cases ha

theorem Sound.tick {d : ℚ} (h : Sound ttl s) (hs : tick d s = some s') : Sound ttl s' := by
  unfold Redaction.tick at hs
  split at hs
  · rename_i hd
    cases hs
    have hlater {q : ℚ} (hq : q ≤ s.clock) : q ≤ s.clock + d := by linarith
    refine ⟨h.current, fun e he => ?_, fun p ent hent => ?_, fun r hr => ?_, h.read, fun a ha => ?_⟩
    · exact hlater (h.committed e he)
    · exact ⟨hlater (h.cached p ent hent).1, (h.cached p ent hent).2⟩
    · exact hlater (h.reading r hr)
    · exact ⟨hlater (h.answered a ha).1, (h.answered a ha).2⟩
  · cases hs

theorem Sound.write (httl : 0 ≤ ttl) (h : Sound ttl s) (db : Db) : Sound ttl (write db s) := by
  refine ⟨⟨s.clock, by simp [Redaction.write]⟩, fun e he => ?_, fun p ent hent => ?_, h.reading,
    fun r hr rows hrows => ?_, fun a ha => ?_⟩
  · rcases List.mem_append.mp he with he | he
    · exact h.committed e he
    · rw [List.mem_singleton.mp he]
      exact le_rfl
  · obtain ⟨hstamp, hread⟩ := h.cached p ent hent
    exact ⟨hstamp, hread.commit hstamp⟩
  · exact (h.read r hr rows hrows).commit (h.reading r hr)
  · obtain ⟨hstart, hread⟩ := h.answered a ha
    refine ⟨hstart, hread.commit ?_⟩
    linarith

theorem Sound.reset (h : Sound ttl s) : Sound ttl { s with byProject := [] } := by
  refine ⟨h.current, h.committed, fun p ent hent => ?_, h.reading, h.read, h.answered⟩
  cases hent

theorem Sound.get (h : Sound ttl s) (projectId : Option String) : Sound ttl (get ttl projectId s) := by
  unfold Redaction.get
  split
  · rename_i ent hent
    obtain ⟨hget, hfresh⟩ := Option.filter_eq_some_iff.mp hent
    have hage : s.clock - ent.1 ≤ ttl := of_decide_eq_true hfresh
    refine ⟨h.current, h.committed, h.cached, h.reading, h.read, fun a ha => ?_⟩
    rcases List.mem_append.mp ha with ha | ha
    · exact h.answered a ha
    · rw [List.mem_singleton.mp ha]
      refine ⟨le_rfl, ?_⟩
      -- the entry was read after its stamp, and the stamp is at most `ttl` old
      have hread : ReadSince s.log (s.clock - ttl) fun e => CompiledFrom projectId ent.2 e.2 :=
        (h.cached projectId ent hget).2.mono (by linarith)
      exact hread.imp fun e he hfrom => ⟨h.committed e he, hfrom⟩
  · refine ⟨h.current, h.committed, h.cached, fun r hr => ?_, fun r hr rows hrows => ?_, h.answered⟩
    · rcases List.mem_append.mp hr with hr | hr
      · exact h.reading r hr
      · rw [List.mem_singleton.mp hr]
    · rcases List.mem_append.mp hr with hr | hr
      · exact h.read r hr rows hrows
      · rw [List.mem_singleton.mp hr] at hrows
        cases hrows

theorem Sound.query {i : ℕ} (h : Sound ttl s) (hs : query i s = some s') : Sound ttl s' := by
  unfold Redaction.query at hs
  split at hs
  · rename_i projectId startedAt hget
    cases hs
    refine ⟨h.current, h.committed, h.cached, fun r hr => ?_, fun r hr rows hrows => ?_, h.answered⟩
    · rcases List.mem_or_eq_of_mem_set hr with hr | rfl
      · exact h.reading r hr
      · exact h.reading ⟨projectId, startedAt, none⟩ (List.mem_of_getElem? hget)
    · rcases List.mem_or_eq_of_mem_set hr with hr | rfl
      · exact h.read r hr rows hrows
      · obtain ⟨c, hlast⟩ := h.current
        apply readSince_last hlast
        exact Option.some.inj hrows
  · cases hs

theorem Sound.resume {i : ℕ} (httl : 0 ≤ ttl) (h : Sound ttl s) (hs : resume i s = some s') :
    Sound ttl s' := by
  unfold Redaction.resume at hs
  split at hs
  · rename_i projectId startedAt rows hget
    have hmem := List.mem_of_getElem? hget
    have hkeep {r : Reload} (hr : r ∈ s.reloading.eraseIdx i) : r ∈ s.reloading := List.mem_of_mem_eraseIdx hr
    split at hs <;> cases hs
    · rename_i compiled hcompiled
      have hstart : startedAt ≤ s.clock := h.reading _ hmem
      have hfrom : ReadSince s.log startedAt fun e => CompiledFrom projectId compiled e.2 := by
        apply (h.read _ hmem rows rfl).imp
        intro e _ hrows
        rw [CompiledFrom, hrows, hcompiled]
      refine ⟨h.current, h.committed, fun p ent hent => ?_, fun r hr => h.reading r (hkeep hr),
        fun r hr => h.read r (hkeep hr), fun a ha => ?_⟩
      · rw [Assoc.get?_set] at hent
        split at hent
        · rename_i hp
          cases hent
          rw [← hp]
          exact ⟨hstart, hfrom⟩
        · exact h.cached p ent hent
      · rcases List.mem_append.mp ha with ha | ha
        · exact h.answered a ha
        · rw [List.mem_singleton.mp ha]
          refine ⟨hstart, ?_⟩
          have hread : ReadSince s.log (startedAt - ttl) fun e => CompiledFrom projectId compiled e.2 :=
            hfrom.mono (by linarith)
          exact hread.imp fun e he hfrom => ⟨h.committed e he, hfrom⟩
    · exact ⟨h.current, h.committed, h.cached, fun r hr => h.reading r (hkeep hr),
        fun r hr => h.read r (hkeep hr), h.answered⟩
  · cases hs

theorem Sound.step {l : Label} (httl : 0 ≤ ttl) (h : Sound ttl s) (hs : step ttl s l = some s') :
    Sound ttl s' := by
  cases l with
  | tick d => exact h.tick hs
  | write db =>
    cases hs
    exact h.write httl db
  | reset =>
    cases hs
    exact h.reset
  | get projectId =>
    cases hs
    exact h.get projectId
  | query i => exact h.query hs
  | resume i => exact h.resume httl hs

end Steps

theorem sound_of_run {ttl : ℚ} (httl : 0 ≤ ttl) {db : Db} {labels : List Label} {s : Loop py}
    (hr : run (step ttl) (.start py db) labels = some s) : Sound ttl s := by
  apply run_invariant _ (sound_start ttl db) hr
  intro s l _ t h hs
  exact h.step httl hs

/-- An ingest that begins more than `ttl` after a commit runs with the rules of a version
no older than that commit, in every interleaving with slower reloads. -/
theorem rules_reflect_commits {ttl : ℚ} (httl : 0 ≤ ttl) {db : Db} {labels : List Label} {s : Loop py}
    (hr : run (step ttl) (.start py db) labels = some s) {a : Answer py} (ha : a ∈ s.answers) {v : ℕ}
    {e : ℚ × Db} (hv : s.log[v]? = some e) (hlate : e.1 + ttl < a.startedAt) :
    ∃ (w : ℕ) (f : ℚ × Db), v ≤ w ∧ s.log[w]? = some f ∧ f.1 ≤ a.answeredAt ∧
      compileRules py (listConfig "redaction_rules" a.projectId false f.2) = .ok a.rules := by
  have hsound := sound_of_run httl hr
  obtain ⟨w, f, hw, ⟨hcommitted, hfrom⟩, hlast⟩ := (hsound.answered a ha).2
  refine ⟨w, f, ?_, hw, hcommitted, hfrom⟩
  apply hlast v e hv
  linarith

def maskPasswords : Db :=
  { Db.empty with
    configEntities := Table.empty.insert
      ⟨"redaction_rules", "r1", none, "", [("kind", .str "identifier"), ("value", .str "password")]⟩ }

def slowReloadOverwrites : List Label :=
  [.get none, .query 0, .tick 1, .write maskPasswords, .tick 2, .get none, .query 1, .resume 1, .resume 0,
    .tick 1, .get none, .tick 3, .get none, .query 0, .resume 0]

theorem rules_reflect_commits_slow_reload :
    ∃ s, run (step 5) (Loop.start Python.literal Db.empty) slowReloadOverwrites = some s ∧
      ∃ a ∈ s.answers, ∃ (w : ℕ) (f : ℚ × Db), 1 ≤ w ∧ s.log[w]? = some f ∧ f.1 ≤ a.answeredAt ∧
        compileRules Python.literal (listConfig "redaction_rules" a.projectId false f.2) = .ok a.rules := by
  have hend : (run (step 5) (Loop.start Python.literal Db.empty) slowReloadOverwrites).map (fun s =>
      (s.answers.map fun a => (a.startedAt, a.rules.identifiers), s.log.map Prod.fst)) =
      some ([(3, ["password"]), (0, []), (4, []), (7, ["password"])], [0, 1]) := by
    decide +kernel
  obtain ⟨s, hs, heq⟩ := Option.map_eq_some_iff.mp hend
  obtain ⟨hanswers, hlog⟩ := Prod.mk.inj heq
  have hmem : ((7 : ℚ), ["password"]) ∈ s.answers.map fun a => (a.startedAt, a.rules.identifiers) := by
    rw [hanswers]
    simp
  obtain ⟨a, ha, hlast⟩ := List.mem_map.mp hmem
  have hcommit : (s.log.map Prod.fst)[1]? = some 1 := by
    rw [hlog]
    rfl
  rw [List.getElem?_map] at hcommit
  obtain ⟨e, he, htime⟩ := Option.map_eq_some_iff.mp hcommit
  refine ⟨s, hs, a, ha, rules_reflect_commits (by norm_num) hs ha he ?_⟩
  rw [htime, (Prod.mk.inj hlast).1]
  norm_num

end JvmScout.Redaction
