import JvmScout.Collector.ReadIsolation
import JvmScout.Collector.RedactionCache
import JvmScout.Collector.Retention
import JvmScout.Collector.Tenancy
import JvmScout.Lib.TableViews
import JvmScout.Lib.Unwinding

/-!
One collector for many tenants: what a tenant's tokens see of it over a whole run, next to what
they would see of a collector of their own.
-/

namespace JvmScout.Routes.TenantViews

open Models Redaction Security Storage Relational Relational.Table Traverse Unwinding

variable {py : Python}

structure View where
  exceptions : List ExceptionRow
  jvmInstances : List JvmInstanceRow
  sourceClasses : List SourceClassRow
  configEntities : List ConfigEntityRow

/-- The rows of a project in their order; the keys are numbers that all projects share. -/
def view (p : String) (db : Db) : View where
  exceptions := db.exceptions.shown (owned ExceptionRow.projectId (some p))
  jvmInstances := db.jvmInstances.toTable.shown (owned JvmInstanceRow.projectId (some p))
  sourceClasses := db.sourceClasses.shown (owned SourceClassRow.projectId (some p))
  configEntities := db.configEntities.shown (owned ConfigEntityRow.projectId (some p))

structure Collector (py : Python) where
  db : Db
  byProject : List (Option String × Cached py)

def Collector.empty : Collector py := ⟨Db.empty, []⟩

def getRules (now : ℚ) (projectId : Option String) (c : Collector py) :
    Except PyError (CompiledRules py.Pattern) × List (Option String × Cached py) :=
  match (Assoc.get? c.byProject projectId).filter (fresh 5 now) with
  | some ent => (.ok ent.2, c.byProject)
  | none =>
    match compileRules py (redactionRules projectId c.db) with
    | .ok compiled => (.ok compiled, Assoc.set c.byProject projectId (now, compiled))
    | .error e => (.error e, c.byProject)

/-- `now` is the monotonic clock of the process. The rules of `env` are not read. -/
inductive Step (py : Python) where
  | write (now : ℚ) (env : IngestEnv py) (t : Tenant) (request : Request)
  | read (clock : ℚ) (t : Tenant) (request : ReadRequest)
  | purge (retentionDays now : ℕ)

def withRules (env : IngestEnv py) (rules : Except PyError (CompiledRules py.Pattern)) : IngestEnv py :=
  { env with rules := rules }

def served (now : ℚ) (env : IngestEnv py) (t : Tenant) (c : Collector py) : IngestEnv py :=
  withRules env (getRules now t.principal.scope c).1

def rulesAfter (now : ℚ) (env : IngestEnv py) (t : Tenant) (c : Collector py) :
    Request → List (Option String × Cached py)
  | .ingest body =>
    match admitted (served now env t c) t.principal body with
    | .ok _ => (getRules now t.principal.scope c).2
    | .error _ => c.byProject
  | _ => c.byProject

def purged (retentionDays now : ℕ) (db : Db) : Db :=
  match purgeOldRecords retentionDays now db with
  | .ok (db, _) => db
  | .error _ => db

def perform (c : Collector py) : Step py → Collector py
  | .write now env t request =>
    ⟨handle (served now env t c) t.principal c.db request, rulesAfter now env t c request⟩
  | .read _ _ _ => c
  | .purge retentionDays now => { c with db := purged retentionDays now c.db }

def reply (env : IngestEnv py) (who : Principal) (db : Db) : Request → Except Failure Json
  | .ingest body => (ingest env who body db).map fun acc =>
    .obj [("accepted", .int acc.accepted), ("failed", .int acc.failed)]
  | .config request => (handleConfig py env.backend env.toEnv who db request).map fun r => .obj r.2
  | .removeException excId => (removeException who excId db).map fun r => .obj r.2
  | .deleteAll confirm => (deleteAll who confirm db).map fun r => .obj r.2
  | .deleteAllData confirm => (deleteAllData who confirm db).map fun r => .obj r.2

def withoutId : Json → Json
  | .obj d => .obj (d.filter fun e => e.1 != "id")
  | v => v

def hideIds : Json → Json
  | .obj (("items", .arr items) :: rest) => .obj (("items", .arr (items.map withoutId)) :: rest)
  | v => v

def answer (decompiler : Decompiler) (c : Collector py) : Step py → Except Failure Json
  | .write now env t request => reply (served now env t c) t.principal c.db request
  | .read clock t request => (respond py decompiler clock t.principal c.db request).map hideIds
  | .purge _ _ => .ok .null

def mine (p : String) : Step py → Bool
  | .write _ _ t _ | .read _ t _ => t.project == p
  | .purge _ _ => true

def NamesOwn (owner : String → Option String) (env : IngestEnv py) (t : Tenant) (body : Body) : Prop :=
  ∀ ing items, admitted env t.principal body = .ok (ing, items) → ∀ item ∈ items,
    (∀ ev raw, readItem ing.rules item = .ok (.agentStart ev raw) →
      owner (ev.instanceId.getD "") = some t.project) ∧
    ∀ ev raw, readItem ing.rules item = .ok (.exception ev raw) →
      ∀ id, ev.instanceId = some id → id ≠ "" → owner id = some t.project

/-- No instance id is used by two projects, whatever the rules leave of a batch, and the tenant's
own requests name no exception by its number. -/
def Proper (owner : String → Option String) (p : String) : Step py → Prop
  | .write _ env t (.ingest body) => ∀ rules, NamesOwn owner (withRules env rules) t body
  | .write _ _ t (.removeException _) => t.project ≠ p
  | .read _ t (.exception _) => t.project ≠ p
  | _ => True

section Hidden

variable {p : String} {db db' : Db}

variable {owner : String → Option String}

end Hidden

/-! ### What the tenant's own requests do -/

section Own

variable {t : Tenant} {db db' : Db}

def seen {α : Type} (p : String) (x : Except Failure (Db × α)) : Except Failure (View × α) :=
  x.map fun r => (view p r.1, r.2)

variable {backend : Backend} {env : Env}

section Config

variable {p : String}

end Config

end Own

/-! ### Ingesting a batch -/

section Ingest

variable {owner : String → Option String} {p : String} {now : ℕ} {db db' : Db}

def registered (p : String) (now : ℕ) (ev : AgentStartEvent) (raw : Dict) (v : View) : View :=
  if v.jvmInstances.any fun row => row.instanceId == ev.instanceId.getD "" then
    { v with
      jvmInstances := v.jvmInstances.map fun row =>
        if row.instanceId == ev.instanceId.getD "" then
          { row with rawJson := raw, timestamp := ev.timestamp, receivedAt := now }
        else row }
  else { v with jvmInstances := v.jvmInstances ++ [jvmInstanceRow now ev raw (some p)] }

structure SameIntake (p : String) (acc acc' : Intake) : Prop where
  view : view p acc.db = view p acc'.db
  accepted : acc.accepted = acc'.accepted
  failed : acc.failed = acc'.failed
  batch : acc.batch = acc'.batch

variable {ing : Ingestion py} {acc acc' : Intake}

theorem SameIntake.store (h : SameIntake p acc acc') (i : ℕ) (broadcasts : List Broadcast) (f : Option PyError)
    {r r' : Except PyError Db} (hr : r.map (TenantViews.view p) = r'.map (TenantViews.view p)) :
    SameIntake p (acc.store i broadcasts (faulty f r)) (acc'.store i broadcasts (faulty f r')) := by
  have hfailed : SameIntake p { acc with failed := acc.failed + 1 } { acc' with failed := acc'.failed + 1 } :=
    ⟨h.view, h.accepted, congrArg (· + 1) h.failed, h.batch⟩
  cases f with
  | some e => exact ⟨hfailed.view, hfailed.accepted, hfailed.failed, hfailed.batch⟩
  | none =>
    cases r with
    | error e =>
      cases r' with
      | error e' => exact ⟨hfailed.view, hfailed.accepted, hfailed.failed, hfailed.batch⟩
      | ok d' => cases hr
    | ok d =>
      cases r' with
      | error e' => cases hr
      | ok d' => exact ⟨Except.ok.inj hr, congrArg (· + 1) h.accepted, h.failed, h.batch⟩

def counted (p : String) (now : ℕ) (events : List (ExceptionEvent × Dict)) (v : View) : View :=
  { v with
    exceptions := v.exceptions ++ events.map fun e => exceptionRow now e.1 e.2 (some p)
    jvmInstances := v.jvmInstances.map fun row =>
      if (instanceIds events).contains row.instanceId then { row with receivedAt := now } else row }

end Ingest

/-! ### What the tenant reads -/

section Reads

variable {t : Tenant} {p : String} {db db' : Db} (hview : view p db = view p db')
include hview

end Reads

section Runs

variable {owner : String → Option String} {p : String} {db db' : Db}

variable {c c' : Collector py}

end Runs

end JvmScout.Routes.TenantViews
