import JvmScout.Collector.Redaction
import JvmScout.Collector.Routes

/-!
`POST /collector`: every item is read on its own, agent registrations and class
files are stored as they come, and the exceptions of the batch in one transaction.
-/

namespace JvmScout.Routes

open Models Redaction Security Storage Traverse

inductive Item where
  | agentStart (ev : AgentStartEvent) (raw : Dict)
  | sourceClass (className bytecodeB64 : Json)
  | exception (ev : ExceptionEvent) (raw : Dict)

section Reading

variable {py : Python}

def validated {α : Type} : Option α → Except PyError α
  | some a => .ok a
  | none => .error .validationError

def readItem (rules : CompiledRules py.Pattern) : Json → Except PyError Item
  | .obj raw =>
    if Dict.get raw "type" = .str "agent_start" then do
      let ev ← validated (AgentStartEvent.validate py raw)
      return .agentStart ev raw
    else if Dict.get raw "type" = .str "source_class" then
      return .sourceClass ((Dict.get raw "className").orElse (.str ""))
        ((Dict.get raw "bytecodeB64").orElse (.str ""))
    else do
      let raw ← redactEvent rules raw
      let ev ← validated (ExceptionEvent.validate py raw)
      return .exception ev raw
  | _ => .error .typeError

theorem validated_ok {α : Type} {o : Option α} {a : α} (h : validated o = .ok a) : o = some a := by
  cases o <;> cases h
  rfl

theorem readItem_exception {rules : CompiledRules py.Pattern} {item : Json} {ev : ExceptionEvent}
    {red : Dict} (h : readItem rules item = .ok (.exception ev red)) :
    ∃ raw, item = .obj raw ∧ Dict.get raw "type" ≠ .str "agent_start" ∧
      Dict.get raw "type" ≠ .str "source_class" ∧ redactEvent rules raw = .ok red ∧
      ExceptionEvent.validate py red = some ev := by
  unfold readItem at h
  split at h
  · rename_i raw
    split at h
    · simp only [bind_eq_ok, pure_eq_ok, reduceCtorEq, and_false, exists_false] at h
    · rename_i hagent
      split at h
      · cases h
      · rename_i hsource
        simp only [bind_eq_ok, pure_eq_ok] at h
        obtain ⟨red', hred, ev', hev, hsame⟩ := h
        cases hsame
        exact ⟨raw, rfl, hagent, hsource, hred, validated_ok hev⟩
  · cases h

end Reading

structure Broadcast where
  kind : String
  id : Option ℕ
  event : Dict
  projectId : Option String

structure Faults where
  item : ℕ → Option PyError
  batch : Option PyError

def Faults.none : Faults := ⟨fun _ => Option.none, Option.none⟩

def faulty {α : Type} : Option PyError → Except PyError α → Except PyError α
  | some e, _ => .error e
  | Option.none, r => r

/-- The state of the loop. `committed` and `raised` are kept for the statements below:
the places of the items whose storage call returned, and of those whose call raised. -/
structure Intake where
  db : Db
  accepted : ℕ
  failed : ℕ
  batch : List (ℕ × ExceptionEvent × Dict)
  broadcasts : List Broadcast
  scheduled : List Dict
  committed : List ℕ
  raised : List (ℕ × PyError)

def Intake.start (db : Db) : Intake := ⟨db, 0, 0, [], [], [], [], []⟩

def Intake.store (acc : Intake) (i : ℕ) (broadcasts : List Broadcast) : Except PyError Db → Intake
  | .ok db =>
    { acc with
      db := db
      accepted := acc.accepted + 1
      broadcasts := acc.broadcasts ++ broadcasts
      committed := acc.committed ++ [i] }
  | .error e => { acc with failed := acc.failed + 1, raised := acc.raised ++ [(i, e)] }

structure Ingestion (py : Python) where
  rules : CompiledRules py.Pattern
  backend : Backend
  now : ℕ
  projectId : Option String
  faults : Faults

section Loop

variable {py : Python} (ing : Ingestion py)

def ingestItem (acc : Intake) (x : Json × ℕ) : Intake :=
  match readItem ing.rules x.1 with
  | .error _ => { acc with failed := acc.failed + 1 }
  | .ok (.agentStart ev raw) =>
    acc.store x.2 [⟨"agent_start", none, raw, ing.projectId⟩]
      (faulty (ing.faults.item x.2) (storeAgentStart ing.now ev raw ing.projectId acc.db))
  | .ok (.sourceClass className bytecodeB64) =>
    acc.store x.2 []
      (faulty (ing.faults.item x.2)
        (storeSourceClass ing.backend ing.now ing.projectId className bytecodeB64 acc.db))
  | .ok (.exception ev raw) => { acc with batch := acc.batch ++ [(x.2, ev, raw)] }

def storeBatch (acc : Intake) : Intake :=
  if acc.batch = [] then acc
  else
    match faulty ing.faults.batch
      (storeExceptions ing.backend ing.now (acc.batch.map Prod.snd) ing.projectId acc.db) with
    | .error e =>
      { acc with
        failed := acc.failed + acc.batch.length
        raised := acc.raised ++ acc.batch.map fun x => (x.1, e) }
    | .ok (db, rowIds) =>
      { acc with
        db := db
        accepted := acc.accepted + acc.batch.length
        broadcasts := acc.broadcasts ++ (rowIds.zip acc.batch).map fun x =>
          ⟨"exception", some x.1, x.2.2.2, ing.projectId⟩
        scheduled := acc.scheduled ++ acc.batch.map fun x => x.2.2
        committed := acc.committed ++ acc.batch.map Prod.fst }

def ingestItems (items : List Json) (db : Db) : Intake :=
  storeBatch ing (items.zipIdx.foldl (ingestItem ing) (.start db))

end Loop

structure IngestEnv (py : Python) extends Env where
  rateAllowed : Bool
  backend : Backend
  rules : Except PyError (CompiledRules py.Pattern)
  faults : Faults

section Endpoint

variable {py : Python}

def payloadItems : Json → List Json
  | .arr items => items
  | payload => [payload]

def admitted (env : IngestEnv py) (who : Principal) (body : Body) :
    Except Failure (Ingestion py × List Json) := do
  requireIngest who
  if env.rateAllowed then
    let payload ← readJsonBody py env.maxBodyBytes body
    let rules ← raising env.rules
    return (⟨rules, env.backend, env.now, who.scope, env.faults⟩, payloadItems payload)
  else throw (.http 429 "rate limit exceeded")

def ingest (env : IngestEnv py) (who : Principal) (body : Body) (db : Db) : Except Failure Intake := do
  let (ing, items) ← admitted env who body
  return ingestItems ing items db

def ingestStatus : Except Failure Intake → ℕ
  | .ok _ => 200
  | .error f => f.status

end Endpoint

end JvmScout.Routes
