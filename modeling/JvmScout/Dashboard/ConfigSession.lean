import JvmScout.Dashboard.QueryBuilder
import JvmScout.Lib.Refinement
import JvmScout.Lib.TableViews

namespace JvmScout.Dashboard.ConfigSession

open Relational Storage Routes Security QueryBuilder Refinement

inductive Mode where
  | many
  | single
  | maybeSingle

inductive Query where
  | insert (payload : List (Env × Dict))
  | update (filters : List Filter) (patch : Dict)
  | delete (filters : List Filter)
  | select (filters : List Filter) (orderBy : Option (String × Bool)) (limitN : Option ℕ) (mode : Mode)

inductive Data where
  | rows (rows : List Dict)
  | row (row : Option Dict)

section Page

-- `less` is the page's `<` between values that came out of a response, or are missing there.
variable (c : Collector) (less : Option Json → Option Json → Bool) (table : String)

def configInsert (env : Env) (row : Dict) (db : Db) : Except String (Db × Dict) :=
  http ("/config/" ++ table) (createConfig c.py env c.who table (c.sent row) db)

def runInsert (between : ℕ → Db → Db) : ℕ → List (Env × Dict) → Db → List Dict → Db × Except String (List Dict)
  | _, [], db, inserted => (db, .ok inserted)
  | i, r :: incoming, db, inserted =>
    match configInsert c table r.1 r.2 (between i db) with
    | .error e => (between i db, .error e)
    | .ok (db, row) => runInsert between (i + 1) incoming db (inserted ++ [row])

def sameValue (a b : Option Json) : Bool :=
  match a, b with
  | none, none => true
  | some a, some b => strictEq a b
  | _, _ => false

def inOrder (col : String) (ascending : Bool) (a b : Dict) : Bool :=
  sameValue (Dict.get? a col) (Dict.get? b col) || (less (Dict.get? a col) (Dict.get? b col) == ascending)

def ordered (orderBy : Option (String × Bool)) (rows : List Dict) : List Dict :=
  match orderBy with
  | none => rows
  | some (col, ascending) => rows.mergeSort (inOrder less col ascending)

def sliced (limitN : Option ℕ) (rows : List Dict) : List Dict :=
  match limitN with
  | none => rows
  | some n => rows.take n

def shaped (mode : Mode) (rows : List Dict) : Except String Data :=
  match mode with
  | .many => .ok (.rows rows)
  | .maybeSingle => .ok (.row rows.head?)
  | .single => if rows = [] then .error "no rows found (single)" else .ok (.row rows.head?)

def selected (filters : List Filter) (orderBy : Option (String × Bool)) (limitN : Option ℕ) (mode : Mode)
    (rows : List Dict) : Except String Data :=
  shaped mode (sliced limitN (ordered less orderBy (applyFilters rows filters)))

def run (between : ℕ → Db → Db) (db : Db) : Query → Db × Except String Data
  | .insert payload =>
    let ran := runInsert c table between 0 payload db []
    (ran.1, ran.2.map .rows)
  | .update filters patch =>
    let ran := runUpdate c between table filters patch db
    (ran.1, ran.2.map .row)
  | .delete filters =>
    let ran := runDelete c between table filters db
    (ran.1, ran.2.map .row)
  | .select filters orderBy limitN mode =>
    (between 0 db, (configList c table (between 0 db)).bind (selected less filters orderBy limitN mode))

end Page

section Table

variable (c : Collector) (less : Option Json → Option Json → Bool) (table : String)

def newRow (r : Env × Dict) : ConfigEntityRow :=
  configRow c.py r.1.now r.1.uuid table r.2 (if c.who.isMaster then none else c.who.projectId)

/-- What a page's queries are like: bodies that fit, ids that a path can carry, and a new id for a
new row. -/
def Allowed (rows : List ConfigEntityRow) : Query → Prop
  | .insert payload =>
    (∀ r ∈ payload, readJsonBody c.py r.1.maxBodyBytes (c.sent r.2) = .ok (.obj r.2)) ∧
      ((rows ++ payload.map (newRow c table)).map (·.entityId)).Nodup
  | .update filters patch =>
    readJsonBody c.py c.env.maxBodyBytes (c.sent patch) = .ok (.obj patch) ∧
      (∀ val, idOnly filters = some val → ∃ s, val = some (.str s)) ∧
      ∀ row ∈ rows, hit filters row = true → routed row.entityId = true
  | .delete filters =>
    (∀ val, idOnly filters = some val → ∃ s, val = some (.str s)) ∧
      ∀ row ∈ rows, hit filters row = true → routed row.entityId = true
  | .select _ _ _ _ => True

end Table

variable {c : Collector} {less : Option Json → Option Json → Bool} {table : String} {db : Db}
  {between : ℕ → Db → Db}

def tableOf (c : Collector) (table : String) (db : Db) : List ConfigEntityRow :=
  db.configEntities.shown (managed c table)

structure Related (c : Collector) (table : String) (db : Db) (rows : List ConfigEntityRow) : Prop where
  shown : tableOf c table db = rows
  unique : (rows.map (·.entityId)).Nodup

variable {rows : List ConfigEntityRow} {filters : List Filter}

theorem Related.hits (h : Related c table db rows) :
    (hits c table filters db).map Prod.snd = rows.filter (hit filters) := by
  rw [← h.shown, tableOf, Table.shown, List.filter_map]
  rfl

theorem Related.routed (h : Related c table db rows)
    (hrouted : ∀ row ∈ rows, hit filters row = true → routed row.entityId = true) :
    ∀ r ∈ QueryBuilder.hits c table filters db, routed r.2.entityId = true := by
  intro r hr
  have hmem : r.2 ∈ rows.filter (hit filters) := by
    rw [← h.hits]
    exact List.mem_map_of_mem hr
  obtain ⟨hrow, hhit⟩ := List.mem_filter.mp hmem
  exact hrouted r.2 hrow hhit

structure Turn where
  between : ℕ → Db → Db
  query : Query

def Proper (c : Collector) (table : String) (rows : List ConfigEntityRow) (t : Turn) : Prop :=
  (∀ i db, (t.between i db).configEntities.select (managed c table) = db.configEntities.select (managed c table)) ∧
    Allowed c table rows t.query

end JvmScout.Dashboard.ConfigSession
