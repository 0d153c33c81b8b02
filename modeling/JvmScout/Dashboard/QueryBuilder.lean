import JvmScout.Collector.ConfigIdentity
import JvmScout.Collector.Queries

/-!
Updates and deletes of `adapter.ts` on the configuration tables: what looks like one statement
on rows that meet its filters is a list request and then a request for each row, with the
requests of others in between.
-/

namespace JvmScout.Dashboard.QueryBuilder

open Relational Storage Routes Security

def strictEq : Json → Json → Bool
  | .null, .null => true
  | .bool a, .bool b => a == b
  | .int a, .int b => a == b
  | .int a, .float b => (a : ℚ) == b
  | .float a, .int b => a == (b : ℚ)
  | .float a, .float b => a == b
  | .str a, .str b => a == b
  | _, _ => false

inductive Filter where
  | eq (col : String) (val : Option Json)
  | among (col : String) (vals : List Json)

def Filter.admits (row : Dict) : Filter → Bool
  | .eq col val =>
    match Dict.get? row col, val with
    | none, none => true
    | some a, some b => strictEq a b
    | _, _ => false
  | .among col vals => (Dict.get? row col).any fun a => vals.any (strictEq · a)

def applyFilters (rows : List Dict) (filters : List Filter) : List Dict :=
  rows.filter fun r => filters.all (·.admits r)

def adapterTables : List String :=
  ["alert_rules", "integrations", "redaction_rules", "api_tokens", "team_members", "workspace_settings"]

def Filter.idVal : Filter → Option (Option Json)
  | .eq "id" val => some val
  | _ => none

/-- The collector as the page reaches it: `who` its key stands for, `string` is `String(v)`, `sent`
the request with a row as its body, and `unrouted` the answer to a path that no route takes. -/
structure Collector where
  py : Python
  env : Env
  who : Principal
  string : Json → String
  sent : Dict → Body
  unrouted : String → Failure

def routed (id : String) : Bool := id != "" && id != "." && id != ".." && !id.toList.contains '/'

def unreserved (b : UInt8) : Bool :=
  let ch := Char.ofNat b.toNat
  ch.isAlphanum || "-_.!~*()".toList.contains ch || b == 39

def encodeURIComponent (s : String) : String :=
  String.ofList <| s.toUTF8.data.toList.flatMap fun b =>
    if unreserved b then [Char.ofNat b.toNat]
    else ['%', "0123456789ABCDEF".toList.getD (b.toNat / 16) '0', "0123456789ABCDEF".toList.getD (b.toNat % 16) '0']

def http {α : Type} (path : String) : Except Failure α → Except String α
  | .ok res => .ok res
  | .error f =>
    if f.status = 401 then .error "collector requires an API key (401)"
    else .error ("collector " ++ toString f.status ++ " on " ++ path)

variable (c : Collector)

def rowsOf : Json → List Dict
  | .arr rows => rows.filterMap fun
    | .obj d => some d
    | _ => none
  | _ => []

def configList (table : String) (db : Db) : Except String (List Dict) :=
  (http ("/config/" ++ table) (requireRead c.who >>= fun _ => getConfig c.who db table)).map rowsOf

def configUpdate (table : String) (patch : Dict) (id : String) (db : Db) : Except String (Db × Dict) :=
  http ("/config/" ++ table ++ "/" ++ encodeURIComponent id) <|
    if routed id then patchConfig c.py c.env c.who table id (c.sent patch) db else .error (c.unrouted id)

def configDelete (table id : String) (db : Db) : Except String (Db × Dict) :=
  http ("/config/" ++ table ++ "/" ++ encodeURIComponent id) <|
    if routed id then removeConfig c.who table id db else .error (c.unrouted id)

def idText : Option Json → String
  | some v => c.string v
  | none => "undefined"

def idOnly (filters : List Filter) : Option (Option Json) :=
  (filters.findSome? Filter.idVal).filter fun _ => filters.length == 1

def matchingConfigIds (table : String) (filters : List Filter) (db : Db) : Except String (List String) :=
  match idOnly filters with
  | some val => .ok [idText c val]
  | none => (configList c table db).map fun rows =>
    (applyFilters rows filters).map fun r => idText c (Dict.get? r "id")

section Requests

variable (between : ℕ → Db → Db)

def forEachId (serve : String → Db → Except String (Db × Dict)) :
    ℕ → List String → Db → Option Dict → Db × Except String (Option Dict)
  | _, [], db, last => (db, .ok last)
  | i, id :: ids, db, _ =>
    match serve id (between i db) with
    | .error e => (between i db, .error e)
    | .ok (db, row) => forEachId serve (i + 1) ids db (some row)

def runMatching (table : String) (filters : List Filter) (serve : String → Db → Except String (Db × Dict))
    (db : Db) : Db × Except String (Option Dict) :=
  match matchingConfigIds c table filters (between 0 db) with
  | .error e => (between 0 db, .error e)
  | .ok ids => forEachId between serve 1 ids (between 0 db) none

def runUpdate (table : String) (filters : List Filter) (patch : Dict) (db : Db) :
    Db × Except String (Option Dict) :=
  if adapterTables.contains table then runMatching c between table filters (configUpdate c table patch) db
  else (db, .error ("update not supported on " ++ table))

def runDelete (table : String) (filters : List Filter) (db : Db) : Db × Except String (Option Dict) :=
  if adapterTables.contains table then
    let ran := runMatching c between table filters (configDelete c table) db
    (ran.1, ran.2.map fun _ => none)
  else (db, .error ("delete not supported on " ++ table))

end Requests

abbrev KeyedRow := ℕ × ConfigEntityRow

def OneEach (rows : List KeyedRow) : Prop := ∀ r ∈ rows, ∀ r' ∈ rows, r.2.entityId = r'.2.entityId → r = r'

def edited (edit : ConfigEntityRow → Option ConfigEntityRow) (hit : ConfigEntityRow → Bool) (r : KeyedRow) :
    Option KeyedRow :=
  if hit r.2 then (edit r.2).map (Prod.mk r.1) else some r

variable {c} {clause : ConfigEntityRow → Bool} {edit : ConfigEntityRow → Option ConfigEntityRow}
  {out : ConfigEntityRow → Dict} {serve : String → Db → Except String (Db × Dict)} {db : Db}
  {between : ℕ → Db → Db}

theorem edited_id {hit : ConfigEntityRow → Bool} (hedit : ∀ row row', edit row = some row' → row'.entityId = row.entityId)
    {r r' : KeyedRow} (h : edited edit hit r = some r') : r'.2.entityId = r.2.entityId := by
  rw [edited] at h
  split at h
  · obtain ⟨row, hrow, rfl⟩ := Option.map_eq_some_iff.mp h
    exact hedit r.2 row hrow
  · cases h
    rfl

theorem OneEach.edited {rows : List KeyedRow} (h : OneEach rows) {hit : ConfigEntityRow → Bool}
    (hedit : ∀ row row', edit row = some row' → row'.entityId = row.entityId) :
    OneEach (rows.filterMap (QueryBuilder.edited edit hit)) := by
  intro r hr r' hr' hid
  obtain ⟨s, hs, hsr⟩ := List.mem_filterMap.mp hr
  obtain ⟨s', hs', hsr'⟩ := List.mem_filterMap.mp hr'
  rw [edited_id hedit hsr, edited_id hedit hsr'] at hid
  have heq : s = s' := h s hs s' hs' hid
  rw [heq, hsr'] at hsr
  cases hsr
  rfl

section Rows

variable {table : String} {patch : Dict}

def managed (c : Collector) (table : String) : ConfigEntityRow → Bool :=
  configClause table (configScope c.who).1 (configScope c.who).2

theorem OneEach.find? {rows : List KeyedRow} (h : OneEach rows) {r : KeyedRow} (hr : r ∈ rows) :
    (rows.find? fun r' => r'.2.entityId == r.2.entityId) = some r := by
  cases hfind : rows.find? fun r' => r'.2.entityId == r.2.entityId with
  | none =>
    have hnone := List.find?_eq_none.mp hfind r hr
    simp at hnone
  | some r' =>
    have hid : r'.2.entityId = r.2.entityId := by simpa using List.find?_some hfind
    rw [h r' (List.mem_of_find?_eq_some hfind) r hr hid]

end Rows

section Statements

variable {table : String} {filters : List Filter}

def hit (filters : List Filter) (row : ConfigEntityRow) : Bool := filters.all (·.admits (configToDict row))

def hits (c : Collector) (table : String) (filters : List Filter) (db : Db) : List KeyedRow :=
  (db.configEntities.select (managed c table)).filter fun r => hit filters r.2

def rule (projectId : String) (entityId : String) : ConfigEntityRow :=
  ⟨"alert_rules", entityId, some projectId, "2026-01-01T00:00:00Z", [("enabled", .bool true)]⟩

end Statements

end JvmScout.Dashboard.QueryBuilder
