import JvmScout.Collector.AcknowledgedBatch

namespace JvmScout.Routes

open Models Redaction Security Storage Relational Relational.Table Traverse

variable {py : Python}

inductive Request where
  | ingest (body : Body)
  | config (request : ConfigRequest)
  | removeException (excId : ℤ)
  | deleteAll (confirm : Bool)
  | deleteAllData (confirm : Bool)

def afterwards {α : Type} (db : Db) : Except Failure (Db × α) → Db
  | .ok (db', _) => db'
  | .error _ => db

def handle (env : IngestEnv py) (who : Principal) (db : Db) : Request → Db
  | .ingest body => afterwards db ((ingest env who body db).map fun acc => (acc.db, ()))
  | .config request => afterwards db (handleConfig py env.backend env.toEnv who db request)
  | .removeException excId => afterwards db (removeException who excId db)
  | .deleteAll confirm => afterwards db (deleteAll who confirm db)
  | .deleteAllData confirm => afterwards db (deleteAllData who confirm db)

def foreign {ρ : Type} (column : ρ → Option String) (p : String) (row : ρ) : Bool :=
  !owned column (some p) row

structure ForeignUnchanged (p : String) (db db' : Db) : Prop where
  exceptions : Agree (foreign ExceptionRow.projectId p) db.exceptions db'.exceptions
  jvmInstances : Agree (foreign JvmInstanceRow.projectId p) db.jvmInstances.toTable db'.jvmInstances.toTable
  sourceClasses : Agree (foreign SourceClassRow.projectId p) db.sourceClasses db'.sourceClasses
  configEntities : Agree (foreign ConfigEntityRow.projectId p) db.configEntities db'.configEntities

theorem foreign_eq_false {ρ : Type} {column : ρ → Option String} {p : String} {row : ρ} :
    foreign column p row = false ↔ column row = some p := by
  simp [foreign, owned]

theorem foreign_iff {ρ : Type} {column : ρ → Option String} {p : String} {row : ρ} :
    foreign column p row = true ↔ column row ≠ some p := by
  simp [foreign, owned]

theorem ForeignUnchanged.refl (p : String) (db : Db) : ForeignUnchanged p db db :=
  ⟨Agree.refl _ _, Agree.refl _ _, Agree.refl _ _, Agree.refl _ _⟩

theorem ForeignUnchanged.trans {p : String} {db db' db'' : Db} (h : ForeignUnchanged p db db')
    (h' : ForeignUnchanged p db' db'') : ForeignUnchanged p db db'' :=
  ⟨h.exceptions.trans h'.exceptions, h.jvmInstances.trans h'.jvmInstances,
    h.sourceClasses.trans h'.sourceClasses, h.configEntities.trans h'.configEntities⟩

section Deletions

variable {p : String} {db : Db}

theorem deleteException_foreign (excId : ℕ) :
    ForeignUnchanged p db (deleteException excId (some p) db).1 := by
  unfold deleteException
  split
  · exact .refl p db
  · rename_i row hrow
    split
    · exact .refl p db
    · rename_i hown
      have hp : row.projectId = some p := by simpa using hown
      refine ⟨agree_erase _ fun w hw => ?_, Agree.refl _ _, Agree.refl _ _, Agree.refl _ _⟩
      cases db.exceptions.key_unique hw ((db.exceptions.lookup_eq_some).mp hrow)
      exact foreign_eq_false.mpr hp

theorem applyProject_foreign {ρ : Type} {column : ρ → Option String} {row : ρ}
    (h : foreign column p row = true) : applyProject column (some p) row = false := by
  rw [foreign_iff] at h
  simp [applyProject, owned, h]

theorem deleteAllExceptions_foreign : ForeignUnchanged p db (deleteAllExceptions (some p) db).1 :=
  ⟨agree_delete _ fun _ => applyProject_foreign, Agree.refl _ _, Agree.refl _ _, Agree.refl _ _⟩

theorem deleteAllInstances_foreign : ForeignUnchanged p db (deleteAllInstances (some p) db).1 :=
  ⟨Agree.refl _ _, agree_delete _ fun _ => applyProject_foreign, Agree.refl _ _, Agree.refl _ _⟩

theorem deleteAllSourceClasses_foreign : ForeignUnchanged p db (deleteAllSourceClasses (some p) db).1 :=
  ⟨Agree.refl _ _, Agree.refl _ _, agree_delete _ fun _ => applyProject_foreign, Agree.refl _ _⟩

end Deletions

section Config

variable {backend : Backend} {env : Env} {t : Tenant} {db db' : Db} {out : Dict}

theorem configEntities_foreign {table : Table ConfigEntityRow} {p : String}
    (h : Agree (foreign ConfigEntityRow.projectId p) db.configEntities table) :
    ForeignUnchanged p db { db with configEntities := table } :=
  ⟨Agree.refl _ _, Agree.refl _ _, Agree.refl _ _, h⟩

theorem findConfig_owned {p table entityId : String} {k : ℕ} {row : ConfigEntityRow}
    (h : findConfig table entityId (some p) false db = some (k, row)) :
    ∀ w, (k, w) ∈ db.configEntities.rows → foreign ConfigEntityRow.projectId p w = false := by
  obtain ⟨hm, hclause⟩ := findConfig_eq_some h
  intro w hw
  cases db.configEntities.key_unique hw hm
  simp only [configClause, Bool.false_or, Bool.and_eq_true] at hclause
  rw [foreign, hclause.2, Bool.not_true]

theorem handleConfig_foreign {request : ConfigRequest}
    (h : handleConfig py backend env t.principal db request = .ok (db', out)) :
    ForeignUnchanged t.project db db' := by
  cases request with
  | createToken body =>
    obtain ⟨name, raw, role, rfl⟩ := createToken_ok h
    exact configEntities_foreign (agree_insert _ (foreign_eq_false.mpr rfl))
  | createConfig table body =>
    obtain ⟨payload, -, rfl⟩ := createConfig_ok h
    exact configEntities_foreign (agree_insert _ (foreign_eq_false.mpr rfl))
  | patchConfig table entityId body =>
    obtain ⟨payload, k, row, -, hf, rfl⟩ := patchConfig_ok h
    have hown := findConfig_owned hf
    have hrow : foreign ConfigEntityRow.projectId t.project (patched row payload) = false :=
      hown row (findConfig_eq_some hf).1
    exact configEntities_foreign (agree_set _ hrow hown)
  | removeConfig table entityId =>
    obtain ⟨k, row, hf, rfl⟩ := removeConfig_ok h
    exact configEntities_foreign (agree_erase _ (findConfig_owned hf))

end Config

section Stores

variable {p : String} {db db' : Db} {now : ℕ}

theorem storeAgentStart_foreign {ev : AgentStartEvent} {raw : Dict}
    (h : storeAgentStart now ev raw (some p) db = .ok db') : ForeignUnchanged p db db' := by
  unfold storeAgentStart at h
  split at h
  · rename_i k existing hf
    split at h
    · cases h
    · rename_i hown
      cases h
      have hp : existing.projectId = some p := by simpa using hown
      have hfind := List.find?_some hf
      simp only [beq_iff_eq] at hfind
      have hmem := List.mem_of_find?_eq_some hf
      refine ⟨Agree.refl _ _, agree_mapRows _ fun r hr => ?_, Agree.refl _ _, Agree.refl _ _⟩
      by_cases hid : r.2.instanceId = ev.instanceId.getD ""
      · -- the instance id is unique, so the row refreshed is the one looked up
        have hsame : r = (k, existing) := by
          apply db.jvmInstances.column_unique hr hmem
          exact hid.trans hfind.symm
        subst hsame
        refine .inr ⟨foreign_eq_false.mpr hp, foreign_eq_false.mpr ?_⟩
        split <;> exact hp
      · exact .inl (by simp [hid])
  · cases h
    exact ⟨Agree.refl _ _, agree_insert _ (foreign_eq_false.mpr rfl), Agree.refl _ _, Agree.refl _ _⟩

theorem storeSourceClass_foreign {backend : Backend} {className bytecodeB64 : Json}
    (h : storeSourceClass backend now (some p) className bytecodeB64 db = .ok db') :
    ForeignUnchanged p db db' := by
  unfold storeSourceClass at h
  split at h
  · split at h
    · split at h
      · rename_i k existing hf
        cases h
        have hclause := List.find?_some hf
        have hmem := List.mem_of_find?_eq_some hf
        have hp : existing.projectId = some p := by
          simp only [classClause, applyProject, owned, Option.isNone_some, Bool.false_or,
            Bool.and_eq_true, beq_iff_eq] at hclause
          exact hclause.2
        refine ⟨Agree.refl _ _, Agree.refl _ _, agree_set _ (foreign_eq_false.mpr hp) ?_, Agree.refl _ _⟩
        intro w hw
        cases db.sourceClasses.key_unique hw hmem
        exact foreign_eq_false.mpr hp
      · cases h
        exact ⟨Agree.refl _ _, Agree.refl _ _, agree_insert _ (foreign_eq_false.mpr rfl), Agree.refl _ _⟩
    · cases h
  · cases h
    exact .refl p db

theorem foldl_foreign {ing : Ingestion py} (hp : ing.projectId = some p) (xs : List (Json × ℕ))
    (acc : Intake) : ForeignUnchanged p acc.db (xs.foldl (ingestItem ing) acc).db := by
  have stored (i : ℕ) (broadcasts : List Broadcast) (acc : Intake) (f : Option PyError)
      (r : Except PyError Db) (hr : ∀ db', r = .ok db' → ForeignUnchanged p acc.db db') :
      ForeignUnchanged p acc.db (acc.store i broadcasts (faulty f r)).db := by
    cases f with
    | some e => exact .refl p _
    | none =>
      cases r with
      | ok db' => exact hr db' rfl
      | error e => exact .refl p _
  induction xs generalizing acc with
  | nil => exact .refl p acc.db
  | cons x xs ih =>
    refine ForeignUnchanged.trans ?_ (ih (ingestItem ing acc x))
    unfold ingestItem
    rw [hp]
    split
    · exact .refl p acc.db
    · exact stored _ _ _ _ _ fun db' h => storeAgentStart_foreign h
    · exact stored _ _ _ _ _ fun db' h => storeSourceClass_foreign h
    · exact .refl p acc.db

end Stores

section Touch

variable {p : String} {db : Db} {now : ℕ} {events : List (ExceptionEvent × Dict)}

def NamesForeign (p : String) (now : ℕ) (events : List (ExceptionEvent × Dict)) (db : Db) : Prop :=
  ∃ e ∈ events, ∃ instanceId, e.1.instanceId = some instanceId ∧ instanceId ≠ "" ∧
    ∃ r ∈ db.jvmInstances.rows, r.2.instanceId = instanceId ∧ r.2.projectId ≠ some p ∧
      r.2.receivedAt ≠ now

theorem mem_instanceIds {id : String} :
    id ∈ instanceIds events ↔ ∃ e ∈ events, e.1.instanceId = some id ∧ id ≠ "" := by
  simp only [instanceIds, List.mem_filterMap, Option.filter_eq_some_iff, decide_eq_true_eq]

theorem touch_foreign_iff : Agree (foreign JvmInstanceRow.projectId p) db.jvmInstances.toTable
      (touch now (instanceIds events) db.jvmInstances).toTable ↔ ¬ NamesForeign p now events db := by
  have unmoved : ∀ (k : ℕ) (row : JvmInstanceRow), foreign JvmInstanceRow.projectId p
      (if (instanceIds events).contains row.instanceId then { row with receivedAt := now } else row) =
        foreign JvmInstanceRow.projectId p row := by
    intro k row
    split <;> rfl
  have fixed (row : JvmInstanceRow) :
      (if (instanceIds events).contains row.instanceId then { row with receivedAt := now } else row) = row ↔
        (row.instanceId ∈ instanceIds events → row.receivedAt = now) := by
    by_cases hc : row.instanceId ∈ instanceIds events
    · simp only [List.contains_iff_mem, hc, if_true, true_implies]
      constructor
      · intro h
        rw [← h]
      · rintro rfl
        rfl
    · simp [hc]
  have hmap : (touch now (instanceIds events) db.jvmInstances).toTable = db.jvmInstances.toTable.mapRows
      fun _ row => if (instanceIds events).contains row.instanceId then { row with receivedAt := now } else row :=
    rfl
  rw [hmap, agree_mapRows_iff _ unmoved]
  simp only [fixed, foreign_iff]
  constructor
  · rintro h ⟨e, he, id, hid, hne, r, hr, rfl, hp, hnow⟩
    exact hnow (h r hr hp (mem_instanceIds.mpr ⟨e, he, hid, hne⟩))
  · intro h r hr hp hmem
    obtain ⟨e, he, hid, hne⟩ := mem_instanceIds.mp hmem
    by_contra hnow
    exact h ⟨e, he, r.2.instanceId, hid, hne, r, hr, rfl, hp, hnow⟩

theorem addExceptions_foreign_iff : ForeignUnchanged p db (addExceptions now events (some p) db).1 ↔
      ¬ NamesForeign p now events db := by
  constructor
  · exact fun h => touch_foreign_iff.mp h.jvmInstances
  · intro h
    refine ⟨agree_insertAll _ fun row hrow => ?_, touch_foreign_iff.mpr h, Agree.refl _ _, Agree.refl _ _⟩
    obtain ⟨e, -, rfl⟩ := List.mem_map.mp hrow
    exact foreign_eq_false.mpr rfl

theorem namesForeign_congr {db' : Db} (h : ForeignUnchanged p db db') :
    NamesForeign p now events db' ↔ NamesForeign p now events db := by
  have rows {r : ℕ × JvmInstanceRow} (hp : r.2.projectId ≠ some p) :
      r ∈ db.jvmInstances.rows ↔ r ∈ db'.jvmInstances.rows := h.jvmInstances r (foreign_iff.mpr hp)
  constructor
  · rintro ⟨e, he, id, hid, hne, r, hr, hrid, hp, hnow⟩
    exact ⟨e, he, id, hid, hne, r, (rows hp).mpr hr, hrid, hp, hnow⟩
  · rintro ⟨e, he, id, hid, hne, r, hr, hrid, hp, hnow⟩
    exact ⟨e, he, id, hid, hne, r, (rows hp).mp hr, hrid, hp, hnow⟩

end Touch

def TouchesForeign (env : IngestEnv py) (t : Tenant) (db : Db) (request : Request) : Prop :=
  ∃ body ing items, request = .ingest body ∧ admitted env t.principal body = .ok (ing, items) ∧
    ing.faults.batch = none ∧ AllFit ing items ∧
    NamesForeign t.project env.now ((exceptionItems ing.rules items.zipIdx).map Prod.snd) db

theorem ingestItems_foreign_iff {ing : Ingestion py} {p : String} (hp : ing.projectId = some p)
    (items : List Json) (db : Db) : ForeignUnchanged p db (ingestItems ing items db).db ↔
      ¬ (ing.faults.batch = none ∧ AllFit ing items ∧
        NamesForeign p ing.now ((exceptionItems ing.rules items.zipIdx).map Prod.snd) db) := by
  have hloop := foldl_foreign hp items.zipIdx (.start db)
  have hbatch := (tally_foldl ing db items.zipIdx).batch
  change ForeignUnchanged p db _ at hloop
  rw [ingestItems, storeBatch, hbatch]
  split
  · rename_i hempty
    apply iff_of_true hloop
    rintro ⟨-, -, e, he, -⟩
    rw [hempty] at he
    cases he
  · split
    · rename_i e hstore
      apply iff_of_true hloop
      rintro ⟨hf, hfit, -⟩
      rw [hf, faulty, storeExceptions_ok.mpr ⟨(allFit_iff ing items).mpr hfit, rfl⟩] at hstore
      cases hstore
    · rename_i db' rowIds hstore
      have hf : ing.faults.batch = none := (faulty_ok hstore).1
      rw [hf, faulty, storeExceptions_ok, hp] at hstore
      obtain ⟨hfits, hadded⟩ := hstore
      have hall : AllFit ing items := (allFit_iff ing items).mp (hp ▸ hfits)
      have hdb : db' = (addExceptions ing.now ((exceptionItems ing.rules items.zipIdx).map Prod.snd) (some p)
          (items.zipIdx.foldl (ingestItem ing) (.start db)).db).1 := by rw [hadded]
      have hiff : ForeignUnchanged p db db' ↔ ForeignUnchanged p
          (items.zipIdx.foldl (ingestItem ing) (.start db)).db db' := by
        constructor
        · intro h
          exact ⟨hloop.exceptions.symm.trans h.exceptions, hloop.jvmInstances.symm.trans h.jvmInstances,
            hloop.sourceClasses.symm.trans h.sourceClasses, hloop.configEntities.symm.trans h.configEntities⟩
        · exact fun h => hloop.trans h
      simp only [hf, hall, true_and]
      rw [hiff, hdb, addExceptions_foreign_iff, namesForeign_congr hloop]

theorem admit_ok {env : IngestEnv py} {t : Tenant} {body : Body} {ing : Ingestion py} {items : List Json}
    (h : admitted env t.principal body = .ok (ing, items)) :
    ing.projectId = some t.project ∧ ing.now = env.now := by
  simp only [admitted, bind_eq_ok] at h
  obtain ⟨-, -, h⟩ := h
  split at h
  · simp only [bind_eq_ok, pure_eq_ok] at h
    obtain ⟨payload, -, rules, -, h⟩ := h
    cases h
    exact ⟨rfl, rfl⟩
  · cases h

theorem handle_ingest (env : IngestEnv py) (who : Principal) (db : Db) (body : Body) :
    handle env who db (.ingest body) =
      match admitted env who body with
      | .ok (ing, items) => (ingestItems ing items db).db
      | .error _ => db := by
  cases h : admitted env who body <;>
    simp [handle, ingest, h, bind, Except.bind, pure, Except.pure, Except.map, afterwards]

/-- A tenant's request leaves every row of other projects as it was, unless it is an
ingest that touches an instance of theirs. -/
theorem foreign_unchanged_iff (env : IngestEnv py) (t : Tenant) (db : Db) (request : Request) :
    ForeignUnchanged t.project db (handle env t.principal db request) ↔
      ¬ TouchesForeign env t db request := by
  have untouched (h : ForeignUnchanged t.project db (handle env t.principal db request))
      (hr : ∀ body, request ≠ .ingest body) :
      ForeignUnchanged t.project db (handle env t.principal db request) ↔
        ¬ TouchesForeign env t db request := by
    apply iff_of_true h
    rintro ⟨body, _, _, heq, -⟩
    exact hr body heq
  cases request with
  | ingest body =>
    rw [handle_ingest]
    cases ha : admitted env t.principal body with
    | error f =>
      apply iff_of_true (.refl t.project db)
      rintro ⟨body', ing, items, heq, hadmit, -⟩
      cases heq
      rw [ha] at hadmit
      cases hadmit
    | ok r =>
      obtain ⟨ing, items⟩ := r
      obtain ⟨hp, hnow⟩ := admit_ok ha
      dsimp only
      rw [ingestItems_foreign_iff hp items db, hnow]
      refine not_congr ⟨?_, ?_⟩
      · rintro ⟨hf, hfit, hnames⟩
        exact ⟨body, ing, items, rfl, ha, hf, hfit, hnames⟩
      · rintro ⟨body', ing', items', heq, hadmit, hf, hfit, hnames⟩
        cases heq
        cases ha.symm.trans hadmit
        exact ⟨hf, hfit, hnames⟩
  | config request =>
    refine untouched ?_ (by simp)
    change ForeignUnchanged t.project db
      (afterwards db (handleConfig py env.backend env.toEnv t.principal db request))
    cases hr : handleConfig py env.backend env.toEnv t.principal db request with
    | error f => exact .refl t.project db
    | ok r => exact handleConfig_foreign hr
  | removeException excId =>
    refine untouched ?_ (by simp)
    unfold handle removeException requireAdmin
    by_cases hadmin : t.principal.canAdmin = true
    · simp only [hadmin, if_true, bind, Except.bind]
      split
      · exact .refl _ db
      · split
        · exact deleteException_foreign excId.toNat
        · exact .refl _ db
    · simp only [hadmin]
      exact .refl _ db
  | deleteAll confirm =>
    refine untouched ?_ (by simp)
    unfold handle deleteAll requireAdmin
    by_cases hadmin : t.principal.canAdmin = true
    · simp only [hadmin, if_true, bind, Except.bind]
      split
      · exact deleteAllExceptions_foreign
      · exact .refl _ db
    · simp only [hadmin]
      exact .refl _ db
  | deleteAllData confirm =>
    refine untouched ?_ (by simp)
    unfold handle deleteAllData requireAdmin
    by_cases hadmin : t.principal.canAdmin = true
    · simp only [hadmin, if_true, bind, Except.bind]
      split
      · exact deleteAllExceptions_foreign.trans (deleteAllInstances_foreign.trans deleteAllSourceClasses_foreign)
      · exact .refl _ db
    · simp only [hadmin]
      exact .refl _ db

def globexRow : JvmInstanceRow where
  receivedAt := 5
  timestamp := none
  instanceId := "i1"
  projectId := some "globex"
  deploymentId := none
  hostName := none
  jvmVersion := none
  jvmVendor := none
  osName := none
  kubernetes := none
  rawJson := []

def globexDb : Db :=
  { Db.empty with jvmInstances := UniqueTable.empty.insert globexRow fun r hr => by cases hr }

def laterEnv : IngestEnv Python.literal := { lockedEnv with now := 9, faults := .none }

def namingEvent : Body :=
  ⟨none, 40, .json (.obj [("fingerprint", .str "f1"), ("instanceId", .str "i1")])⟩

theorem event_touches_foreign_instance :
    (1, globexRow) ∈ globexDb.jvmInstances.rows ∧ globexRow.projectId ≠ some acme.project ∧
      (1, { globexRow with receivedAt := 9 }) ∈
        (handle laterEnv acme.principal globexDb (.ingest namingEvent)).jvmInstances.rows ∧
      ¬ ForeignUnchanged acme.project globexDb
        (handle laterEnv acme.principal globexDb (.ingest namingEvent)) := by
  have hafter : (handle laterEnv acme.principal globexDb (.ingest namingEvent)).jvmInstances.rows =
      [(1, { globexRow with receivedAt := 9 })] := rfl
  refine ⟨List.mem_singleton_self _, by decide, by rw [hafter]; exact List.mem_singleton_self _, fun h => ?_⟩
  have hmem := (h.jvmInstances (1, globexRow) (by decide)).mp (List.mem_singleton_self _)
  rw [hafter, List.mem_singleton] at hmem
  have hclock : (5 : ℕ) = 9 := congrArg (fun r => r.2.receivedAt) hmem
  omega

end JvmScout.Routes
