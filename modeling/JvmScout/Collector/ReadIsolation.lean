import JvmScout.Collector.Queries

namespace JvmScout.Routes

open Storage Security Relational Relational.Table

structure SameRows (p : String) (db₁ db₂ : Db) : Prop where
  exceptions : Agree (owned ExceptionRow.projectId (some p)) db₁.exceptions db₂.exceptions
  jvmInstances : Agree (owned JvmInstanceRow.projectId (some p)) db₁.jvmInstances.toTable
    db₂.jvmInstances.toTable
  sourceClasses : Agree (owned SourceClassRow.projectId (some p)) db₁.sourceClasses db₂.sourceClasses
  configEntities : Agree (owned ConfigEntityRow.projectId (some p)) db₁.configEntities db₂.configEntities

theorem applyProject_some {ρ : Type} (column : ρ → Option String) (p : String) :
    applyProject column (some p) = owned column (some p) := rfl

theorem getException_eq (excId : ℕ) (p : String) (db : Db) : getException excId (some p) db =
    ((db.exceptions.lookup excId).filter (owned ExceptionRow.projectId (some p))).map
      ExceptionRow.rawJson := by
  unfold getException
  cases db.exceptions.lookup excId with
  | none => rfl
  | some row => by_cases ho : row.projectId = some p <;> simp [owned, ho, Option.filter]

theorem getInstance_eq (instanceId p : String) (db : Db) : getInstance instanceId (some p) db =
    ((findInstance instanceId db).filter fun r => owned JvmInstanceRow.projectId (some p) r.2).map
      fun r => r.2.rawJson := by
  unfold getInstance
  cases findInstance instanceId db with
  | none => rfl
  | some r => by_cases ho : r.2.projectId = some p <;> simp [owned, ho, Option.filter]

section Narrowing

variable {p : String} {row : ExceptionRow}

theorem listClause_owned {f : ExceptionFilter} (h : listClause f (some p) row = true) :
    owned ExceptionRow.projectId (some p) row = true := by
  simp only [listClause, Bool.and_eq_true] at h
  exact h.1.1.1.1.1

theorem windowClause_owned {start : ℚ} {environment : Option String}
    (h : windowClause start environment (some p) row = true) :
    owned ExceptionRow.projectId (some p) row = true := by
  simp only [windowClause, Bool.and_eq_true] at h
  exact h.2

theorem uncaughtClause_owned (h : uncaughtClause (some p) row = true) :
    owned ExceptionRow.projectId (some p) row = true := by
  simp only [uncaughtClause, Bool.and_eq_true] at h
  exact h.1

end Narrowing

section Queries

variable {p : String} {db₁ db₂ : Db} (h : SameRows p db₁ db₂)
include h

theorem listExceptions_same (limit offset : ℕ) (f : ExceptionFilter) :
    listExceptions limit offset f (some p) db₁ = listExceptions limit offset f (some p) db₂ := by
  have hselect : db₁.exceptions.select (listClause f (some p)) =
      db₂.exceptions.select (listClause f (some p)) := by
    apply h.exceptions.select_of_imp
    exact fun row => listClause_owned
  rw [listExceptions, listExceptions, Table.count, Table.count, hselect]

theorem getException_same (excId : ℕ) :
    getException excId (some p) db₁ = getException excId (some p) db₂ := by
  rw [getException_eq, getException_eq, h.exceptions.lookup_filter]

theorem stats_same : stats (some p) db₁ = stats (some p) db₂ := by
  have huncaught : db₁.exceptions.select (uncaughtClause (some p)) =
      db₂.exceptions.select (uncaughtClause (some p)) := by
    apply h.exceptions.select_of_imp
    exact fun row => uncaughtClause_owned
  simp only [stats, Table.count, huncaught, inScope, applyProject_some, h.exceptions.select,
    h.jvmInstances.select]

theorem windowRows_same (start : ℚ) (environment : Option String) :
    db₁.exceptions.select (windowClause start environment (some p)) =
      db₂.exceptions.select (windowClause start environment (some p)) := by
  apply h.exceptions.select_of_imp
  exact fun row => windowClause_owned

theorem timeseries_same (clock : ℚ) (hours buckets : ℕ) (environment : Option String) :
    timeseries clock hours buckets environment (some p) db₁ =
      timeseries clock hours buckets environment (some p) db₂ := by
  simp only [timeseries, timeseriesSlots, windowRows_same h]

theorem eventSeries_same (clock : ℚ) (hours buckets : ℕ) (environment : Option String) :
    eventSeries clock hours buckets environment (some p) db₁ =
      eventSeries clock hours buckets environment (some p) db₂ := by
  simp only [eventSeries, eventCounts, windowRows_same h]

theorem getSourceClass_same (className : String) :
    getSourceClass className (some p) db₁ = getSourceClass className (some p) db₂ := by
  have hselect : db₁.sourceClasses.select (classClause className (some p)) =
      db₂.sourceClasses.select (classClause className (some p)) := by
    apply h.sourceClasses.select_of_imp
    intro row hrow
    simp only [classClause, Bool.and_eq_true] at hrow
    exact hrow.2
  rw [getSourceClass, getSourceClass, hselect]

theorem listInstances_same : listInstances (some p) db₁ = listInstances (some p) db₂ := by
  rw [listInstances, listInstances, applyProject_some, h.jvmInstances.select]

theorem getInstance_same (instanceId : String) :
    getInstance instanceId (some p) db₁ = getInstance instanceId (some p) db₂ := by
  rw [getInstance_eq, getInstance_eq, findInstance, findInstance,
    UniqueTable.lookup_filter h.jvmInstances]

theorem listConfig_same (table : String) :
    listConfig table (some p) false db₁ = listConfig table (some p) false db₂ := by
  have hselect : db₁.configEntities.select (configClause table (some p) false) =
      db₂.configEntities.select (configClause table (some p) false) := by
    apply h.configEntities.select_of_imp
    intro row hrow
    simp only [configClause, Bool.false_or, Bool.and_eq_true] at hrow
    exact hrow.2
  rw [listConfig, listConfig, hselect]

theorem attachSource_same (py : Python) (decompiler : Decompiler) (ev : Dict) :
    attachSource py decompiler (some p) db₁ ev = attachSource py decompiler (some p) db₂ ev := by
  have hframe : attachFrame py decompiler (some p) db₁ = attachFrame py decompiler (some p) db₂ := by
    funext f
    simp only [attachFrame, getSourceClass_same h]
  have hframes : attachFrames py decompiler (some p) db₁ = attachFrames py decompiler (some p) db₂ := by
    funext frames
    simp only [attachFrames, hframe]
  simp only [attachSource, hframes]

end Queries

/-- Two databases that hold the same rows of a project answer its principals alike. -/
theorem reads_are_isolated (py : Python) (decompiler : Decompiler) (clock : ℚ) (t : Tenant) {db₁ db₂ : Db}
    (h : SameRows t.project db₁ db₂) :
    (∀ request, respond py decompiler clock t.principal db₁ request =
        respond py decompiler clock t.principal db₂ request) ∧
      ∀ className, getSourceClass className t.principal.scope db₁ =
        getSourceClass className t.principal.scope db₂ := by
  refine ⟨fun request => ?_, getSourceClass_same h⟩
  cases request with
  | exceptions limit offset f =>
    simp only [respond, getExceptions, Tenant.scope_principal, listExceptions_same h]
  | exception excId =>
    simp only [respond, getExceptionDetail, Tenant.scope_principal, getException_same h,
      attachSource_same h]
  | stats => simp only [respond, Tenant.scope_principal, stats_same h]
  | timeseries hours buckets environment =>
    simp only [respond, getTimeseries, Tenant.scope_principal, timeseries_same h]
  | eventSeries hours buckets environment =>
    simp only [respond, getEventSeries, Tenant.scope_principal, eventSeries_same h]
  | jvmInfo => simp only [respond, Tenant.scope_principal, listInstances_same h]
  | jvmInfoOne instanceId => simp only [respond, Tenant.scope_principal, getInstance_same h]
  | config table =>
    simp only [respond, getConfig, configScope, Tenant.isMaster_principal, Tenant.projectId_principal,
      Bool.false_eq_true, if_false, listConfig_same h]

def sharedStore : Db :=
  { acmeTokens with
    exceptions := (Table.empty.insert (countedRow 5 "f1" 1 none (some "globex"))).insert
      (countedRow 6 "f1" 3 none none) }

def noDecompiler : Decompiler := ⟨false, fun _ _ => none, fun _ _ _ => .error .typeError⟩

theorem acme_reads_are_isolated :
    (∀ request, respond Python.literal noDecompiler 60 acme.principal acmeTokens request =
        respond Python.literal noDecompiler 60 acme.principal sharedStore request) ∧
      ∀ className, getSourceClass className acme.principal.scope acmeTokens =
        getSourceClass className acme.principal.scope sharedStore := by
  apply reads_are_isolated
  refine ⟨?_, Agree.refl _ _, Agree.refl _ _, Agree.refl _ _⟩
  exact (agree_insert _ (by decide)).trans (agree_insert _ (by decide))

end JvmScout.Routes
