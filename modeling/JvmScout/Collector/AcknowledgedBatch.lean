import JvmScout.Collector.IngestBatch

namespace JvmScout.Routes

open Models Redaction Security Storage Relational Traverse

variable {py : Python}

/-! ### What the calls of the loop write -/

section Calls

variable {now : ℕ} {projectId : Option String} {db db' : Db}

def ShowsStart (now : ℕ) (projectId : Option String) (ev : AgentStartEvent) (raw : Dict) (row : JvmInstanceRow) :
    Prop :=
  row.instanceId = ev.instanceId.getD "" ∧ applyProject JvmInstanceRow.projectId projectId row = true ∧
    row.receivedAt = now ∧ row.rawJson = raw ∧ row.timestamp = ev.timestamp

def HoldsStart (now : ℕ) (projectId : Option String) (ev : AgentStartEvent) (raw : Dict) (db : Db) : Prop :=
  ∃ r ∈ db.jvmInstances.rows, ShowsStart now projectId ev raw r.2

def HeldByAnother (projectId : Option String) (ev : AgentStartEvent) (db : Db) : Prop :=
  ∃ r ∈ db.jvmInstances.rows, r.2.instanceId = ev.instanceId.getD "" ∧
    applyProject JvmInstanceRow.projectId projectId r.2 = false

def HoldsClass (now : ℕ) (projectId : Option String) (name code : String) (db : Db) : Prop :=
  ∃ r ∈ db.sourceClasses.rows, classClause name projectId r.2 = true ∧ r.2.receivedAt = now ∧ r.2.bytecodeB64 = code

theorem applyProject_eq_true {ρ : Type} {column : ρ → Option String} {row : ρ} :
    applyProject column projectId row = true ↔ ¬ (projectId ≠ none ∧ column row ≠ projectId) := by
  cases projectId <;> simp [applyProject, owned]

variable {ev : AgentStartEvent} {raw : Dict}

theorem holdsStart_storeAgentStart (h : storeAgentStart now ev raw projectId db = .ok db') :
    HoldsStart now projectId ev raw db' := by
  unfold storeAgentStart at h
  split at h
  · rename_i k existing hfound
    split at h
    · cases h
    · rename_i hown
      cases h
      obtain ⟨hrow, hid⟩ := (UniqueTable.lookup_eq_some _).mp hfound
      refine ⟨(k, { existing with rawJson := raw, timestamp := ev.timestamp, receivedAt := now }), ?_, hid,
        applyProject_eq_true.mpr hown, rfl, rfl, rfl⟩
      refine (Table.mem_update _).mpr ⟨existing, hrow, ?_⟩
      rw [if_pos (beq_iff_eq.mpr hid)]
  · cases h
    refine ⟨_, Table.mem_rows_insert.mpr (.inr rfl), rfl, ?_, rfl, rfl, rfl⟩
    exact applyProject_eq_true.mpr fun hne => hne.2 rfl

theorem mem_storeAgentStart (h : storeAgentStart now ev raw projectId db = .ok db') {r : ℕ × JvmInstanceRow}
    (hr : r ∈ db.jvmInstances.rows) (hid : r.2.instanceId ≠ ev.instanceId.getD "") :
    r ∈ db'.jvmInstances.rows := by
  obtain ⟨t, rfl, ⟨_, -, rfl⟩ | ⟨-, hinsert⟩⟩ := storeAgentStart_cases h
  · refine (Table.mem_update _).mpr ⟨r.2, hr, ?_⟩
    rw [if_neg (by simpa using hid)]
  · change r ∈ t.toTable.rows
    rw [hinsert]
    exact Table.mem_rows_insert.mpr (.inl hr)

theorem rows_storeAgentStart (h : storeAgentStart now ev raw projectId db = .ok db') {r : ℕ × JvmInstanceRow}
    (hr : r ∈ db'.jvmInstances.rows) :
    r.2.projectId = projectId ∨ ∃ r₀ ∈ db.jvmInstances.rows, r₀.2.instanceId = r.2.instanceId ∧
      r₀.2.projectId = r.2.projectId := by
  obtain ⟨t, rfl, ⟨_, -, rfl⟩ | ⟨-, hinsert⟩⟩ := storeAgentStart_cases h
  · obtain ⟨w, hw, hrow⟩ := (Table.mem_update _).mp hr
    refine .inr ⟨(r.1, w), hw, ?_⟩
    rw [hrow]
    split
    · exact ⟨rfl, rfl⟩
    · exact ⟨rfl, rfl⟩
  · change r ∈ t.toTable.rows at hr
    rw [hinsert] at hr
    rcases Table.mem_rows_insert.mp hr with hold | rfl
    · exact .inr ⟨r, hold, rfl, rfl⟩
    · exact .inl rfl

theorem heldByAnother_of_error {e : PyError} (h : storeAgentStart now ev raw projectId db = .error e) :
    HeldByAnother projectId ev db := by
  unfold storeAgentStart at h
  split at h
  · rename_i k existing hfound
    obtain ⟨hrow, hid⟩ := (UniqueTable.lookup_eq_some _).mp hfound
    split at h
    · rename_i hother
      refine ⟨(k, existing), hrow, hid, ?_⟩
      rw [← Bool.not_eq_true, applyProject_eq_true, not_not]
      exact hother
    · cases h
  · cases h

variable {backend : Backend} {className bytecodeB64 : Json}

theorem storeSourceClass_cases (hname : className.truthy = true) (hcode : bytecodeB64.truthy = true)
    (h : storeSourceClass backend now projectId className bytecodeB64 db = .ok db') :
    ∃ name code, backend.bindText className = some name ∧ backend.bindText bytecodeB64 = some code ∧
      ((∃ k existing, (k, existing) ∈ db.sourceClasses.rows ∧ classClause name projectId existing = true ∧
          db'.sourceClasses = db.sourceClasses.set k { existing with bytecodeB64 := code, receivedAt := now }) ∨
        db'.sourceClasses = db.sourceClasses.insert ⟨projectId, name, now, code⟩) := by
  unfold storeSourceClass at h
  rw [hname, hcode, Bool.and_self, if_pos rfl] at h
  split at h
  · rename_i name code hbindName hbindCode
    refine ⟨name, code, hbindName, hbindCode, ?_⟩
    split at h
    · rename_i k existing hfound
      have hclause := List.find?_some hfound
      cases h
      exact .inl ⟨k, existing, List.mem_of_find?_eq_some hfound, hclause, rfl⟩
    · cases h
      exact .inr rfl
  · cases h

theorem holdsClass_storeSourceClass (hname : className.truthy = true) (hcode : bytecodeB64.truthy = true)
    (h : storeSourceClass backend now projectId className bytecodeB64 db = .ok db') :
    ∃ name code, backend.bindText className = some name ∧ backend.bindText bytecodeB64 = some code ∧
      HoldsClass now projectId name code db' := by
  obtain ⟨name, code, hbindName, hbindCode, hset | hinsert⟩ := storeSourceClass_cases hname hcode h
  · obtain ⟨k, existing, hrow, hclause, hset⟩ := hset
    refine ⟨name, code, hbindName, hbindCode, (k, { existing with bytecodeB64 := code, receivedAt := now }), ?_,
      hclause, rfl, rfl⟩
    rw [hset]
    exact (Table.mem_set _).mpr ⟨existing, hrow, by rw [if_pos rfl]⟩
  · refine ⟨name, code, hbindName, hbindCode, (db.sourceClasses.nextKey, ⟨projectId, name, now, code⟩), ?_, ?_, rfl, rfl⟩
    · rw [hinsert]
      exact Table.mem_rows_insert.mpr (.inr rfl)
    · rw [classClause, beq_self_eq_true, Bool.true_and]
      exact applyProject_eq_true.mpr fun hne => hne.2 rfl

theorem mem_storeSourceClass (h : storeSourceClass backend now projectId className bytecodeB64 db = .ok db')
    {name : String} {r : ℕ × SourceClassRow}
    (hother : ¬ (backend.bindText className = some name ∧ className.truthy = true ∧ bytecodeB64.truthy = true))
    (hr : r ∈ db.sourceClasses.rows) (hclause : classClause name projectId r.2 = true) :
    r ∈ db'.sourceClasses.rows := by
  by_cases htruthy : className.truthy = true ∧ bytecodeB64.truthy = true
  · obtain ⟨name', code, hbind, -, hset | hinsert⟩ := storeSourceClass_cases htruthy.1 htruthy.2 h
    · obtain ⟨k, existing, hrow, hclause', hset⟩ := hset
      rw [hset]
      refine (Table.mem_set _).mpr ⟨r.2, hr, ?_⟩
      rw [if_neg]
      intro hk
      have hsame : r.2 = existing := by
        apply db.sourceClasses.key_unique (k := k) _ hrow
        rw [← hk]
        exact hr
      rw [hsame] at hclause
      simp only [classClause, Bool.and_eq_true, beq_iff_eq] at hclause hclause'
      rw [← hclause.1, hclause'.1] at hother
      exact hother ⟨hbind, htruthy⟩
    · rw [hinsert]
      exact Table.mem_rows_insert.mpr (.inl hr)
  · unfold storeSourceClass at h
    rw [← Bool.and_eq_true] at htruthy
    rw [if_neg htruthy] at h
    cases h
    exact hr

theorem unbound_of_error {e : PyError}
    (h : storeSourceClass backend now projectId className bytecodeB64 db = .error e) :
    backend.bindText className = none ∨ backend.bindText bytecodeB64 = none := by
  unfold storeSourceClass at h
  split at h
  · split at h
    · split at h <;> cases h
    · rename_i hunbound
      cases hbindName : backend.bindText className with
      | none => exact .inl rfl
      | some name =>
        cases hbindCode : backend.bindText bytecodeB64 with
        | none => exact .inr rfl
        | some code => exact absurd hbindCode (hunbound name code hbindName)
  · cases h

theorem holdsStart_addExceptions {events : List (ExceptionEvent × Dict)} (h : HoldsStart now projectId ev raw db) :
    HoldsStart now projectId ev raw (addExceptions now events projectId db).1 := by
  obtain ⟨⟨k, row⟩, hr, hshows⟩ := h
  obtain ⟨hid, hproject, hnow, hraw, htime⟩ := hshows
  refine ⟨(k, row), (Table.mem_update _).mpr ⟨row, hr, ?_⟩, hid, hproject, hnow, hraw, htime⟩
  split
  · cases row
    cases hnow
    rfl
  · rfl

end Calls

/-! ### What stands in the tables after the loop -/

section Loop

variable {ing : Ingestion py} {db₀ db : Db} {xs : List (Json × ℕ)} {x : Json × ℕ} {acc : Intake} {i : ℕ}

def StartStands (ing : Ingestion py) (xs : List (Json × ℕ)) (db : Db) (i : ℕ) (ev : AgentStartEvent) : Prop :=
  ∃ item j ev' raw', (item, j) ∈ xs ∧ i ≤ j ∧ readItem ing.rules item = .ok (.agentStart ev' raw') ∧
    ev'.instanceId.getD "" = ev.instanceId.getD "" ∧ HoldsStart ing.now ing.projectId ev' raw' db

def ClassStands (ing : Ingestion py) (xs : List (Json × ℕ)) (db : Db) (i : ℕ) (className : Json) : Prop :=
  ∃ item j className' bytecodeB64 name code, (item, j) ∈ xs ∧ i ≤ j ∧
    readItem ing.rules item = .ok (.sourceClass className' bytecodeB64) ∧
    ing.backend.bindText className = some name ∧ ing.backend.bindText className' = some name ∧
    ing.backend.bindText bytecodeB64 = some code ∧ HoldsClass ing.now ing.projectId name code db

def StartRefused (ing : Ingestion py) (db₀ : Db) (i : ℕ) (ev : AgentStartEvent) : Prop :=
  ing.faults.item i ≠ none ∨ HeldByAnother ing.projectId ev db₀

def ClassRefused (ing : Ingestion py) (i : ℕ) (className bytecodeB64 : Json) : Prop :=
  ing.faults.item i ≠ none ∨ ing.backend.bindText className = none ∨ ing.backend.bindText bytecodeB64 = none

structure Kept (ing : Ingestion py) (db₀ : Db) (xs : List (Json × ℕ)) (acc : Intake) : Prop where
  origin : ∀ r ∈ acc.db.jvmInstances.rows, r.2.projectId = ing.projectId ∨
    ∃ r₀ ∈ db₀.jvmInstances.rows, r₀.2.instanceId = r.2.instanceId ∧ r₀.2.projectId = r.2.projectId
  starts : ∀ item i ev raw, (item, i) ∈ xs → readItem ing.rules item = .ok (.agentStart ev raw) →
    i ∈ acc.committed ∧ StartStands ing xs acc.db i ev ∨ (∃ e, (i, e) ∈ acc.raised) ∧ StartRefused ing db₀ i ev
  classes : ∀ item i className bytecodeB64, (item, i) ∈ xs →
    readItem ing.rules item = .ok (.sourceClass className bytecodeB64) →
    className.truthy = true → bytecodeB64.truthy = true →
    i ∈ acc.committed ∧ ClassStands ing xs acc.db i className ∨
      (∃ e, (i, e) ∈ acc.raised) ∧ ClassRefused ing i className bytecodeB64

theorem StartStands.keep {ys : List (Json × ℕ)} {db' : Db} {ev : AgentStartEvent} (h : StartStands ing xs db i ev)
    (hxs : xs ⊆ ys) (hdb : db'.jvmInstances = db.jvmInstances) : StartStands ing ys db' i ev := by
  obtain ⟨item, j, ev', raw', hmem, hij, hread, hid, hholds⟩ := h
  refine ⟨item, j, ev', raw', hxs hmem, hij, hread, hid, ?_⟩
  rw [HoldsStart, hdb]
  exact hholds

theorem ClassStands.keep {ys : List (Json × ℕ)} {db' : Db} {className : Json} (h : ClassStands ing xs db i className)
    (hxs : xs ⊆ ys) (hdb : db'.sourceClasses = db.sourceClasses) : ClassStands ing ys db' i className := by
  obtain ⟨item, j, className', bytecodeB64, name, code, hmem, hij, hread, hname, hname', hcode, hholds⟩ := h
  refine ⟨item, j, className', bytecodeB64, name, code, hxs hmem, hij, hread, hname, hname', hcode, ?_⟩
  rw [HoldsClass, hdb]
  exact hholds

theorem Kept.snoc (h : Kept ing db₀ xs acc) {acc' : Intake} (hcommitted : acc.committed ⊆ acc'.committed)
    (hraised : acc.raised ⊆ acc'.raised)
    (horigin : ∀ r ∈ acc'.db.jvmInstances.rows, r.2.projectId = ing.projectId ∨
      ∃ r' ∈ acc.db.jvmInstances.rows, r'.2.instanceId = r.2.instanceId ∧ r'.2.projectId = r.2.projectId)
    (hstarts : ∀ item i ev, (item, i) ∈ xs → StartStands ing xs acc.db i ev →
      StartStands ing (xs ++ [x]) acc'.db i ev)
    (hclasses : ∀ item i className, (item, i) ∈ xs → ClassStands ing xs acc.db i className →
      ClassStands ing (xs ++ [x]) acc'.db i className)
    (hstart : ∀ ev raw, readItem ing.rules x.1 = .ok (.agentStart ev raw) →
      x.2 ∈ acc'.committed ∧ StartStands ing (xs ++ [x]) acc'.db x.2 ev ∨
        (∃ e, (x.2, e) ∈ acc'.raised) ∧ StartRefused ing db₀ x.2 ev)
    (hclass : ∀ className bytecodeB64, readItem ing.rules x.1 = .ok (.sourceClass className bytecodeB64) →
      className.truthy = true → bytecodeB64.truthy = true →
      x.2 ∈ acc'.committed ∧ ClassStands ing (xs ++ [x]) acc'.db x.2 className ∨
        (∃ e, (x.2, e) ∈ acc'.raised) ∧ ClassRefused ing x.2 className bytecodeB64) :
    Kept ing db₀ (xs ++ [x]) acc' := by
  refine ⟨fun r hr => ?_, fun item i ev raw hmem hread => ?_, fun item i className bytecodeB64 hmem hread hn hb => ?_⟩
  · rcases horigin r hr with hown | ⟨r', hr', hid, hproject⟩
    · exact .inl hown
    · rw [← hid, ← hproject]
      exact h.origin r' hr'
  · rcases List.mem_append.mp hmem with hmem | hmem
    · rcases h.starts item i ev raw hmem hread with ⟨hi, hstands⟩ | ⟨⟨e, he⟩, hrefused⟩
      · exact .inl ⟨hcommitted hi, hstarts item i ev hmem hstands⟩
      · exact .inr ⟨⟨e, hraised he⟩, hrefused⟩
    · obtain ⟨rfl, rfl⟩ := Prod.mk.inj (List.mem_singleton.mp hmem)
      exact hstart ev raw hread
  · rcases List.mem_append.mp hmem with hmem | hmem
    · rcases h.classes item i className bytecodeB64 hmem hread hn hb with ⟨hi, hstands⟩ | ⟨⟨e, he⟩, hrefused⟩
      · exact .inl ⟨hcommitted hi, hclasses item i className hmem hstands⟩
      · exact .inr ⟨⟨e, hraised he⟩, hrefused⟩
    · obtain ⟨rfl, rfl⟩ := Prod.mk.inj (List.mem_singleton.mp hmem)
      exact hclass className bytecodeB64 hread hn hb

theorem Kept.idle (h : Kept ing db₀ xs acc) {acc' : Intake} (hdb : acc'.db = acc.db)
    (hcommitted : acc'.committed = acc.committed) (hraised : acc.raised ⊆ acc'.raised)
    (hstart : ∀ ev raw, readItem ing.rules x.1 = .ok (.agentStart ev raw) →
      (∃ e, (x.2, e) ∈ acc'.raised) ∧ StartRefused ing db₀ x.2 ev)
    (hclass : ∀ className bytecodeB64, readItem ing.rules x.1 = .ok (.sourceClass className bytecodeB64) →
      (∃ e, (x.2, e) ∈ acc'.raised) ∧ ClassRefused ing x.2 className bytecodeB64) :
    Kept ing db₀ (xs ++ [x]) acc' := by
  have hsub : xs ⊆ xs ++ [x] := List.subset_append_left xs [x]
  refine h.snoc (hcommitted ▸ List.Subset.refl _) hraised (fun r hr => ?_) (fun _ _ _ _ hs => ?_) (fun _ _ _ _ hs => ?_)
    (fun ev raw hread => .inr (hstart ev raw hread)) fun className bytecodeB64 hread _ _ => .inr (hclass _ _ hread)
  · rw [hdb] at hr
    exact .inr ⟨r, hr, rfl, rfl⟩
  · exact hs.keep hsub (by rw [hdb])
  · exact hs.keep hsub (by rw [hdb])

theorem startRefused_of_error (h : Kept ing db₀ xs acc) {ev : AgentStartEvent} {raw : Dict} {e : PyError}
    (he : faulty (ing.faults.item i) (storeAgentStart ing.now ev raw ing.projectId acc.db) = .error e) :
    StartRefused ing db₀ i ev := by
  rcases faulty_error he with hf | hs
  · exact .inl (by rw [hf]; exact Option.some_ne_none e)
  · right
    obtain ⟨r, hr, hid, hforeign⟩ := heldByAnother_of_error hs
    rcases h.origin r hr with hown | ⟨r₀, hr₀, hid₀, hproject⟩
    · rw [applyProject, owned, hown, beq_self_eq_true, Bool.or_true] at hforeign
      cases hforeign
    · refine ⟨r₀, hr₀, hid₀.trans hid, ?_⟩
      rw [applyProject, owned, hproject]
      exact hforeign

theorem Kept.agentStart (h : Kept ing db₀ xs acc) (horder : ∀ y ∈ xs, y.2 ≤ x.2) {ev : AgentStartEvent} {raw : Dict}
    (hread : readItem ing.rules x.1 = .ok (.agentStart ev raw)) (broadcasts : List Broadcast) :
    Kept ing db₀ (xs ++ [x]) (acc.store x.2 broadcasts
      (faulty (ing.faults.item x.2) (storeAgentStart ing.now ev raw ing.projectId acc.db))) := by
  cases hcall : faulty (ing.faults.item x.2) (storeAgentStart ing.now ev raw ing.projectId acc.db) with
  | error e =>
    refine h.idle rfl rfl (List.subset_append_left _ _) (fun ev' raw' hread' => ?_) fun className bytecodeB64 hread' => ?_
    · cases hread.symm.trans hread'
      exact ⟨⟨e, List.mem_append_right _ (List.mem_singleton_self _)⟩, startRefused_of_error h hcall⟩
    · cases hread.symm.trans hread'
  | ok db' =>
    have hstored := (faulty_ok hcall).2
    have hlast : (x.1, x.2) ∈ xs ++ [x] := List.mem_append_right _ (List.mem_singleton_self x)
    have here {i : ℕ} {ev' : AgentStartEvent} (hi : i ≤ x.2) (hid : ev.instanceId.getD "" = ev'.instanceId.getD "") :
        StartStands ing (xs ++ [x]) db' i ev' :=
      ⟨x.1, x.2, ev, raw, hlast, hi, hread, hid, holdsStart_storeAgentStart hstored⟩
    obtain ⟨t, ht⟩ := storeAgentStart_ok hstored
    refine h.snoc (List.subset_append_left _ _) (List.Subset.refl _) (fun r hr => rows_storeAgentStart hstored hr)
      (fun item i ev' hmem hs => ?_) (fun item i className hmem hs => ?_) (fun ev' raw' hread' => ?_)
      fun className bytecodeB64 hread' => ?_
    · by_cases hid : ev'.instanceId.getD "" = ev.instanceId.getD ""
      · exact here (horder (item, i) hmem) hid.symm
      · obtain ⟨item', j, ev'', raw'', hmem', hij, hread'', hid', r, hr, hshows⟩ := hs
        refine ⟨item', j, ev'', raw'', List.mem_append_left _ hmem', hij, hread'', hid', r, ?_, hshows⟩
        apply mem_storeAgentStart hstored hr
        rw [hshows.1, hid']
        exact hid
    · exact hs.keep (List.subset_append_left _ _) (by rw [Intake.store, ht])
    · cases hread.symm.trans hread'
      exact .inl ⟨List.mem_append_right _ (List.mem_singleton_self _), here (Nat.le_refl _) rfl⟩
    · cases hread.symm.trans hread'

theorem Kept.sourceClass (h : Kept ing db₀ xs acc) (horder : ∀ y ∈ xs, y.2 ≤ x.2) {className bytecodeB64 : Json}
    (hread : readItem ing.rules x.1 = .ok (.sourceClass className bytecodeB64)) (broadcasts : List Broadcast) :
    Kept ing db₀ (xs ++ [x]) (acc.store x.2 broadcasts (faulty (ing.faults.item x.2)
      (storeSourceClass ing.backend ing.now ing.projectId className bytecodeB64 acc.db))) := by
  cases hcall : faulty (ing.faults.item x.2)
      (storeSourceClass ing.backend ing.now ing.projectId className bytecodeB64 acc.db) with
  | error e =>
    refine h.idle rfl rfl (List.subset_append_left _ _) (fun ev' raw' hread' => ?_) fun className' bytecode' hread' => ?_
    · cases hread.symm.trans hread'
    · cases hread.symm.trans hread'
      refine ⟨⟨e, List.mem_append_right _ (List.mem_singleton_self _)⟩, ?_⟩
      rcases faulty_error hcall with hf | hs
      · exact .inl (by rw [hf]; exact Option.some_ne_none e)
      · exact .inr (unbound_of_error hs)
  | ok db' =>
    have hstored := (faulty_ok hcall).2
    have hlast : (x.1, x.2) ∈ xs ++ [x] := List.mem_append_right _ (List.mem_singleton_self x)
    obtain ⟨t, ht⟩ := storeSourceClass_ok hstored
    refine h.snoc (List.subset_append_left _ _) (List.Subset.refl _) (fun r hr => ?_)
      (fun item i ev hmem hs => ?_) (fun item i className' hmem hs => ?_) (fun ev' raw' hread' => ?_)
      fun className' bytecode' hread' hn hb => ?_
    · rw [Intake.store, ht] at hr
      exact .inr ⟨r, hr, rfl, rfl⟩
    · exact hs.keep (List.subset_append_left _ _) (by rw [Intake.store, ht])
    · obtain ⟨item', j, className'', bytecode'', name, code, hmem', hij, hread'', hname, hname', hcode, r, hr, hclause,
        hshows⟩ := hs
      by_cases hsame : ing.backend.bindText className = some name ∧ className.truthy = true ∧ bytecodeB64.truthy = true
      · obtain ⟨hbind, hn, hb⟩ := hsame
        obtain ⟨name', code', hbind', hbindCode, hholds⟩ := holdsClass_storeSourceClass hn hb hstored
        cases hbind.symm.trans hbind'
        exact ⟨x.1, x.2, className, bytecodeB64, name, code', hlast, horder (item, i) hmem, hread, hname, hbind,
          hbindCode, hholds⟩
      · refine ⟨item', j, className'', bytecode'', name, code, List.mem_append_left _ hmem', hij, hread'', hname, hname',
          hcode, r, mem_storeSourceClass hstored hsame hr hclause, hclause, hshows⟩
    · cases hread.symm.trans hread'
    · cases hread.symm.trans hread'
      obtain ⟨name, code, hname, hcode, hholds⟩ := holdsClass_storeSourceClass hn hb hstored
      exact .inl ⟨List.mem_append_right _ (List.mem_singleton_self _), x.1, x.2, className, bytecodeB64, name, code,
        hlast, Nat.le_refl _, hread, hname, hname, hcode, hholds⟩

theorem Kept.step (h : Kept ing db₀ xs acc) (horder : ∀ y ∈ xs, y.2 ≤ x.2) :
    Kept ing db₀ (xs ++ [x]) (ingestItem ing acc x) := by
  unfold ingestItem
  split
  · rename_i hread
    refine h.idle rfl rfl (List.Subset.refl _) (fun ev raw hread' => ?_) fun className bytecodeB64 hread' => ?_
    · cases hread.symm.trans hread'
    · cases hread.symm.trans hread'
  · rename_i ev raw hread
    exact h.agentStart horder hread _
  · rename_i className bytecodeB64 hread
    exact h.sourceClass horder hread _
  · rename_i ev raw hread
    refine h.idle rfl rfl (List.Subset.refl _) (fun ev' raw' hread' => ?_) fun className bytecodeB64 hread' => ?_
    · cases hread.symm.trans hread'
    · cases hread.symm.trans hread'

theorem kept_foldl (ing : Ingestion py) (db : Db) (xs : List (Json × ℕ)) (horder : xs.Pairwise fun a b => a.2 ≤ b.2) :
    Kept ing db xs (xs.foldl (ingestItem ing) (.start db)) := by
  induction xs using List.reverseRecOn with
  | nil =>
    refine ⟨fun r hr => .inr ⟨r, hr, rfl, rfl⟩, fun item i ev raw hmem => ?_, fun item i _ _ hmem => ?_⟩
    · cases hmem
    · cases hmem
  | append_singleton xs x ih =>
    obtain ⟨hxs, -, hlast⟩ := List.pairwise_append.mp horder
    rw [List.foldl_append, List.foldl_cons, List.foldl_nil]
    exact (ih hxs).step fun y hy => hlast y hy x (List.mem_singleton_self x)

theorem zipIdx_ordered (items : List Json) (n : ℕ) : (items.zipIdx n).Pairwise fun a b => a.2 ≤ b.2 := by
  induction items generalizing n with
  | nil => exact .nil
  | cons item items ih =>
    rw [List.zipIdx_cons, List.pairwise_cons]
    refine ⟨fun y hy => ?_, ih (n + 1)⟩
    have hplace := List.le_snd_of_mem_zipIdx hy
    exact Nat.le_of_succ_le hplace

end Loop

/-! ### The answer to the agent -/

section Answer

variable {ing : Ingestion py} {items : List Json} {db : Db} {i : ℕ} {item : Json}

/-- What a client can see of an item that was meant to be stored: it parses, and a
class file has a name and a body. -/
def WellFormed (rules : CompiledRules py.Pattern) (item : Json) (it : Item) : Prop :=
  readItem rules item = .ok it ∧ ∀ className bytecodeB64, it = .sourceClass className bytecodeB64 →
    className.truthy = true ∧ bytecodeB64.truthy = true

def Stands (ing : Ingestion py) (items : List Json) (db : Db) (i : ℕ) : Item → Prop
  | .exception ev raw => rowFor ing items db i = some (exceptionRow ing.now ev raw ing.projectId)
  | .agentStart ev _ => StartStands ing items.zipIdx (ingestItems ing items db).db i ev
  | .sourceClass className _ => ClassStands ing items.zipIdx (ingestItems ing items db).db i className

def Refused (ing : Ingestion py) (items : List Json) (db : Db) (i : ℕ) : Item → Prop
  | .exception _ _ => ing.faults.batch ≠ none ∨ ¬ AllFit ing items
  | .agentStart ev _ => StartRefused ing db i ev
  | .sourceClass className bytecodeB64 => ClassRefused ing i className bytecodeB64

def StoreCause (ing : Ingestion py) (x : ℕ × PyError) : Prop :=
  ItemCause ing x ∨ ing.faults.batch = some x.2

theorem storeBatch_keeps (ing : Ingestion py) (acc : Intake) :
    acc.committed ⊆ (storeBatch ing acc).committed ∧ acc.raised ⊆ (storeBatch ing acc).raised ∧
      (storeBatch ing acc).db.sourceClasses = acc.db.sourceClasses ∧
      ∀ ev raw, HoldsStart ing.now ing.projectId ev raw acc.db →
        HoldsStart ing.now ing.projectId ev raw (storeBatch ing acc).db := by
  rw [storeBatch]
  split
  · exact ⟨List.Subset.refl _, List.Subset.refl _, rfl, fun _ _ h => h⟩
  · split
    · exact ⟨List.Subset.refl _, List.subset_append_left _ _, rfl, fun _ _ h => h⟩
    · rename_i db' rowIds hstore
      have hadded := (storeExceptions_ok.mp (faulty_ok hstore).2).2
      cases hadded
      exact ⟨List.subset_append_left _ _, List.Subset.refl _, rfl, fun _ _ h => holdsStart_addExceptions h⟩

theorem tally_ingestItems (ing : Ingestion py) (items : List Json) (db : Db) :
    (ingestItems ing items db).accepted = (ingestItems ing items db).committed.length ∧
      (ingestItems ing items db).raised.length ≤ (ingestItems ing items db).failed ∧
      ∀ x ∈ (ingestItems ing items db).raised, StoreCause ing x := by
  have hloop := tally_foldl ing db items.zipIdx
  have haccepted := hloop.accepted
  have hraised := hloop.raised
  have early : ∀ x ∈ (items.zipIdx.foldl (ingestItem ing) (.start db)).raised, StoreCause ing x :=
    fun x hx => .inl (hloop.causes x hx)
  rw [ingestItems, storeBatch]
  split
  · exact ⟨haccepted, hraised, early⟩
  · split
    · rename_i e hstore
      refine ⟨haccepted, ?_, fun x hx => ?_⟩
      · simp only [List.length_append, List.length_map]
        omega
      · rcases List.mem_append.mp hx with hx | hx
        · exact early x hx
        · obtain ⟨y, -, rfl⟩ := List.mem_map.mp hx
          rcases faulty_error hstore with hf | hs
          · exact .inr hf
          · exact .inl (.inr (.inr (storeExceptions_error hs)))
    · refine ⟨?_, hraised, early⟩
      simp only [List.length_append, List.length_map]
      omega

theorem exception_stands_or_raised (hi : items[i]? = some item) {ev : ExceptionEvent} {raw : Dict}
    (hread : readItem ing.rules item = .ok (.exception ev raw)) :
    i ∈ (ingestItems ing items db).committed ∧ Stands ing items db i (.exception ev raw) ∨
      (∃ e, (i, e) ∈ (ingestItems ing items db).raised) ∧ Refused ing items db i (.exception ev raw) := by
  have hmem : (i, ev, raw) ∈ (items.zipIdx.foldl (ingestItem ing) (.start db)).batch := by
    rw [(tally_foldl ing db items.zipIdx).batch]
    exact mem_exceptionItems.mpr ⟨item, mem_zipIdx.mpr hi, hread⟩
  have stands (hf : ing.faults.batch = none) (hall : AllFit ing items) : Stands ing items db i (.exception ev raw) :=
    rowFor_committed hf hall hi (rowOf_eq_some.mpr ⟨ev, raw, hread, rfl⟩)
  have hbatch := (tally_foldl ing db items.zipIdx).batch
  rw [ingestItems, storeBatch]
  split
  · rename_i hempty
    rw [hempty] at hmem
    cases hmem
  · split
    · rename_i e hstore
      refine .inr ⟨⟨e, List.mem_append_right _ (List.mem_map.mpr ⟨_, hmem, rfl⟩)⟩, ?_⟩
      rcases faulty_error hstore with hf | hs
      · left
        rw [hf]
        exact Option.some_ne_none e
      · right
        intro hall
        rw [hbatch, storeExceptions_ok.mpr ⟨(allFit_iff ing items).mpr hall, rfl⟩] at hs
        cases hs
    · rename_i db' rowIds hstore
      obtain ⟨hf, hstored⟩ := faulty_ok hstore
      have hfits := (storeExceptions_ok.mp hstored).1
      rw [hbatch] at hfits
      exact .inl ⟨List.mem_append_right _ (List.mem_map.mpr ⟨_, hmem, rfl⟩), stands hf ((allFit_iff ing items).mp hfits)⟩

theorem item_stands_or_raised (hi : items[i]? = some item) {it : Item} (hw : WellFormed ing.rules item it) :
    i ∈ (ingestItems ing items db).committed ∧ Stands ing items db i it ∨
      (∃ e, (i, e) ∈ (ingestItems ing items db).raised) ∧ Refused ing items db i it := by
  obtain ⟨hread, hcomplete⟩ := hw
  have hkept := kept_foldl ing db items.zipIdx (zipIdx_ordered items 0)
  obtain ⟨hcommitted, hraised, hclasses, hstarts⟩ :=
    storeBatch_keeps ing (items.zipIdx.foldl (ingestItem ing) (.start db))
  have hmem : (item, i) ∈ items.zipIdx := mem_zipIdx.mpr hi
  cases it with
  | exception ev raw => exact exception_stands_or_raised hi hread
  | agentStart ev raw =>
    rcases hkept.starts item i ev raw hmem hread with ⟨hdone, hstands⟩ | ⟨⟨e, he⟩, hrefused⟩
    · obtain ⟨item', j, ev', raw', hmem', hij, hread', hid, hholds⟩ := hstands
      exact .inl ⟨hcommitted hdone, item', j, ev', raw', hmem', hij, hread', hid, hstarts ev' raw' hholds⟩
    · exact .inr ⟨⟨e, hraised he⟩, hrefused⟩
  | sourceClass className bytecodeB64 =>
    obtain ⟨hname, hcode⟩ := hcomplete className bytecodeB64 rfl
    rcases hkept.classes item i className bytecodeB64 hmem hread hname hcode with ⟨hdone, hstands⟩ | ⟨⟨e, he⟩, hrefused⟩
    · exact .inl ⟨hcommitted hdone, hstands.keep (List.Subset.refl _) hclasses⟩
    · exact .inr ⟨⟨e, hraised he⟩, hrefused⟩

theorem admit_error_status {env : IngestEnv py} {who : Principal} {body : Body} {f : Failure}
    (h : admitted env who body = .error f) : f.status ∈ [400, 403, 413, 429, 500] := by
  have length_status {header : Option String} (h : checkContentLength py env.maxBodyBytes header = .error f) :
      f.status ∈ [400, 403, 413, 429, 500] := by
    unfold checkContentLength at h
    split at h
    · cases h
    · split at h
      · cases h
        decide
      · split at h <;> cases h
        decide
  have body_status (h : readJsonBody py env.maxBodyBytes body = .error f) :
      f.status ∈ [400, 403, 413, 429, 500] := by
    unfold readJsonBody at h
    cases hc : checkContentLength py env.maxBodyBytes body.contentLength with
    | error f' =>
      rw [hc] at h
      cases h
      exact length_status hc
    | ok _ =>
      simp only [hc, bind, Except.bind] at h
      split at h
      · cases h
        decide
      · split at h
        · cases h
        · split at h <;> cases h
          · decide
          · simp [Failure.status]
  unfold admitted requireIngest at h
  by_cases hwho : who.canIngest = true
  · simp only [hwho, if_true, bind, Except.bind] at h
    split at h
    · split at h
      · rename_i heq
        cases h
        exact body_status heq
      · cases hr : env.rules with
        | ok rules =>
          rw [hr] at h
          cases h
        | error e =>
          rw [hr] at h
          cases h
          simp [Failure.status]
    · cases h
      decide
  · simp only [hwho] at h
    cases h
    decide

theorem delivered_of_ok {r : Except Failure Intake} (h : Agent.classifyHttpStatus (ingestStatus r) = .kOk)
    (hf : ∀ f, r = .error f → f.status ∈ [400, 403, 413, 429, 500]) : ∃ acc, r = .ok acc := by
  cases r with
  | ok acc => exact ⟨acc, rfl⟩
  | error f =>
    have hs := hf f rfl
    simp only [ingestStatus] at h
    simp only [List.mem_cons, List.not_mem_nil, or_false] at hs
    rcases hs with hs | hs | hs | hs | hs <;> simp [hs, Agent.classifyHttpStatus] at h

/-- A batch that the agent takes for delivered stands in the database, item by item, but
for the items whose storage call raised, and those are counted as failed. -/
theorem delivered_items_committed_or_counted {env : IngestEnv py} {who : Principal} {body : Body}
    (h : Agent.classifyHttpStatus (ingestStatus (ingest env who body db)) = .kOk) :
    ∃ ing items acc, admitted env who body = .ok (ing, items) ∧ ingest env who body db = .ok acc ∧
      acc = ingestItems ing items db ∧ acc.accepted + acc.failed = items.length ∧ acc.accepted = acc.committed.length ∧
      acc.raised.length ≤ acc.failed ∧ (∀ x ∈ acc.raised, StoreCause ing x) ∧
      acc.db.exceptions.values = db.exceptions.values ++
        ((exceptionItems ing.rules items.zipIdx).filter fun x => decide (x.1 ∈ acc.committed)).map
          (fun x => exceptionRow ing.now x.2.1 x.2.2 ing.projectId) ∧
      ∀ i item it, items[i]? = some item → WellFormed ing.rules item it →
        i ∈ acc.committed ∧ Stands ing items db i it ∨
          (∃ e, (i, e) ∈ acc.raised) ∧ Refused ing items db i it := by
  obtain ⟨acc, hacc⟩ := delivered_of_ok h fun f hf => by
    unfold ingest at hf
    cases ha : admitted env who body with
    | error f' =>
      rw [ha] at hf
      cases hf
      exact admit_error_status ha
    | ok r =>
      rw [ha] at hf
      cases hf
  have hingest := hacc
  simp only [ingest, bind_eq_ok, pure_eq_ok] at hacc
  obtain ⟨⟨ing, items⟩, hadmit, rfl⟩ := hacc
  obtain ⟨haccepted, hraised, hcauses⟩ := tally_ingestItems ing items db
  exact ⟨ing, items, _, hadmit, hingest, rfl, ingestItems_count ing items db, haccepted, hraised, hcauses,
    exceptions_after_ingest ing items db, fun i item it hi hw => item_stands_or_raised hi hw⟩

end Answer

def lockedEnv : IngestEnv Python.literal where
  now := 0
  uuid := "u1"
  tokenHex := ""
  maxBodyBytes := 5242880
  rateAllowed := true
  backend := Backend.sqlite
  rules := .ok ⟨[], []⟩
  faults := ⟨fun _ => none, some .operationalError⟩

def oneEvent : Body := ⟨none, 20, .json goodEvent⟩

theorem lost_batch_is_acknowledged :
    Agent.classifyHttpStatus (ingestStatus (ingest lockedEnv acme.principal oneEvent Db.empty)) = .kOk ∧
      (∃ it, WellFormed (⟨[], []⟩ : CompiledRules Python.literal.Pattern) goodEvent it) ∧
      ∃ acc, ingest lockedEnv acme.principal oneEvent Db.empty = .ok acc ∧ acc.committed = [] ∧
        acc.db.exceptions.rows = [] := by
  refine ⟨rfl, ⟨_, rfl, ?_⟩, _, rfl, rfl, rfl⟩
  intro className bytecodeB64 h
  cases h

def mixedBatch : Body := ⟨none, 200, .json (.arr [
  .obj [("type", .str "agent_start"), ("instanceId", .str "i1")],
  .obj [("type", .str "source_class"), ("className", .str "com/acme/A"), ("bytecodeB64", .str "yv66vg==")],
  goodEvent])⟩

theorem lost_batch_is_counted :
    ∃ ing items acc, admitted lockedEnv acme.principal mixedBatch = .ok (ing, items) ∧
      ingest lockedEnv acme.principal mixedBatch Db.empty = .ok acc ∧
      acc = ingestItems ing items Db.empty ∧ acc.accepted + acc.failed = items.length ∧ acc.accepted = acc.committed.length ∧
      acc.raised.length ≤ acc.failed ∧ (∀ x ∈ acc.raised, StoreCause ing x) ∧
      acc.db.exceptions.values = Db.empty.exceptions.values ++
        ((exceptionItems ing.rules items.zipIdx).filter fun x => decide (x.1 ∈ acc.committed)).map
          (fun x => exceptionRow ing.now x.2.1 x.2.2 ing.projectId) ∧
      ∀ i item it, items[i]? = some item → WellFormed ing.rules item it →
        i ∈ acc.committed ∧ Stands ing items Db.empty i it ∨
          (∃ e, (i, e) ∈ acc.raised) ∧ Refused ing items Db.empty i it :=
  delivered_items_committed_or_counted rfl

end JvmScout.Routes
