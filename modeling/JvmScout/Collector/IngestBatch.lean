import JvmScout.Agent.AsyncQueue
import JvmScout.Collector.Ingest
import Mathlib.Data.List.Induction

namespace JvmScout.Routes

open Models Redaction Security Storage Relational Traverse

variable {py : Python}

def Item.isException : Item → Bool
  | .exception _ _ => true
  | _ => false

def exceptionItems (rules : CompiledRules py.Pattern) (xs : List (Json × ℕ)) :
    List (ℕ × ExceptionEvent × Dict) :=
  xs.filterMap fun x =>
    match readItem rules x.1 with
    | .ok (.exception ev raw) => some (x.2, ev, raw)
    | _ => none

theorem mem_exceptionItems {rules : CompiledRules py.Pattern} {xs : List (Json × ℕ)} {i : ℕ}
    {ev : ExceptionEvent} {raw : Dict} :
    (i, ev, raw) ∈ exceptionItems rules xs ↔
      ∃ item, (item, i) ∈ xs ∧ readItem rules item = .ok (.exception ev raw) := by
  simp only [exceptionItems, List.mem_filterMap]
  constructor
  · rintro ⟨⟨item, j⟩, hx, hread⟩
    split at hread
    · rename_i heq
      cases hread
      exact ⟨item, hx, heq⟩
    · cases hread
  · rintro ⟨item, hx, hread⟩
    exact ⟨(item, i), hx, by simp [hread]⟩

def ItemCause (ing : Ingestion py) (x : ℕ × PyError) : Prop :=
  ing.faults.item x.1 = some x.2 ∨ x.2 = .permissionError ∨ x.2 = .operationalError

structure Tally (ing : Ingestion py) (xs : List (Json × ℕ)) (acc : Intake) : Prop where
  count : acc.accepted + acc.failed + acc.batch.length = xs.length
  accepted : acc.accepted = acc.committed.length
  raised : acc.raised.length ≤ acc.failed
  batch : acc.batch = exceptionItems ing.rules xs
  committed : ∀ i ∈ acc.committed, ∃ item it, (item, i) ∈ xs ∧
    readItem ing.rules item = .ok it ∧ it.isException = false
  causes : ∀ x ∈ acc.raised, ItemCause ing x
  handled : ∀ item i it, (item, i) ∈ xs → readItem ing.rules item = .ok it → it.isException = false →
    i ∈ acc.committed ∨ ∃ e, (i, e) ∈ acc.raised

section Loop

variable {ing : Ingestion py} {xs : List (Json × ℕ)} {x : Json × ℕ} {acc : Intake}

theorem exceptionItems_snoc (rules : CompiledRules py.Pattern) (xs : List (Json × ℕ)) (x : Json × ℕ) :
    exceptionItems rules (xs ++ [x]) = exceptionItems rules xs ++ exceptionItems rules [x] :=
  List.filterMap_append

theorem Tally.committed_snoc (h : Tally ing xs acc) (x : Json × ℕ) : ∀ i ∈ acc.committed, ∃ item it,
    (item, i) ∈ xs ++ [x] ∧ readItem ing.rules item = .ok it ∧ it.isException = false := by
  intro i hi
  obtain ⟨item, it, hmem, hrest⟩ := h.committed i hi
  exact ⟨item, it, List.mem_append_left _ hmem, hrest⟩

theorem Tally.handled_snoc (h : Tally ing xs acc)
    (hx : ∀ it, readItem ing.rules x.1 = .ok it → it.isException = true) :
    ∀ item i it, (item, i) ∈ xs ++ [x] → readItem ing.rules item = .ok it → it.isException = false →
      i ∈ acc.committed ∨ ∃ e, (i, e) ∈ acc.raised := by
  intro item i it hmem hread hit
  rcases List.mem_append.mp hmem with hmem | hmem
  · exact h.handled item i it hmem hread hit
  · cases List.mem_singleton.mp hmem
    rw [hx it hread] at hit
    cases hit

theorem Tally.store {it : Item} (h : Tally ing xs acc) (hread : readItem ing.rules x.1 = .ok it)
    (hit : it.isException = false) (broadcasts : List Broadcast) {r : Except PyError Db}
    (hr : ∀ e, r = .error e → ItemCause ing (x.2, e)) :
    Tally ing (xs ++ [x]) (acc.store x.2 broadcasts r) := by
  have hnone : exceptionItems ing.rules [x] = [] := by
    cases it with
    | exception ev raw => cases hit
    | agentStart ev raw => simp [exceptionItems, hread]
    | sourceClass className bytecodeB64 => simp [exceptionItems, hread]
  have hbatch : acc.batch = exceptionItems ing.rules (xs ++ [x]) := by
    rw [exceptionItems_snoc, hnone, List.append_nil, h.batch]
  have hcount := h.count
  have haccepted := h.accepted
  have hraised := h.raised
  cases r with
  | ok db =>
    refine ⟨?_, ?_, hraised, hbatch, fun i hi => ?_, h.causes, fun item i it' hmem hread' hit' => ?_⟩
    · simp only [Intake.store, List.length_append, List.length_singleton]
      omega
    · simp only [Intake.store, List.length_append, List.length_singleton]
      omega
    · rcases List.mem_append.mp hi with hi | hi
      · exact h.committed_snoc x i hi
      · rw [List.mem_singleton.mp hi]
        exact ⟨x.1, it, by simp, hread, hit⟩
    · rcases List.mem_append.mp hmem with hmem | hmem
      · exact (h.handled item i it' hmem hread' hit').imp (List.mem_append_left _) id
      · obtain ⟨-, rfl⟩ := Prod.mk.inj (List.mem_singleton.mp hmem)
        exact .inl (by simp [Intake.store])
  | error e =>
    refine ⟨?_, haccepted, ?_, hbatch, h.committed_snoc x, fun y hy => ?_,
      fun item i it' hmem hread' hit' => ?_⟩
    · simp only [Intake.store, List.length_append, List.length_singleton]
      omega
    · simp only [Intake.store, List.length_append, List.length_singleton]
      omega
    · rcases List.mem_append.mp hy with hy | hy
      · exact h.causes y hy
      · rw [List.mem_singleton.mp hy]
        exact hr e rfl
    · rcases List.mem_append.mp hmem with hmem | hmem
      · refine (h.handled item i it' hmem hread' hit').imp id ?_
        rintro ⟨e', he'⟩
        exact ⟨e', List.mem_append_left _ he'⟩
      · obtain ⟨-, rfl⟩ := Prod.mk.inj (List.mem_singleton.mp hmem)
        exact .inr ⟨e, by simp [Intake.store]⟩

theorem faulty_error {α : Type} {f : Option PyError} {r : Except PyError α} {e : PyError}
    (h : faulty f r = .error e) : f = some e ∨ r = .error e := by
  cases f with
  | some e' =>
    cases h
    exact .inl rfl
  | none => exact .inr h

theorem storeAgentStart_error {now : ℕ} {ev : AgentStartEvent} {raw : Dict} {projectId : Option String}
    {db : Db} {e : PyError} (h : storeAgentStart now ev raw projectId db = .error e) :
    e = .permissionError := by
  unfold storeAgentStart at h
  split at h
  · split at h <;> cases h
    rfl
  · cases h

theorem storeSourceClass_error {backend : Backend} {now : ℕ} {projectId : Option String}
    {className bytecodeB64 : Json} {db : Db} {e : PyError}
    (h : storeSourceClass backend now projectId className bytecodeB64 db = .error e) :
    e = .operationalError := by
  unfold storeSourceClass at h
  split at h
  · split at h
    · split at h <;> cases h
    · cases h
      rfl
  · cases h

theorem Tally.step (h : Tally ing xs acc) (x : Json × ℕ) : Tally ing (xs ++ [x]) (ingestItem ing acc x) := by
  unfold ingestItem
  split
  · rename_i err hread
    have hnone : exceptionItems ing.rules [x] = [] := by simp [exceptionItems, hread]
    have hcount := h.count
    have hraised := h.raised
    refine ⟨?_, h.accepted, Nat.le_succ_of_le hraised, ?_, h.committed_snoc x, h.causes, h.handled_snoc fun it hread' => ?_⟩
    · simp only [List.length_append, List.length_singleton]
      omega
    · rw [exceptionItems_snoc, hnone, List.append_nil, h.batch]
    · cases hread.symm.trans hread'
  · rename_i ev raw hread
    apply h.store hread rfl _
    intro e he
    rcases faulty_error he with hf | hs
    · exact .inl hf
    · exact .inr (.inl (storeAgentStart_error hs))
  · rename_i className bytecodeB64 hread
    apply h.store hread rfl _
    intro e he
    rcases faulty_error he with hf | hs
    · exact .inl hf
    · exact .inr (.inr (storeSourceClass_error hs))
  · rename_i ev raw hread
    have hone : exceptionItems ing.rules [x] = [(x.2, ev, raw)] := by simp [exceptionItems, hread]
    have hcount := h.count
    refine ⟨?_, h.accepted, h.raised, ?_, h.committed_snoc x, h.causes, h.handled_snoc fun it hread' => ?_⟩
    · simp only [List.length_append, List.length_singleton]
      omega
    · rw [exceptionItems_snoc, hone, h.batch]
    · cases hread.symm.trans hread'
      rfl

theorem tally_foldl (ing : Ingestion py) (db : Db) (xs : List (Json × ℕ)) :
    Tally ing xs (xs.foldl (ingestItem ing) (.start db)) := by
  induction xs using List.reverseRecOn with
  | nil =>
    refine ⟨rfl, rfl, le_refl _, rfl, fun i hi => ?_, fun x hx => ?_, fun item i it hmem => ?_⟩
    · cases hi
    · cases hx
    · cases hmem
  | append_singleton xs x ih =>
    rw [List.foldl_append, List.foldl_cons, List.foldl_nil]
    exact ih.step x

end Loop

/-! ### The transaction of the exceptions -/

section Batch

variable {ing : Ingestion py} {items : List Json} {db : Db} {i : ℕ} {item : Json}

def FitsColumns (ing : Ingestion py) (ev : ExceptionEvent) (raw : Dict) : Prop :=
  ing.backend.fits (exceptionRow ing.now ev raw ing.projectId) = true

def AllFit (ing : Ingestion py) (items : List Json) : Prop :=
  ∀ item ∈ items, ∀ ev raw, readItem ing.rules item = .ok (.exception ev raw) → FitsColumns ing ev raw

def NoneFits (ing : Ingestion py) (items : List Json) : Prop :=
  ∀ item ∈ items, ∀ ev raw, readItem ing.rules item = .ok (.exception ev raw) → ¬ FitsColumns ing ev raw

theorem mem_zipIdx {items : List Json} {item : Json} {i : ℕ} :
    (item, i) ∈ items.zipIdx ↔ items[i]? = some item := by
  rw [List.mk_mem_zipIdx_iff_getElem?]

theorem allFit_iff (ing : Ingestion py) (items : List Json) :
    (∀ e ∈ (exceptionItems ing.rules items.zipIdx).map Prod.snd,
      ing.backend.fits (exceptionRow ing.now e.1 e.2 ing.projectId) = true) ↔ AllFit ing items := by
  constructor
  · intro h item hmem ev raw hread
    obtain ⟨i, hi⟩ := List.getElem?_of_mem hmem
    exact h (ev, raw) (List.mem_map.mpr ⟨(i, ev, raw), mem_exceptionItems.mpr ⟨item, mem_zipIdx.mpr hi, hread⟩, rfl⟩)
  · rintro h _ hmem
    obtain ⟨⟨i, ev, raw⟩, hx, rfl⟩ := List.mem_map.mp hmem
    obtain ⟨item, hi, hread⟩ := mem_exceptionItems.mp hx
    exact h item (List.mem_of_getElem? (mem_zipIdx.mp hi)) ev raw hread

def IsExceptionItem (item : Json) : Prop :=
  ∃ raw, item = .obj raw ∧ Dict.get raw "type" ≠ .str "agent_start" ∧ Dict.get raw "type" ≠ .str "source_class"

theorem ingestItems_count (ing : Ingestion py) (items : List Json) (db : Db) :
    (ingestItems ing items db).accepted + (ingestItems ing items db).failed = items.length := by
  have hcount := (tally_foldl ing db items.zipIdx).count
  rw [List.length_zipIdx] at hcount
  rw [ingestItems, storeBatch]
  split
  · rename_i hempty
    rw [hempty, List.length_nil] at hcount
    omega
  · split
    · dsimp only
      omega
    · dsimp only
      omega

theorem faulty_ok {α : Type} {f : Option PyError} {r : Except PyError α} {a : α}
    (h : faulty f r = .ok a) : f = none ∧ r = .ok a := by
  cases f with
  | none => exact ⟨rfl, h⟩
  | some e => cases h

theorem foldl_keeps (ing : Ingestion py) (xs : List (Json × ℕ)) (acc : Intake) :
    (xs.foldl (ingestItem ing) acc).db.exceptions = acc.db.exceptions ∧
      (xs.foldl (ingestItem ing) acc).db.configEntities = acc.db.configEntities ∧
      (xs.foldl (ingestItem ing) acc).scheduled = acc.scheduled := by
  have store_keeps (i : ℕ) (broadcasts : List Broadcast) (acc : Intake) (r : Except PyError Db)
      (hr : ∀ db', r = .ok db' → db'.exceptions = acc.db.exceptions ∧
        db'.configEntities = acc.db.configEntities) :
      (acc.store i broadcasts r).db.exceptions = acc.db.exceptions ∧
        (acc.store i broadcasts r).db.configEntities = acc.db.configEntities ∧
        (acc.store i broadcasts r).scheduled = acc.scheduled := by
    cases r with
    | ok db' => exact ⟨(hr db' rfl).1, (hr db' rfl).2, rfl⟩
    | error e => exact ⟨rfl, rfl, rfl⟩
  have item_keeps (acc : Intake) (x : Json × ℕ) :
      (ingestItem ing acc x).db.exceptions = acc.db.exceptions ∧
        (ingestItem ing acc x).db.configEntities = acc.db.configEntities ∧
        (ingestItem ing acc x).scheduled = acc.scheduled := by
    unfold ingestItem
    split
    · exact ⟨rfl, rfl, rfl⟩
    · apply store_keeps
      intro db' h
      obtain ⟨t, rfl⟩ := storeAgentStart_ok (faulty_ok h).2
      exact ⟨rfl, rfl⟩
    · apply store_keeps
      intro db' h
      obtain ⟨t, rfl⟩ := storeSourceClass_ok (faulty_ok h).2
      exact ⟨rfl, rfl⟩
    · exact ⟨rfl, rfl, rfl⟩
  induction xs generalizing acc with
  | nil => exact ⟨rfl, rfl, rfl⟩
  | cons x xs ih =>
    obtain ⟨hexceptions, hconfig, hscheduled⟩ := ih (ingestItem ing acc x)
    obtain ⟨hexceptions', hconfig', hscheduled'⟩ := item_keeps acc x
    rw [List.foldl_cons]
    exact ⟨hexceptions.trans hexceptions', hconfig.trans hconfig', hscheduled.trans hscheduled'⟩

def committedEvents (ing : Ingestion py) (items : List Json) : List (ExceptionEvent × Dict) :=
  let events := (exceptionItems ing.rules items.zipIdx).map Prod.snd
  if ing.faults.batch = none ∧
    ∀ e ∈ events, ing.backend.fits (exceptionRow ing.now e.1 e.2 ing.projectId) = true then events
  else []

theorem mem_committedEvents {e : ExceptionEvent × Dict} (he : e ∈ committedEvents ing items) :
    ∃ item ∈ items, readItem ing.rules item = .ok (.exception e.1 e.2) := by
  unfold committedEvents at he
  dsimp only at he
  split at he
  · obtain ⟨⟨i, ev, raw⟩, hx, rfl⟩ := List.mem_map.mp he
    obtain ⟨item, hi, hread⟩ := mem_exceptionItems.mp hx
    exact ⟨item, List.mem_of_getElem? (mem_zipIdx.mp hi), hread⟩
  · cases he

theorem ingestItems_committed (ing : Ingestion py) (items : List Json) (db : Db) :
    (ingestItems ing items db).db.exceptions = (db.exceptions.insertAll
        ((committedEvents ing items).map fun e => exceptionRow ing.now e.1 e.2 ing.projectId)).1 ∧
      (ingestItems ing items db).db.configEntities = db.configEntities ∧
      (ingestItems ing items db).scheduled = (committedEvents ing items).map Prod.snd := by
  have hbatch := (tally_foldl ing db items.zipIdx).batch
  obtain ⟨hexceptions, hconfig, hscheduled⟩ := foldl_keeps ing items.zipIdx (.start db)
  change _ = db.exceptions at hexceptions
  change _ = [] at hscheduled
  have nothing (h : committedEvents ing items = []) : db.exceptions = (db.exceptions.insertAll
      ((committedEvents ing items).map fun e => exceptionRow ing.now e.1 e.2 ing.projectId)).1 := by
    rw [h]
    rfl
  rw [ingestItems, storeBatch, hbatch]
  split
  · rename_i hempty
    have hnone : committedEvents ing items = [] := by simp [committedEvents, hempty]
    exact ⟨hexceptions.trans (nothing hnone), hconfig, by rw [hscheduled, hnone, List.map_nil]⟩
  · split
    · rename_i e hstore
      have hnone : committedEvents ing items = [] := by
        apply if_neg
        rintro ⟨hf, hfits⟩
        rw [hf, faulty, storeExceptions_ok.mpr ⟨hfits, rfl⟩] at hstore
        cases hstore
      exact ⟨hexceptions.trans (nothing hnone), hconfig, by rw [hscheduled, hnone, List.map_nil]⟩
    · rename_i db' rowIds hstore
      obtain ⟨hf, hstored⟩ := faulty_ok hstore
      obtain ⟨hfits, hadded⟩ := storeExceptions_ok.mp hstored
      have hall : committedEvents ing items = (exceptionItems ing.rules items.zipIdx).map Prod.snd :=
        if_pos ⟨hf, hfits⟩
      cases hadded
      refine ⟨?_, hconfig, ?_⟩
      · dsimp only
        rw [hall, hexceptions]
      · dsimp only
        rw [hall, hscheduled, List.nil_append, List.map_map]
        rfl

theorem exceptions_after_ingest (ing : Ingestion py) (items : List Json) (db : Db) :
    (ingestItems ing items db).db.exceptions.values = db.exceptions.values ++
      ((exceptionItems ing.rules items.zipIdx).filter
          fun x => decide (x.1 ∈ (ingestItems ing items db).committed)).map
        fun x => exceptionRow ing.now x.2.1 x.2.2 ing.projectId := by
  have hloop := tally_foldl ing db items.zipIdx
  have hkept : (items.zipIdx.foldl (ingestItem ing) (.start db)).db.exceptions = db.exceptions :=
    (foldl_keeps ing items.zipIdx (.start db)).1
  have uncommitted : ∀ x ∈ exceptionItems ing.rules items.zipIdx,
      x.1 ∉ (items.zipIdx.foldl (ingestItem ing) (.start db)).committed := by
    rintro ⟨i, ev, raw⟩ hx hmem
    obtain ⟨item, hi, hread⟩ := mem_exceptionItems.mp hx
    obtain ⟨item', it, hi', hread', hit⟩ := hloop.committed i hmem
    cases (mem_zipIdx.mp hi).symm.trans (mem_zipIdx.mp hi')
    cases hread.symm.trans hread'
    cases hit
  have nothing : ((exceptionItems ing.rules items.zipIdx).filter fun x =>
      decide (x.1 ∈ (items.zipIdx.foldl (ingestItem ing) (.start db)).committed)) = [] := by
    rw [List.filter_eq_nil_iff]
    intro x hx
    simpa using uncommitted x hx
  rw [ingestItems, storeBatch]
  split
  · rw [hkept, nothing, List.map_nil, List.append_nil]
  · split
    · dsimp only
      rw [hkept, nothing, List.map_nil, List.append_nil]
    · rename_i db' rowIds hstore
      have hstored : storeExceptions ing.backend ing.now
          ((items.zipIdx.foldl (ingestItem ing) (.start db)).batch.map Prod.snd) ing.projectId
          (items.zipIdx.foldl (ingestItem ing) (.start db)).db = .ok (db', rowIds) := (faulty_ok hstore).2
      have hadded := (storeExceptions_ok.mp hstored).2
      rw [hloop.batch] at hadded ⊢
      dsimp only
      have everything : ((exceptionItems ing.rules items.zipIdx).filter fun x =>
          decide (x.1 ∈ (items.zipIdx.foldl (ingestItem ing) (.start db)).committed ++
            (exceptionItems ing.rules items.zipIdx).map Prod.fst)) =
          exceptionItems ing.rules items.zipIdx := by
        rw [List.filter_eq_self]
        intro x hx
        simpa using .inr ⟨_, _, hx⟩
      rw [everything]
      cases hadded
      rw [Table.values_insertAll, hkept, List.map_map]
      rfl

/-! ### The row and the message of an item -/

def rowOf (ing : Ingestion py) (item : Json) : Option ExceptionRow :=
  match readItem ing.rules item with
  | .ok (.exception ev raw) => some (exceptionRow ing.now ev raw ing.projectId)
  | _ => none

def placeOf (ing : Ingestion py) (items : List Json) (i : ℕ) : ℕ := ((items.take i).filterMap (rowOf ing)).length

/-- The row that the request added for an item, in the order of the items. -/
def rowFor (ing : Ingestion py) (items : List Json) (db : Db) (i : ℕ) : Option ExceptionRow :=
  (db.exceptions.added (ingestItems ing items db).db.exceptions)[placeOf ing items i]?

def messageFor (ing : Ingestion py) (items : List Json) (db : Db) (i : ℕ) : Option Broadcast :=
  ((ingestItems ing items db).broadcasts.filter fun b => b.kind == "exception")[placeOf ing items i]?

def StoredAt (ing : Ingestion py) (items : List Json) (db : Db) (i : ℕ) : Prop :=
  ∃ row, (items[i]?).bind (rowOf ing) = some row ∧ rowFor ing items db i = some row

theorem rowOf_eq_some {row : ExceptionRow} : rowOf ing item = some row ↔
    ∃ ev raw, readItem ing.rules item = .ok (.exception ev raw) ∧
      exceptionRow ing.now ev raw ing.projectId = row := by
  rw [rowOf]
  constructor
  · intro h
    split at h
    · rename_i ev raw hread
      cases h
      exact ⟨ev, raw, hread, rfl⟩
    · cases h
  · rintro ⟨ev, raw, hread, rfl⟩
    rw [hread]

theorem rows_of_exceptionItems (ing : Ingestion py) (items : List Json) :
    (exceptionItems ing.rules items.zipIdx).map (fun x => exceptionRow ing.now x.2.1 x.2.2 ing.projectId) =
      items.filterMap (rowOf ing) := by
  have hitems : items.filterMap (rowOf ing) = items.zipIdx.filterMap fun x => rowOf ing x.1 := by
    conv_lhs => rw [← List.zipIdx_map_fst 0 items, List.filterMap_map]
    rfl
  rw [hitems, exceptionItems, List.map_filterMap]
  apply List.filterMap_congr
  intro x _
  rw [rowOf]
  split
  · rfl
  · rfl

theorem getElem?_filterMap {α β : Type} (f : α → Option β) {xs : List α} {x : α} {y : β} {i : ℕ}
    (hx : xs[i]? = some x) (hy : f x = some y) : (xs.filterMap f)[((xs.take i).filterMap f).length]? = some y := by
  obtain ⟨hlt, rfl⟩ := List.getElem?_eq_some_iff.mp hx
  have hsplit : xs.filterMap f = (xs.take i).filterMap f ++ y :: (xs.drop (i + 1)).filterMap f := by
    conv_lhs => rw [← List.take_append_drop i xs, List.drop_eq_getElem_cons hlt]
    rw [List.filterMap_append, List.filterMap_cons_some hy]
  rw [hsplit, List.getElem?_append_right (Nat.le_refl _), Nat.sub_self]
  rfl

theorem getElem?_zip_map {α β γ : Type} (f : α × β → γ) {xs : List α} {ys : List β} {k : ℕ} {y : β}
    (hlength : xs.length = ys.length) (hy : ys[k]? = some y) : ∃ x, ((xs.zip ys).map f)[k]? = some (f (x, y)) := by
  have hlt := (List.getElem?_eq_some_iff.mp hy).1
  rw [← hlength] at hlt
  have hpair : (xs.zip ys)[k]? = some (xs[k], y) :=
    List.getElem?_zip_eq_some.mpr ⟨List.getElem?_eq_getElem hlt, hy⟩
  refine ⟨xs[k], ?_⟩
  rw [List.getElem?_map, hpair]
  rfl

theorem committedEvents_eq (hf : ing.faults.batch = none) (hall : AllFit ing items) :
    committedEvents ing items = (exceptionItems ing.rules items.zipIdx).map Prod.snd :=
  if_pos ⟨hf, (allFit_iff ing items).mpr hall⟩

theorem committedEvents_eq_nil (h : ¬ (ing.faults.batch = none ∧ AllFit ing items)) : committedEvents ing items = [] :=
  if_neg fun hboth => h ⟨hboth.1, (allFit_iff ing items).mp hboth.2⟩

theorem added_ingestItems (ing : Ingestion py) (items : List Json) (db : Db) :
    db.exceptions.added (ingestItems ing items db).db.exceptions =
      (committedEvents ing items).map fun e => exceptionRow ing.now e.1 e.2 ing.projectId := by
  rw [(ingestItems_committed ing items db).1, Table.added_insertAll]

theorem rowFor_committed (hf : ing.faults.batch = none) (hall : AllFit ing items) (hi : items[i]? = some item)
    {row : ExceptionRow} (hrow : rowOf ing item = some row) : rowFor ing items db i = some row := by
  have hmap : (committedEvents ing items).map (fun e => exceptionRow ing.now e.1 e.2 ing.projectId) =
      items.filterMap (rowOf ing) := by
    rw [committedEvents_eq hf hall, List.map_map]
    exact rows_of_exceptionItems ing items
  rw [rowFor, added_ingestItems, hmap, placeOf]
  exact getElem?_filterMap (rowOf ing) hi hrow

theorem rowFor_eq_none (h : ¬ (ing.faults.batch = none ∧ AllFit ing items)) : rowFor ing items db i = none := by
  rw [rowFor, added_ingestItems, committedEvents_eq_nil h]
  rfl

theorem storedAt_iff (hf : ing.faults.batch = none) (hi : items[i]? = some item) :
    StoredAt ing items db i ↔
      (∃ ev raw, readItem ing.rules item = .ok (.exception ev raw)) ∧ AllFit ing items := by
  rw [StoredAt, hi, Option.bind_some]
  constructor
  · rintro ⟨row, hrow, hstored⟩
    obtain ⟨ev, raw, hread, -⟩ := rowOf_eq_some.mp hrow
    refine ⟨⟨ev, raw, hread⟩, ?_⟩
    by_contra hall
    rw [rowFor_eq_none fun h => hall h.2] at hstored
    cases hstored
  · rintro ⟨⟨ev, raw, hread⟩, hall⟩
    have hrow : rowOf ing item = some (exceptionRow ing.now ev raw ing.projectId) :=
      rowOf_eq_some.mpr ⟨ev, raw, hread, rfl⟩
    exact ⟨_, hrow, rowFor_committed hf hall hi hrow⟩

theorem place_exceptionItems (hi : items[i]? = some item) {ev : ExceptionEvent} {raw : Dict}
    (hread : readItem ing.rules item = .ok (.exception ev raw)) :
    (exceptionItems ing.rules items.zipIdx)[placeOf ing items i]? = some (i, ev, raw) := by
  have hplace : placeOf ing items i = (exceptionItems ing.rules (items.zipIdx.take i)).length := by
    have htake : items.zipIdx.take i = (items.take i).zipIdx := by
      apply List.ext_getElem?
      intro n
      simp only [List.getElem?_take, List.getElem?_zipIdx]
      split
      · rfl
      · rfl
    rw [placeOf, ← rows_of_exceptionItems, List.length_map, htake]
  have hget : items.zipIdx[i]? = some (item, i) := by simp [hi]
  rw [hplace]
  apply getElem?_filterMap _ hget
  rw [hread]

theorem foldl_messages (ing : Ingestion py) (xs : List (Json × ℕ)) (acc : Intake) :
    (xs.foldl (ingestItem ing) acc).broadcasts.filter (fun b => b.kind == "exception") =
      acc.broadcasts.filter fun b => b.kind == "exception" := by
  have store_messages (acc : Intake) (i : ℕ) {bs : List Broadcast} (hbs : bs.filter (fun b => b.kind == "exception") = [])
      (r : Except PyError Db) : (acc.store i bs r).broadcasts.filter (fun b => b.kind == "exception") =
        acc.broadcasts.filter fun b => b.kind == "exception" := by
    cases r with
    | ok db =>
      rw [Intake.store]
      dsimp only
      rw [List.filter_append, hbs, List.append_nil]
    | error e => rfl
  induction xs generalizing acc with
  | nil => rfl
  | cons x xs ih =>
    rw [List.foldl_cons, ih, ingestItem]
    split
    · rfl
    · exact store_messages acc x.2 (by simp) _
    · exact store_messages acc x.2 rfl _
    · rfl

theorem messageFor_eq (hi : items[i]? = some item) {ev : ExceptionEvent} {raw : Dict}
    (hread : readItem ing.rules item = .ok (.exception ev raw)) (db : Db) :
    (ing.faults.batch = none → AllFit ing items →
        ∃ rowId, messageFor ing items db i = some ⟨"exception", some rowId, raw, ing.projectId⟩) ∧
      (¬ (ing.faults.batch = none ∧ AllFit ing items) → messageFor ing items db i = none) := by
  have hmem := place_exceptionItems hi hread
  have hbatch := (tally_foldl ing db items.zipIdx).batch
  have hloop := foldl_messages ing items.zipIdx (.start db)
  change _ = [] at hloop
  have hne : exceptionItems ing.rules items.zipIdx ≠ [] := by
    intro hempty
    rw [hempty] at hmem
    cases hmem
  rw [messageFor, ingestItems, storeBatch, hbatch, if_neg hne]
  constructor
  · intro hf hall
    rw [hf, faulty, storeExceptions_ok.mpr ⟨(allFit_iff ing items).mpr hall, rfl⟩]
    dsimp only [addExceptions]
    have hlength := Table.length_insertAll (items.zipIdx.foldl (ingestItem ing) (.start db)).db.exceptions
      (((exceptionItems ing.rules items.zipIdx).map Prod.snd).map fun e =>
        exceptionRow ing.now e.1 e.2 ing.projectId)
    rw [List.length_map, List.length_map] at hlength
    rw [List.filter_append, hloop, List.nil_append, List.filter_eq_self.mpr fun b hb => ?_]
    · obtain ⟨rowId, hget⟩ := getElem?_zip_map
        (fun x : ℕ × ℕ × ExceptionEvent × Dict =>
          (⟨"exception", some x.1, x.2.2.2, ing.projectId⟩ : Broadcast)) hlength hmem
      exact ⟨rowId, hget⟩
    · obtain ⟨x, -, rfl⟩ := List.mem_map.mp hb
      rfl
  · intro hno
    split
    · dsimp only
      rw [hloop]
      rfl
    · rename_i db' rowIds hstore
      obtain ⟨hf, hstored⟩ := faulty_ok hstore
      exact absurd ⟨hf, (allFit_iff ing items).mp (storeExceptions_ok.mp hstored).1⟩ hno

/-- Items fare in a list as they fare alone exactly when the exceptions that parse can
all be stored, or none of them can. -/
theorem items_independent_iff (hf : ing.faults.batch = none) :
    ((∀ i item, items[i]? = some item → IsExceptionItem item →
        (StoredAt ing items db i ↔ StoredAt ing [item] db 0)) ∧
      (ingestItems ing items db).accepted + (ingestItems ing items db).failed = items.length) ↔
      AllFit ing items ∨ NoneFits ing items := by
  simp only [ingestItems_count, and_true]
  have alone (item : Json) : StoredAt ing [item] db 0 ↔
      (∃ ev raw, readItem ing.rules item = .ok (.exception ev raw)) ∧ AllFit ing [item] :=
    storedAt_iff hf rfl
  have exceptional {item : Json} {ev : ExceptionEvent} {raw : Dict}
      (hread : readItem ing.rules item = .ok (.exception ev raw)) : IsExceptionItem item := by
    obtain ⟨raw', rfl, hagent, hsource, -⟩ := readItem_exception hread
    exact ⟨raw', rfl, hagent, hsource⟩
  constructor
  · intro h
    by_contra hno
    rw [not_or] at hno
    obtain ⟨hall, hnone⟩ := hno
    apply hnone
    intro item hmem ev raw hread hfit
    obtain ⟨i, hi⟩ := List.getElem?_of_mem hmem
    have hown : AllFit ing [item] := by
      intro item' hmem' ev' raw' hread'
      rw [List.mem_singleton.mp hmem'] at hread'
      cases hread.symm.trans hread'
      exact hfit
    exact hall ((storedAt_iff hf hi).mp
      ((h i item hi (exceptional hread)).mpr ((alone item).mpr ⟨⟨ev, raw, hread⟩, hown⟩))).2
  · rintro hcase i item hi -
    have hmem := List.mem_of_getElem? hi
    rw [storedAt_iff hf hi, alone item]
    apply and_congr_right
    rintro ⟨ev, raw, hread⟩
    rcases hcase with hall | hnone
    · apply iff_of_true hall
      intro item' hmem'
      rw [List.mem_singleton.mp hmem']
      exact hall item hmem
    · refine iff_of_false (fun hall => ?_) fun hown => ?_
      · exact hnone item hmem ev raw hread (hall item hmem ev raw hread)
      · exact hnone item hmem ev raw hread (hown item (List.mem_singleton_self item) ev raw hread)

end Batch

def plainIngestion : Ingestion Python.literal := ⟨⟨[], []⟩, Backend.sqlite, 0, some "acme", .none⟩

def goodEvent : Json := .obj [("fingerprint", .str "f1")]

def oversizedEvent : Json := .obj [("fingerprint", .str "f2"), ("hitCount", .int (2 ^ 70))]

theorem oversized_event_sinks_its_batch :
    IsExceptionItem goodEvent ∧ StoredAt plainIngestion [goodEvent] Db.empty 0 ∧
      ¬ StoredAt plainIngestion [goodEvent, oversizedEvent] Db.empty 0 := by
  refine ⟨⟨_, rfl, by decide, by decide⟩, ⟨_, rfl, rfl⟩, ?_⟩
  rintro ⟨row, -, hrow⟩
  have hnone : (rowFor plainIngestion [goodEvent, oversizedEvent] Db.empty 0).isNone = true := by decide +kernel
  rw [hrow] at hnone
  cases hnone

theorem two_good_events_independent_iff :
    ((∀ i item, [goodEvent, goodEvent][i]? = some item → IsExceptionItem item →
        (StoredAt plainIngestion [goodEvent, goodEvent] Db.empty i ↔
          StoredAt plainIngestion [item] Db.empty 0)) ∧
      (ingestItems plainIngestion [goodEvent, goodEvent] Db.empty).accepted +
        (ingestItems plainIngestion [goodEvent, goodEvent] Db.empty).failed =
          [goodEvent, goodEvent].length) ↔
      AllFit plainIngestion [goodEvent, goodEvent] ∨ NoneFits plainIngestion [goodEvent, goodEvent] :=
  items_independent_iff rfl

end JvmScout.Routes
