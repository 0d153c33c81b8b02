import JvmScout.Collector.Routes
import JvmScout.Collector.TokenLookup
import JvmScout.Lib.Runs

namespace JvmScout.Security

open Storage Routes Relational Runs

def ActiveMaster (data : Dict) : Prop :=
  (Dict.get data "token_hash").truthy = true ∧ (Dict.get data "revoked_at").truthy = false ∧
    Dict.get data "role" = .str "master"

def SharesMaster (db : Db) (k : ℕ) (h : HashKey) : Prop :=
  ∃ r ∈ tokenRows db, r.1 ≠ k ∧ ∃ e, readToken r = .ok (some (h, e)) ∧ e.role = .master

/-- While the row stands, it may keep another token from being found: the map cannot be
built with it, the scan stops at it, or it takes the place of a master token. -/
def Hides (db : Db) (k : ℕ) (row : ConfigEntityRow) : Prop :=
  (∃ err, readToken (k, row) = .error err) ∨
    ∃ h e, readToken (k, row) = .ok (some (h, e)) ∧ (¬ Readable h ∨ SharesMaster db k h)

def WritesHashOfMaster (db : Db) (k : ℕ) (row : ConfigEntityRow) : Prop :=
  ∃ h e, readToken (k, row) = .ok (some (h, e)) ∧ SharesMaster db k h

abbrev Call := Env × Tenant × ConfigRequest

/-- No active master row comes out of the request, and no row that it replaces or
deletes stood before a token of others. -/
def Contained (py : Python) (db : Db) (call : Call) : Prop :=
  match call with
  | (_, _, .createToken _) => True
  | (env, _, .createConfig table body) => table = "api_tokens" →
    ∀ payload, readJsonBody py env.maxBodyBytes body = .ok (.obj payload) → ¬ ActiveMaster payload
  | (env, t, .patchConfig table entityId body) => table = "api_tokens" →
    ∀ payload k row, readJsonBody py env.maxBodyBytes body = .ok (.obj payload) →
      findConfig table entityId (some t.project) false db = some (k, row) →
        ¬ ActiveMaster (patched row payload).jsonData ∧ ¬ Hides db k row ∧
          ¬ WritesHashOfMaster db k (patched row payload)
  | (_, t, .removeConfig table entityId) => table = "api_tokens" →
    ∀ k row, findConfig table entityId (some t.project) false db = some (k, row) → ¬ Hides db k row

structure Managed where
  db : Db
  touched : List (ℕ × String)

def touch (call : Call) (s : Managed) : List (ℕ × String) :=
  match call with
  | (_, t, .createToken _) | (_, t, .createConfig _ _) =>
    (s.db.configEntities.nextKey, t.project) :: s.touched
  | (_, t, .patchConfig table entityId _) =>
    match findConfig table entityId (some t.project) false s.db with
    | some (k, _) => (k, t.project) :: s.touched
    | none => s.touched
  | (_, t, .removeConfig table entityId) =>
    match findConfig table entityId (some t.project) false s.db with
    | some (k, _) => s.touched.filter fun x => x.1 != k
    | none => s.touched

def serve (py : Python) (backend : Backend) (s : Managed) (call : Call) : Option Managed :=
  match handleConfig py backend call.1 call.2.1.principal s.db call.2.2 with
  | .ok (db, _) => some ⟨db, touch call s⟩
  | .error _ => some s

def ResolvesMaster (apiKey : String) (db : Db) (raw : String) : Prop :=
  ∃ who, resolvePrincipal apiKey raw (loadTokens (tokenRows db)) = .ok (some who) ∧ who.isMaster = true

def MasterEntry (db : Db) (raw : String) : Prop :=
  ∃ e, lookupToken db raw = .ok (some e) ∧ e.role = .master

theorem resolvesMaster_iff {apiKey : String} {db : Db} {raw : String} :
    ResolvesMaster apiKey db raw ↔ raw ≠ "" ∧ (compareDigest raw (.text apiKey) = .ok true ∨
      (compareDigest raw (.text apiKey) = .ok false ∧ MasterEntry db raw)) := by
  have principal_master (e : TokenEntry) : e.principal.isMaster = true ↔ e.role = .master := by
    unfold TokenEntry.principal
    cases e.role <;> simp
  simp only [ResolvesMaster, resolvePrincipal_iff, MasterEntry]
  constructor
  · rintro ⟨who, ⟨hraw, (⟨hkey, rfl⟩ | ⟨hkey, e, he, rfl⟩)⟩, hm⟩
    · exact ⟨hraw, .inl hkey⟩
    · exact ⟨hraw, .inr ⟨hkey, e, he, (principal_master e).mp hm⟩⟩
  · rintro ⟨hraw, (hkey | ⟨hkey, e, he, hm⟩)⟩
    · exact ⟨_, ⟨hraw, .inl ⟨hkey, rfl⟩⟩, rfl⟩
    · exact ⟨_, ⟨hraw, .inr ⟨hkey, e, he, rfl⟩⟩, (principal_master e).mpr hm⟩

theorem reaches_of_reaches_append {c : String} {h : HashKey} {e : TokenEntry} (hne : h ≠ .text c)
    (xs ys : TokenMap) (hr : Reaches c (xs ++ (h, e) :: ys)) : Reaches c (xs ++ ys) := by
  induction xs with
  | nil => exact (hr.resolve_left hne).2
  | cons x xs ih => exact hr.imp id fun hr => ⟨hr.1, ih hr.2⟩

theorem lastEntry_append (h : HashKey) (xs ys : TokenMap) :
    lastEntry h (xs ++ ys) = (lastEntry h ys).or (lastEntry h xs) := by
  induction xs with
  | nil => simp [lastEntry]
  | cons x xs ih =>
    obtain ⟨h', e⟩ := x
    rw [List.cons_append, lastEntry, ih, lastEntry, Option.or_assoc]

theorem lastEntry_skip {h h' : HashKey} {e : TokenEntry} (hne : h' ≠ h) (xs ys : TokenMap) :
    lastEntry h (xs ++ (h', e) :: ys) = lastEntry h (xs ++ ys) := by
  rw [lastEntry_append, lastEntry_append, lastEntry]
  simp [hne]

theorem master_of_replaced {c : String} {before after : TokenMap}
    (old : Option (HashKey × TokenEntry)) {new : Option (HashKey × TokenEntry)}
    (hold : ∀ h e, old = some (h, e) →
      Readable h ∧ ∀ e', (h, e') ∈ before ++ after → e'.role ≠ .master)
    (hnew : ∀ h e, new = some (h, e) →
      e.role ≠ .master ∧ ∀ e', (h, e') ∈ before ++ after → e'.role ≠ .master)
    {e : TokenEntry} (hr : Reaches c (before ++ new.toList ++ after))
    (hl : lastEntry (.text c) (before ++ new.toList ++ after) = some e) (hm : e.role = .master) :
    Reaches c (before ++ old.toList ++ after) ∧
      lastEntry (.text c) (before ++ old.toList ++ after) = some e := by
  have hmem : (HashKey.text c, e) ∈ before ++ after := by
    have := lastEntry_mem hl
    simp only [List.append_assoc, List.mem_append, Option.mem_toList] at this ⊢
    rcases this with h | h | h
    · exact .inl h
    · exact absurd hm (hnew _ _ h).1
    · exact .inr h
  have hbase : Reaches c (before ++ after) ∧ lastEntry (.text c) (before ++ after) = some e := by
    cases hn : new with
    | none => simpa [hn] using And.intro hr hl
    | some x =>
      obtain ⟨h, e'⟩ := x
      have hne : h ≠ .text c := by
        rintro rfl
        exact (hnew _ _ hn).2 e hmem hm
      simp only [hn, Option.toList_some, List.append_assoc, List.singleton_append] at hr hl
      exact ⟨reaches_of_reaches_append hne _ _ hr, by rwa [lastEntry_skip hne] at hl⟩
  cases ho : old with
  | none => simpa using hbase
  | some x =>
    obtain ⟨h, e'⟩ := x
    obtain ⟨hread, hother⟩ := hold _ _ ho
    have hne : h ≠ .text c := by
      rintro rfl
      exact hother e hmem hm
    simp only [Option.toList_some, List.append_assoc, List.singleton_append]
    exact ⟨(reaches_append_skip hread hne _ _).mpr hbase.1, by rw [lastEntry_skip hne, hbase.2]⟩

theorem activeMaster_of_readToken {k : ℕ} {row : ConfigEntityRow} {h : HashKey} {e : TokenEntry}
    (hr : readToken (k, row) = .ok (some (h, e))) (hm : e.role = .master) : ActiveMaster row.jsonData := by
  simp only [readToken, configToDict_get row (k := "token_hash") (by decide) (by decide) (by decide),
    configToDict_get row (k := "revoked_at") (by decide) (by decide) (by decide),
    configToDict_get row (k := "role") (by decide) (by decide) (by decide)] at hr
  split at hr
  · rename_i hactive
    simp only [Bool.and_eq_true, Bool.not_eq_true'] at hactive
    simp only [Traverse.bind_eq_ok, Traverse.pure_eq_ok, Option.some.injEq, Prod.mk.injEq] at hr
    obtain ⟨_, -, role, hrole, -, rfl⟩ := hr
    dsimp only at hm
    subst hm
    refine ⟨hactive.1, hactive.2, ?_⟩
    unfold storedRole at hrole
    split at hrole <;> cases hrole
    assumption
  · cases hr

section Rows

variable {db : Db} {k : ℕ} {row row' : ConfigEntityRow}

theorem tokenRows_insert (row : ConfigEntityRow) (db : Db) :
    tokenRows { db with configEntities := db.configEntities.insert row } = tokenRows db ++
      if row.table = "api_tokens" then [(db.configEntities.nextKey, row)] else [] := by
  simp only [tokenRows, Table.select, Table.rows_insert, List.filter_append, List.filter_cons,
    List.filter_nil, tokenClause_iff]

theorem tokenRows_split (hm : (k, row) ∈ db.configEntities.rows) :
    ∃ before after, (∀ r ∈ before ++ after, r.1 ≠ k) ∧
      tokenRows db = before ++ (if row.table = "api_tokens" then [(k, row)] else []) ++ after ∧
      (∀ row', tokenRows { db with configEntities := db.configEntities.set k row' } =
        before ++ (if row'.table = "api_tokens" then [(k, row')] else []) ++ after) ∧
      tokenRows { db with configEntities := db.configEntities.erase k } = before ++ after := by
  obtain ⟨before, after, hrows, hne, hset, herase⟩ := db.configEntities.rows_split hm
  let keep (rs : List (ℕ × ConfigEntityRow)) := rs.filter fun r => tokenClause r.2
  refine ⟨keep before, keep after, ?_, ?_, fun row' => ?_, ?_⟩
  · intro r hr
    simp only [keep, List.mem_append, List.mem_filter] at hr
    exact hne r (List.mem_append.mpr (hr.imp And.left And.left))
  · simp only [tokenRows, Table.select, hrows, keep, List.filter_append, List.filter_cons, tokenClause_iff]
    split <;> simp
  · simp only [tokenRows, Table.select, hset, keep, List.filter_append, List.filter_cons, tokenClause_iff]
    split <;> simp
  · simp only [tokenRows, Table.select, herase, keep, List.filter_append]

theorem tokenEntries_append (xs ys : List (ℕ × ConfigEntityRow)) :
    tokenEntries (xs ++ ys) = tokenEntries xs ++ tokenEntries ys := List.filterMap_append

theorem tokenEntries_singleton (r : ℕ × ConfigEntityRow) :
    tokenEntries [r] = ((readToken r).toOption.join).toList := by
  unfold tokenEntries
  cases h : (readToken r).toOption.join <;> simp [h]

theorem join_eq_some {r : ℕ × ConfigEntityRow} {x : HashKey × TokenEntry} :
    (readToken r).toOption.join = some x ↔ readToken r = .ok (some x) := by
  cases h : readToken r <;> simp [Except.toOption]

theorem masterEntry_of_added {db' : Db} {raw : String}
    (hrows : tokenRows db' = tokenRows db ++ [(k, row)]) (hnew : ¬ ActiveMaster row.jsonData)
    (hm : MasterEntry db' raw) : MasterEntry db raw := by
  obtain ⟨e, he, hrole⟩ := hm
  obtain ⟨hload, hreach, hlast⟩ := lookupToken_iff.mp he
  rw [hrows] at hload hreach hlast
  rw [tokenEntries_append, tokenEntries_singleton] at hreach hlast
  refine ⟨e, lookupToken_iff.mpr ⟨fun r hr => hload r (List.mem_append_left _ hr), ?_⟩, hrole⟩
  cases ho : (readToken (k, row)).toOption.join with
  | none => simpa [ho] using And.intro hreach hlast
  | some x =>
    obtain ⟨h, e'⟩ := x
    have hread := join_eq_some.mp ho
    rw [ho, Option.toList_some] at hreach hlast
    by_cases hc : h = .text (hashToken raw)
    · rw [lastEntry_append, hc] at hlast
      simp only [lastEntry, if_true, Option.none_or, Option.some_or, Option.some.injEq] at hlast
      subst hlast
      exact absurd (activeMaster_of_readToken hread hrole) hnew
    · have hreach' := reaches_of_reaches_append hc _ _ hreach
      rw [List.append_nil] at hreach'
      rw [lastEntry_skip hc, List.append_nil] at hlast
      exact ⟨hreach', hlast⟩

theorem masterEntry_of_replaced {db' : Db} {raw : String} {before after : List (ℕ × ConfigEntityRow)}
    (new : Option ConfigEntityRow) (hne : ∀ r ∈ before ++ after, r.1 ≠ k)
    (hrows : tokenRows db = before ++ [(k, row)] ++ after)
    (hrows' : tokenRows db' = before ++ (new.map fun row' => (k, row')).toList ++ after)
    (hold : ¬ Hides db k row)
    (hnew : ∀ row', new = some row' → ¬ ActiveMaster row'.jsonData ∧ ¬ WritesHashOfMaster db k row')
    (hm : MasterEntry db' raw) : MasterEntry db raw := by
  obtain ⟨e, he, hrole⟩ := hm
  obtain ⟨hload, hreach, hlast⟩ := lookupToken_iff.mp he
  have shares {h : HashKey} {e' : TokenEntry}
      (hmem : (h, e') ∈ tokenEntries before ++ tokenEntries after) (hmaster : e'.role = .master) :
      SharesMaster db k h := by
    rw [← tokenEntries_append, mem_tokenEntries] at hmem
    obtain ⟨r, hr, hread⟩ := hmem
    refine ⟨r, ?_, hne r hr, e', hread, hmaster⟩
    rw [hrows]
    simp only [List.mem_append] at hr ⊢
    exact hr.imp .inl id
  have hnewEntries : tokenEntries (new.map fun row' => (k, row')).toList =
      (new.bind fun row' => (readToken (k, row')).toOption.join).toList := by
    cases new with
    | none => rfl
    | some row' => exact tokenEntries_singleton (k, row')
  rw [hrows', tokenEntries_append, tokenEntries_append, hnewEntries] at hreach hlast
  have hreplaced := master_of_replaced (readToken (k, row)).toOption.join ?_ ?_ hreach hlast hrole
  · refine ⟨e, lookupToken_iff.mpr ⟨?_, ?_⟩, hrole⟩
    · intro r hr
      rw [hrows, List.mem_append, List.mem_append, List.mem_singleton] at hr
      rw [hrows'] at hload
      rcases hr with (hr | rfl) | hr
      · exact hload r (List.mem_append_left _ (List.mem_append_left _ hr))
      · cases ho : readToken (k, row) with
        | error err => exact absurd (.inl ⟨err, ho⟩) hold
        | ok o => exact ⟨o, rfl⟩
      · exact hload r (List.mem_append_right _ hr)
    · rw [hrows, tokenEntries_append, tokenEntries_append, tokenEntries_singleton]
      exact hreplaced
  · intro h e' ho
    have hread := join_eq_some.mp ho
    refine ⟨?_, fun e'' hmem hmaster => hold (.inr ⟨h, e', hread, .inr (shares hmem hmaster)⟩)⟩
    by_contra hnot
    exact hold (.inr ⟨h, e', hread, .inl hnot⟩)
  · intro h e' ho
    obtain ⟨row', hsome, hjoin⟩ := Option.bind_eq_some_iff.mp ho
    have hread := join_eq_some.mp hjoin
    obtain ⟨hmaster, hwrites⟩ := hnew row' hsome
    exact ⟨fun hr => hmaster (activeMaster_of_readToken hread hr),
      fun e'' hmem hr => hwrites ⟨h, e', hread, shares hmem hr⟩⟩

end Rows

structure Kept (start : Db) (s : Managed) : Prop where
  masters : ∀ raw, MasterEntry s.db raw → MasterEntry start raw
  touched : ∀ k p, (k, p) ∈ s.touched → p ≠ "" ∧ ∃ row, (k, row) ∈ s.db.configEntities.rows ∧
    (row.table = "api_tokens" → row.projectId = some p ∧ ¬ ActiveMaster row.jsonData)

theorem activeMaster_configRow (py : Python) (now : ℕ) (uuid table : String) (payload : Dict)
    (projectId : Option String) :
    ActiveMaster (configRow py now uuid table payload projectId).jsonData ↔ ActiveMaster payload := by
  simp only [ActiveMaster, configRow_get py now uuid table payload projectId (k := "token_hash") rfl (by decide),
    configRow_get py now uuid table payload projectId (k := "revoked_at") rfl (by decide),
    configRow_get py now uuid table payload projectId (k := "role") rfl (by decide)]

theorem not_activeMaster_tokenPayload (name : Json) (raw : String) (role : Role) :
    ¬ ActiveMaster (tokenPayload name raw role) := by
  rintro ⟨-, -, hrole⟩
  cases role <;> simp [tokenPayload, Dict.get, Assoc.get?, Role.name] at hrole

section Step

variable {start : Db} {s : Managed}

theorem Kept.added (h : Kept start s) (t : Tenant) {row : ConfigEntityRow}
    (hp : row.projectId = some t.project)
    (hnew : row.table = "api_tokens" → ¬ ActiveMaster row.jsonData) :
    Kept start ⟨{ s.db with configEntities := s.db.configEntities.insert row },
      (s.db.configEntities.nextKey, t.project) :: s.touched⟩ := by
  constructor
  · intro raw hm
    apply h.masters raw
    by_cases htable : row.table = "api_tokens"
    · refine masterEntry_of_added (k := s.db.configEntities.nextKey) ?_ (hnew htable) hm
      rw [tokenRows_insert, if_pos htable]
    · simpa only [MasterEntry, lookupToken, tokenRows_insert, if_neg htable, List.append_nil] using hm
  · intro k p hk
    simp only [Table.rows_insert, List.mem_append, List.mem_singleton]
    rcases List.mem_cons.mp hk with heq | hk
    · cases heq
      exact ⟨t.nonempty, row, .inr rfl, fun htable => ⟨hp, hnew htable⟩⟩
    · obtain ⟨hne, row', hrow', hrest⟩ := h.touched k p hk
      exact ⟨hne, row', .inl hrow', hrest⟩

theorem Kept.edited (h : Kept start s) (t : Tenant) {k : ℕ} {row row' : ConfigEntityRow}
    (hm : (k, row) ∈ s.db.configEntities.rows) (hp : row.projectId = some t.project)
    (htable : row'.table = row.table) (hproject : row'.projectId = row.projectId)
    (hnew : row.table = "api_tokens" →
      ¬ ActiveMaster row'.jsonData ∧ ¬ Hides s.db k row ∧ ¬ WritesHashOfMaster s.db k row') :
    Kept start ⟨{ s.db with configEntities := s.db.configEntities.set k row' },
      (k, t.project) :: s.touched⟩ := by
  obtain ⟨before, after, hne, hrows, hset, -⟩ := tokenRows_split hm
  constructor
  · intro raw hmaster
    apply h.masters raw
    by_cases ht : row.table = "api_tokens"
    · obtain ⟨hactive, hhides, hwrites⟩ := hnew ht
      rw [if_pos ht] at hrows
      have hrows' := hset row'
      rw [if_pos (htable.trans ht)] at hrows'
      refine masterEntry_of_replaced (some row') hne hrows hrows' hhides ?_ hmaster
      rintro _ ⟨⟩
      exact ⟨hactive, hwrites⟩
    · rw [if_neg ht] at hrows
      have hrows' := hset row'
      rw [htable, if_neg ht, ← hrows] at hrows'
      simpa only [MasterEntry, lookupToken, hrows'] using hmaster
  · intro k' p hk
    have hmine : ∀ p, row.projectId = some p → p ≠ "" → p ≠ "" ∧ ∃ w,
        (k, w) ∈ (s.db.configEntities.set k row').rows ∧
          (w.table = "api_tokens" → w.projectId = some p ∧ ¬ ActiveMaster w.jsonData) := by
      intro p hrow hne
      refine ⟨hne, row', (Table.mem_set _).mpr ⟨row, hm, by simp⟩, fun ht => ?_⟩
      rw [hproject]
      exact ⟨hrow, (hnew (htable ▸ ht)).1⟩
    rcases List.mem_cons.mp hk with heq | hk
    · cases heq
      exact hmine _ hp t.nonempty
    · obtain ⟨hempty, w, hw, hrest⟩ := h.touched k' p hk
      by_cases hkk : k' = k
      · subst hkk
        cases s.db.configEntities.key_unique hm hw
        by_cases ht : row.table = "api_tokens"
        · exact hmine p (hrest ht).1 hempty
        · exact ⟨hempty, row', (Table.mem_set _).mpr ⟨row, hm, by simp⟩, fun ht' => absurd (htable ▸ ht') ht⟩
      · exact ⟨hempty, w, (Table.mem_set _).mpr ⟨w, hw, by simp [hkk]⟩, hrest⟩

theorem Kept.removed (h : Kept start s) {k : ℕ} {row : ConfigEntityRow}
    (hm : (k, row) ∈ s.db.configEntities.rows)
    (hhides : row.table = "api_tokens" → ¬ Hides s.db k row) :
    Kept start ⟨{ s.db with configEntities := s.db.configEntities.erase k },
      s.touched.filter fun x => x.1 != k⟩ := by
  obtain ⟨before, after, hne, hrows, -, herase⟩ := tokenRows_split hm
  constructor
  · intro raw hmaster
    apply h.masters raw
    by_cases ht : row.table = "api_tokens"
    · rw [if_pos ht] at hrows
      refine masterEntry_of_replaced none hne hrows ?_ (hhides ht) (by simp) hmaster
      simpa using herase
    · rw [if_neg ht, List.append_nil, ← herase] at hrows
      simpa only [MasterEntry, lookupToken, hrows] using hmaster
  · intro k' p hk
    simp only [List.mem_filter, bne_iff_ne, ne_eq] at hk
    obtain ⟨hne, w, hw, hrest⟩ := h.touched k' p hk.1
    exact ⟨hne, w, (Table.mem_erase _).mpr ⟨hw, hk.2⟩, hrest⟩

theorem serve_kept {py : Python} {backend : Backend} {call : Call} {s' : Managed} (h : Kept start s)
    (hc : Contained py s.db call) (hs : serve py backend s call = some s') : Kept start s' := by
  obtain ⟨env, t, req⟩ := call
  have owner {table entityId : String} {k : ℕ} {row : ConfigEntityRow}
      (hf : findConfig table entityId (some t.project) false s.db = some (k, row)) :
      (k, row) ∈ s.db.configEntities.rows ∧ row.table = table ∧ row.projectId = some t.project := by
    obtain ⟨hm, hclause⟩ := findConfig_eq_some hf
    simp only [configClause, Bool.false_or, Bool.and_eq_true, beq_iff_eq, owned] at hclause
    exact ⟨hm, hclause⟩
  unfold serve at hs
  split at hs
  · rename_i db out hok
    cases hs
    cases req with
    | createToken body =>
      obtain ⟨name, raw, role, rfl⟩ := createToken_ok hok
      exact h.added t rfl fun _ =>
        (activeMaster_configRow ..).not.mpr (not_activeMaster_tokenPayload name raw role)
    | createConfig table body =>
      obtain ⟨payload, hbody, rfl⟩ := createConfig_ok hok
      exact h.added t rfl fun htable => (activeMaster_configRow ..).not.mpr (hc htable payload hbody)
    | patchConfig table entityId body =>
      obtain ⟨payload, k, row, hbody, hf, rfl⟩ := patchConfig_ok hok
      obtain ⟨hm, htable, hp⟩ := owner hf
      simp only [touch, hf]
      exact h.edited t hm hp rfl rfl fun ht => hc (htable ▸ ht) payload k row hbody hf
    | removeConfig table entityId =>
      obtain ⟨k, row, hf, rfl⟩ := removeConfig_ok hok
      obtain ⟨hm, htable, -⟩ := owner hf
      simp only [touch, hf]
      exact h.removed hm fun ht => hc (htable ▸ ht) k row hf
  · cases hs
    exact h

end Step

/-- However many requests tenants make, as long as each is contained, no raw token
becomes a master token, and the rows they wrote speak for their own projects. -/
theorem contained_requests_confer_no_privilege {py : Python} {backend : Backend} {start : Db}
    {calls : List Call} {s : Managed}
    (hr : run (serve py backend) ⟨start, []⟩ calls = some s)
    (hc : AllSteps (serve py backend) (fun s call => Contained py s.db call) ⟨start, []⟩ calls) :
    (∀ apiKey raw, ResolvesMaster apiKey s.db raw → ResolvesMaster apiKey start raw) ∧
      ∀ k p, (k, p) ∈ s.touched → ∀ raw e, lookupToken s.db raw = .ok (some e) → e.source = k →
        e.principal.isMaster = false ∧ e.principal.projectId = some p := by
  have hinit : Kept start ⟨start, []⟩ := ⟨fun _ => id, by simp⟩
  have hkept : Kept start s := run_guarded (fun _ _ _ hk hc hs => serve_kept hk hc hs) hinit hc hr
  constructor
  · intro apiKey raw hm
    rw [resolvesMaster_iff] at hm ⊢
    exact ⟨hm.1, hm.2.imp id fun h => ⟨h.1, hkept.masters raw h.2⟩⟩
  · intro k p hk raw e he hsource
    obtain ⟨hne, row, hrow, hrest⟩ := hkept.touched k p hk
    obtain ⟨-, -, hlast⟩ := lookupToken_iff.mp he
    obtain ⟨r, hmem, hread⟩ := mem_tokenEntries.mp (lastEntry_mem hlast)
    obtain ⟨hkey, hproject⟩ := readToken_entry hread
    obtain ⟨hrows, hclause⟩ := Table.mem_select.mp hmem
    have heq : r = (k, row) := by
      have hk' : r.1 = k := by rw [← hkey, hsource]
      exact Prod.ext hk' (s.db.configEntities.key_unique (hk' ▸ hrows) hrow)
    subst heq
    obtain ⟨hp, hmaster⟩ := hrest (tokenClause_iff.mp hclause)
    have hrole : e.role ≠ .master := fun hm => hmaster (activeMaster_of_readToken hread hm)
    have hproj : e.projectId = p := by
      rw [hproject, tokenProject, configToDict_project, hp]
      simp [optionalText, Json.orElse, Json.truthy, hne]
    unfold TokenEntry.principal
    cases hm : e.role with
    | master => exact absurd hm hrole
    | limited role => exact ⟨rfl, congrArg some hproj⟩

def postToken (role : String) : Call :=
  (⟨0, "u2", "", 5242880⟩, acme, .createConfig "api_tokens" ⟨none, 97, .json (.obj
    [("role", .str role), ("token_hash", .str (hashToken "evil"))])⟩)

theorem config_post_mints_master :
    resolvePrincipal "" "stk_a" (loadTokens (tokenRows acmeTokens)) = .ok (some acme.principal) ∧
      acme.principal.canAdmin = true ∧ ¬ ResolvesMaster "" acmeTokens "evil" ∧
      ∃ s, run (serve Python.literal Backend.sqlite) ⟨acmeTokens, []⟩ [postToken "master"] = some s ∧
        ResolvesMaster "" s.db "evil" := by
  refine ⟨by decide +kernel, rfl, ?_, _, rfl, ⟨none, defaultRole, true, .null⟩, by decide +kernel, rfl⟩
  rintro ⟨who, hwho, -⟩
  have hnone : resolvePrincipal "" "evil" (loadTokens (tokenRows acmeTokens)) = .ok none := by
    decide +kernel
  rw [hnone] at hwho
  cases hwho

theorem config_post_of_viewer_confers_no_privilege :
    ∃ s, run (serve Python.literal Backend.sqlite) ⟨acmeTokens, []⟩ [postToken "viewer"] = some s ∧
      (∀ apiKey raw, ResolvesMaster apiKey s.db raw → ResolvesMaster apiKey acmeTokens raw) ∧
      ∀ k p, (k, p) ∈ s.touched → ∀ raw e, lookupToken s.db raw = .ok (some e) → e.source = k →
        e.principal.isMaster = false ∧ e.principal.projectId = some p := by
  have hrun : run (serve Python.literal Backend.sqlite) ⟨acmeTokens, []⟩ [postToken "viewer"] = some _ := rfl
  refine ⟨_, hrun, contained_requests_confer_no_privilege hrun ⟨?_, fun _ _ => trivial⟩⟩
  rintro - payload hbody ⟨-, -, hrole⟩
  cases hbody
  simp [Dict.get, Assoc.get?] at hrole

end JvmScout.Security
