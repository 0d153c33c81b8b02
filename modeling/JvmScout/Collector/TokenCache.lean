import JvmScout.Collector.Routes
import JvmScout.Collector.TokenLookup
import JvmScout.Lib.Runs

/-!
The token cache on the event loop. A request that finds the cache stale reads the
rows, is suspended, and overwrites the cache when it resumes; a revocation commits,
is suspended, and resets the cache before it returns.
-/

namespace JvmScout.Security

open Storage Routes Relational Runs

structure TokenStore where
  loadedAt : ℕ
  byHash : TokenMap

def TokenStore.stale (ttl now : ℕ) (store : TokenStore) : Bool := decide (ttl < now - store.loadedAt)

def TokenStore.reset : TokenStore := ⟨0, []⟩

structure Reload where
  provided : String
  startedAt : ℕ
  late : Bool
  rows : Option (List (ℕ × ConfigEntityRow))

structure Answer where
  provided : String
  late : Bool
  entry : Option TokenEntry
deriving DecidableEq

inductive Phase where
  | before
  | committed (k : ℕ) (h : HashKey)
  | returned (k : ℕ) (h : HashKey)
deriving DecidableEq

def Phase.revoked : Phase → Option (ℕ × HashKey)
  | .before => none
  | .committed k h | .returned k h => some (k, h)

def Phase.isReturned : Phase → Bool
  | .returned _ _ => true
  | _ => false

structure Loop where
  db : Db
  store : TokenStore
  clock : ℕ
  reloading : List Reload
  answers : List Answer
  phase : Phase

def Loop.start (db : Db) : Loop := ⟨db, .reset, 0, [], [], .before⟩

inductive Revocation where
  | patch (entityId : String) (payload : Dict)
  | delete (entityId : String)

def Revocation.entityId : Revocation → String
  | .patch entityId _ | .delete entityId => entityId

inductive Label where
  | tick (d : ℕ)
  | resolve (provided : String)
  | query (i : ℕ)
  | resume (i : ℕ)
  | write (db : Db)
  | resetStore
  | revoke (scope : Option String × Bool) (r : Revocation)
  | returned

def live (k : ℕ) (h : HashKey) (rows : List (ℕ × ConfigEntityRow)) : Bool :=
  rows.any fun r => r.1 == k &&
    match readToken r with
    | .ok (some (h', _)) => h' == h
    | _ => false

def Revocation.commit (scope : Option String × Bool) (r : Revocation) (db : Db) : Option Db :=
  match r with
  | .patch entityId payload => do
    let (_, row) ← findConfig "api_tokens" entityId scope.1 scope.2 db
    if (Dict.get (patched row payload).jsonData "revoked_at").truthy then
      (updateConfig "api_tokens" entityId payload scope.1 scope.2 db).map Prod.fst
    else none
  | .delete entityId => deleteConfig "api_tokens" entityId scope.1 scope.2 db

def tokenOf (row : ConfigEntityRow) : Option HashKey :=
  (HashKey.of (Dict.get row.jsonData "token_hash")).toOption

def asksStore (apiKey provided : String) : Bool :=
  provided != "" && decide (compareDigest provided (.text apiKey) = .ok false)

def authenticatedBy (apiKey provided : String) (map : TokenMap) : Option TokenEntry :=
  if asksStore apiKey provided then (findToken (hashToken provided) map).toOption.join else none

section Step

variable (ttl : ℕ) (apiKey : String)

def resolve (provided : String) (s : Loop) : Loop :=
  if asksStore apiKey provided && s.store.stale ttl s.clock then
    { s with reloading := s.reloading ++ [⟨provided, s.clock, s.phase.isReturned, none⟩] }
  else
    { s with answers := s.answers ++
        [⟨provided, s.phase.isReturned, authenticatedBy apiKey provided s.store.byHash⟩] }

def query (i : ℕ) (s : Loop) : Option Loop :=
  match s.reloading[i]? with
  | some ⟨provided, startedAt, late, none⟩ =>
    some { s with reloading := s.reloading.set i ⟨provided, startedAt, late, some (tokenRows s.db)⟩ }
  | _ => none

def resume (i : ℕ) (s : Loop) : Option Loop :=
  match s.reloading[i]? with
  | some ⟨provided, startedAt, late, some rows⟩ =>
    match loadTokens rows with
    | .ok map =>
      some { s with
        reloading := s.reloading.eraseIdx i
        store := ⟨startedAt, map⟩
        answers := s.answers ++ [⟨provided, late, authenticatedBy apiKey provided map⟩] }
    | .error _ => some { s with reloading := s.reloading.eraseIdx i }
  | _ => none

def write (db : Db) (s : Loop) : Option Loop :=
  match s.phase.revoked with
  | some (k, h) => if live k h (tokenRows db) then none else some { s with db := db }
  | none => some { s with db := db }

def commitRevocation (scope : Option String × Bool) (r : Revocation) (s : Loop) : Option Loop :=
  match s.phase with
  | .before => do
    let (k, row) ← findConfig "api_tokens" r.entityId scope.1 scope.2 s.db
    let h ← tokenOf row
    let db ← r.commit scope s.db
    return { s with db := db, phase := .committed k h }
  | _ => none

def returnRevocation (s : Loop) : Option Loop :=
  match s.phase with
  | .committed k h => some { s with store := .reset, phase := .returned k h }
  | _ => none

def step (s : Loop) : Label → Option Loop
  | .tick d => some { s with clock := s.clock + d }
  | .resolve provided => some (resolve ttl apiKey provided s)
  | .query i => query i s
  | .resume i => resume apiKey i s
  | .write db => write db s
  | .resetStore => some { s with store := .reset }
  | .revoke scope r => commitRevocation scope r s
  | .returned => returnRevocation s

end Step

theorem resolvePrincipal_of_loaded {apiKey provided : String} {map : TokenMap} {e : TokenEntry}
    (h : authenticatedBy apiKey provided map = some e) :
    resolvePrincipal apiKey provided (.ok map) = .ok (some e.principal) := by
  unfold authenticatedBy at h
  split at h
  · rename_i hasks
    simp only [asksStore, Bool.and_eq_true, bne_iff_ne, ne_eq, decide_eq_true_eq] at hasks
    have hfind : findToken (hashToken provided) map = .ok (some e) := by
      cases hf : findToken (hashToken provided) map with
      | error err => simp [hf, Except.toOption] at h
      | ok o => simpa [hf, Except.toOption] using h
    simp [resolvePrincipal, hasks, bind, Except.bind, hfind, pure, Except.pure]
  · cases h

def Absent (k : ℕ) (h : HashKey) (map : TokenMap) : Prop := ∀ e, Assoc.get? map h = some e → e.source ≠ k

theorem live_of_mem {k : ℕ} {h : HashKey} {rows : List (ℕ × ConfigEntityRow)} {row : ConfigEntityRow}
    {e : TokenEntry} (hm : (k, row) ∈ rows) (hr : readToken (k, row) = .ok (some (h, e))) :
    live k h rows = true := by
  simp only [live, List.any_eq_true, Bool.and_eq_true, beq_iff_eq]
  exact ⟨(k, row), hm, rfl, by simp [hr]⟩

theorem mem_of_live {k : ℕ} {h : HashKey} {rows : List (ℕ × ConfigEntityRow)} (hl : live k h rows = true) :
    ∃ row e, (k, row) ∈ rows ∧ readToken (k, row) = .ok (some (h, e)) := by
  simp only [live, List.any_eq_true, Bool.and_eq_true, beq_iff_eq] at hl
  obtain ⟨⟨k', row⟩, hm, rfl, hr⟩ := hl
  split at hr
  · rename_i h' e heq
    cases eq_of_beq hr
    exact ⟨row, e, hm, heq⟩
  · cases hr

theorem absent_of_not_live {k : ℕ} {h : HashKey} {rows : List (ℕ × ConfigEntityRow)} {map : TokenMap}
    (hl : live k h rows = false) (hmap : loadTokens rows = .ok map) : Absent k h map := by
  obtain ⟨-, rfl⟩ := loadTokens_iff.mp hmap
  intro e he hsource
  rw [toMap, get?_foldl, Assoc.get?_nil, Option.or_none] at he
  obtain ⟨r, hr, hread⟩ := mem_tokenEntries.mp (lastEntry_mem he)
  have hk : r.1 = k := by rw [← (readToken_entry hread).1, hsource]
  subst hk
  rw [live_of_mem hr hread] at hl
  cases hl

theorem authenticatedBy_absent {k : ℕ} {h : HashKey} {map : TokenMap} {apiKey provided : String}
    {e : TokenEntry} (ha : Absent k h map) (he : authenticatedBy apiKey provided map = some e)
    (hsource : e.source = k) : HashKey.text (hashToken provided) ≠ h := by
  rintro rfl
  unfold authenticatedBy at he
  split at he
  · cases hf : findToken (hashToken provided) map with
    | error err => simp [hf, Except.toOption] at he
    | ok o =>
      simp only [hf, Except.toOption, Option.join_some] at he
      subst he
      exact ha e ((findToken_iff (isAscii_hashToken provided)).mp hf).2 hsource
  · cases he

theorem not_live_of_commit {scope : Option String × Bool} {r : Revocation} {db db' : Db} {k : ℕ}
    {row : ConfigEntityRow} (h : HashKey)
    (hf : findConfig "api_tokens" r.entityId scope.1 scope.2 db = some (k, row))
    (hc : r.commit scope db = some db') : live k h (tokenRows db') = false := by
  rw [Bool.eq_false_iff]
  intro hl
  obtain ⟨row', e, hmem, hread⟩ := mem_of_live hl
  have hrow := (Table.mem_select.mp hmem).1
  cases r with
  | patch entityId payload =>
    simp only [Revocation.entityId] at hf
    simp only [Revocation.commit, hf, bind, Option.bind_some, updateConfig, Option.map_some] at hc
    split at hc
    · rename_i hrevoked
      cases hc
      obtain ⟨_, -, heq⟩ := (Table.mem_set _).mp hrow
      simp only [if_true] at heq
      subst heq
      simp [readToken, hrevoked, pure, Except.pure,
        configToDict_get (patched row payload) (k := "revoked_at") (by decide) (by decide) (by decide)] at hread
    · cases hc
  | delete entityId =>
    simp only [Revocation.entityId] at hf
    simp only [Revocation.commit, deleteConfig, hf, Option.some.injEq] at hc
    subst hc
    exact ((Table.mem_erase _).mp hrow).2 rfl

structure Sound (s : Loop) : Prop where
  early : s.phase.isReturned = false →
    (∀ r ∈ s.reloading, r.late = false) ∧ ∀ a ∈ s.answers, a.late = false
  gone : ∀ k h, s.phase.revoked = some (k, h) → live k h (tokenRows s.db) = false
  unread : ∀ k h, s.phase = .returned k h →
    ∀ r ∈ s.reloading, ∀ rows, r.rows = some rows → live k h rows = false
  absent : ∀ k h, s.phase = .returned k h → Absent k h s.store.byHash
  refused : ∀ k h, s.phase = .returned k h → ∀ a ∈ s.answers, a.late = true →
    ∀ e, a.entry = some e → e.source = k → HashKey.text (hashToken a.provided) ≠ h

def TakesEffect (s : Loop) : Prop :=
  ∀ k h, s.phase = .returned k h → ∀ a ∈ s.answers, a.late = true →
    ∀ e, a.entry = some e → e.source = k → HashKey.text (hashToken a.provided) ≠ h

def NoneInFlight (s : Loop) (l : Label) : Prop :=
  l = .returned → ∀ k h, s.phase = .committed k h →
    ∀ r ∈ s.reloading, ∀ rows, r.rows = some rows → live k h rows = false

section Steps

variable {ttl : ℕ} {apiKey : String} {s s' : Loop}

theorem Sound.resolve (h : Sound s) (provided : String) : Sound (resolve ttl apiKey provided s) := by
  unfold Security.resolve
  split
  · refine ⟨fun hp => ?_, h.gone, fun k hash hp r hr rows hrows => ?_, h.absent, h.refused⟩
    · refine ⟨fun r hr => ?_, (h.early hp).2⟩
      rcases List.mem_append.mp hr with hr | hr
      · exact (h.early hp).1 r hr
      · rw [List.mem_singleton.mp hr]
        exact hp
    · rcases List.mem_append.mp hr with hr | hr
      · exact h.unread k hash hp r hr rows hrows
      · rw [List.mem_singleton.mp hr] at hrows
        cases hrows
  · refine ⟨fun hp => ?_, h.gone, h.unread, h.absent, fun k hash hp a ha hlate e he hsource => ?_⟩
    · refine ⟨(h.early hp).1, fun a ha => ?_⟩
      rcases List.mem_append.mp ha with ha | ha
      · exact (h.early hp).2 a ha
      · rw [List.mem_singleton.mp ha]
        exact hp
    · rcases List.mem_append.mp ha with ha | ha
      · exact h.refused k hash hp a ha hlate e he hsource
      · rw [List.mem_singleton.mp ha] at he ⊢
        exact authenticatedBy_absent (h.absent k hash hp) he hsource

theorem Sound.query {i : ℕ} (h : Sound s) (hs : query i s = some s') : Sound s' := by
  unfold Security.query at hs
  split at hs
  · rename_i provided startedAt late hget
    cases hs
    refine ⟨fun hp => ⟨fun r hr => ?_, (h.early hp).2⟩, h.gone, fun k hash hp r hr rows hrows => ?_,
      h.absent, h.refused⟩
    · rcases List.mem_or_eq_of_mem_set hr with hr | rfl
      · exact (h.early hp).1 r hr
      · have hlate := (h.early hp).1 _ (List.mem_of_getElem? hget)
        exact hlate
    · rcases List.mem_or_eq_of_mem_set hr with hr | rfl
      · exact h.unread k hash hp r hr rows hrows
      · cases hrows
        exact h.gone k hash (by rw [hp, Phase.revoked])
  · cases hs

theorem Sound.resume {i : ℕ} (h : Sound s) (hs : resume apiKey i s = some s') : Sound s' := by
  unfold Security.resume at hs
  split at hs
  · rename_i provided startedAt late rows hget
    have hmem := List.mem_of_getElem? hget
    have hkeep {r : Reload} (hr : r ∈ s.reloading.eraseIdx i) : r ∈ s.reloading := List.mem_of_mem_eraseIdx hr
    split at hs <;> cases hs
    · rename_i map hmap
      have hnew {k : ℕ} {hash : HashKey} (hp : s.phase = .returned k hash) : Absent k hash map :=
        absent_of_not_live (h.unread k hash hp _ hmem rows rfl) hmap
      refine ⟨fun hp => ⟨fun r hr => (h.early hp).1 r (hkeep hr), fun a ha => ?_⟩, h.gone,
        fun k hash hp r hr => h.unread k hash hp r (hkeep hr), fun k hash hp => hnew hp,
        fun k hash hp a ha hlate e he hsource => ?_⟩
      · rcases List.mem_append.mp ha with ha | ha
        · exact (h.early hp).2 a ha
        · rw [List.mem_singleton.mp ha]
          exact (h.early hp).1 _ hmem
      · rcases List.mem_append.mp ha with ha | ha
        · exact h.refused k hash hp a ha hlate e he hsource
        · rw [List.mem_singleton.mp ha] at he ⊢
          exact authenticatedBy_absent (hnew hp) he hsource
    · exact ⟨fun hp => ⟨fun r hr => (h.early hp).1 r (hkeep hr), (h.early hp).2⟩, h.gone,
        fun k hash hp r hr => h.unread k hash hp r (hkeep hr), h.absent, h.refused⟩
  · cases hs

theorem Sound.write {db : Db} (h : Sound s) (hs : write db s = some s') : Sound s' := by
  unfold Security.write at hs
  split at hs
  · rename_i k hash hp
    split at hs <;> cases hs
    rename_i hl
    refine ⟨h.early, fun k' hash' hp' => ?_, h.unread, h.absent, h.refused⟩
    cases hp.symm.trans hp'
    exact Bool.eq_false_iff.mpr hl
  · rename_i hp
    cases hs
    refine ⟨h.early, fun k hash hp' => ?_, h.unread, h.absent, h.refused⟩
    cases hp.symm.trans hp'

theorem Sound.commit {scope : Option String × Bool} {r : Revocation} (h : Sound s)
    (hs : commitRevocation scope r s = some s') : Sound s' := by
  unfold commitRevocation at hs
  split at hs
  · rename_i hp
    simp only [bind, Option.bind_eq_some_iff] at hs
    obtain ⟨⟨k, row⟩, hf, hash, -, db, hdb, hs⟩ := hs
    cases hs
    have hearly := h.early (by simp [hp, Phase.isReturned])
    refine ⟨fun _ => hearly, fun k' hash' hp' => ?_, fun _ _ hp' => ?_, fun _ _ hp' => ?_, fun _ _ hp' => ?_⟩
    · cases hp'
      exact not_live_of_commit hash hf hdb
    all_goals cases hp'
  · cases hs

theorem Sound.returned (h : Sound s) (hg : NoneInFlight s .returned)
    (hs : returnRevocation s = some s') : Sound s' := by
  unfold returnRevocation at hs
  split at hs
  · rename_i k hash hp
    cases hs
    have hearly := h.early (by simp [hp, Phase.isReturned])
    refine ⟨fun hp' => ?_, fun k' hash' hp' => ?_, fun k' hash' hp' => ?_, fun _ _ _ e he => ?_,
      fun _ _ _ a ha hlate => ?_⟩
    · cases hp'
    · cases hp'
      exact h.gone k hash (by rw [hp, Phase.revoked])
    · cases hp'
      exact hg rfl k hash hp
    · cases he
    · rw [hearly.2 a ha] at hlate
      cases hlate
  · cases hs

theorem Sound.step {l : Label} (h : Sound s) (hg : NoneInFlight s l)
    (hs : step ttl apiKey s l = some s') : Sound s' := by
  cases l with
  | tick d =>
    cases hs
    exact ⟨h.early, h.gone, h.unread, h.absent, h.refused⟩
  | resolve provided =>
    cases hs
    exact h.resolve provided
  | query i => exact h.query hs
  | resume i => exact h.resume hs
  | write db => exact h.write hs
  | resetStore =>
    cases hs
    exact ⟨h.early, h.gone, h.unread, fun _ _ _ e he => (by cases he), h.refused⟩
  | revoke scope r => exact h.commit hs
  | returned => exact h.returned hg hs

end Steps

/-- A revocation takes effect in every interleaving in which no reload that read the
rows before it is still suspended when it resets the cache. -/
theorem revocation_takes_effect {ttl : ℕ} {apiKey : String} {db : Db} {labels : List Label} {s : Loop}
    (hr : run (step ttl apiKey) (.start db) labels = some s)
    (hg : AllSteps (step ttl apiKey) NoneInFlight (.start db) labels) : TakesEffect s := by
  have hstart : Sound (.start db) := by
    refine ⟨fun _ => ⟨?_, ?_⟩, fun _ _ hp => ?_, fun _ _ hp => ?_, fun _ _ hp => ?_, fun _ _ hp => ?_⟩
    · simp [Loop.start]
    · simp [Loop.start]
    all_goals cases hp
  have hs : Sound s := run_guarded (fun _ _ _ hi hg hs => hi.step hg hs) hstart hg hr
  exact hs.refused

def reloadAcrossRevocation : List Label :=
  [.tick 11, .resolve "stk_a", .query 0,
    .revoke (some "acme", false) (.patch "u1" [("revoked_at", .str "2026-01-01T00:00:00Z")]), .returned,
    .resume 0, .resolve "stk_a"]

theorem revoked_token_still_authenticates :
    ∃ s, run (step 10 "") (.start acmeTokens) reloadAcrossRevocation = some s ∧ ¬ TakesEffect s := by
  have hend : (run (step 10 "") (.start acmeTokens) reloadAcrossRevocation).map
      (fun s => (s.phase, s.answers)) = some (.returned 1 (.text (hashToken "stk_a")),
        [⟨"stk_a", false, some ⟨"acme", .limited .admin, .str "stk_a", 1⟩⟩,
          ⟨"stk_a", true, some ⟨"acme", .limited .admin, .str "stk_a", 1⟩⟩]) := by
    decide +kernel
  obtain ⟨s, hs, heq⟩ := Option.map_eq_some_iff.mp hend
  obtain ⟨hphase, hanswers⟩ := Prod.mk.inj heq
  have hlate : (⟨"stk_a", true, some ⟨"acme", .limited .admin, .str "stk_a", 1⟩⟩ : Answer) ∈ s.answers := by
    rw [hanswers]
    exact List.mem_cons_of_mem _ List.mem_cons_self
  exact ⟨s, hs, fun h => h _ _ hphase _ hlate rfl _ rfl rfl rfl⟩

def revokeBeforeQuery : List Label :=
  [.tick 11, .resolve "stk_a",
    .revoke (some "acme", false) (.patch "u1" [("revoked_at", .str "2026-01-01T00:00:00Z")]), .returned,
    .query 0, .resume 0, .resolve "stk_a"]

theorem revocation_takes_effect_unread :
    ∃ s, run (step 10 "") (.start acmeTokens) revokeBeforeQuery = some s ∧ TakesEffect s ∧ s.answers ≠ [] := by
  have hend : (run (step 10 "") (.start acmeTokens) revokeBeforeQuery).map (fun s => s.answers) =
      some [⟨"stk_a", false, none⟩, ⟨"stk_a", true, none⟩] := by
    decide +kernel
  have hunread : (run (step 10 "") (.start acmeTokens) (revokeBeforeQuery.take 3)).map
      (fun s => s.reloading.map fun r => r.rows.isSome) = some [false] := by
    decide +kernel
  obtain ⟨s, hs, hanswers⟩ := Option.map_eq_some_iff.mp hend
  have hanswered : s.answers ≠ [] := by
    rw [hanswers]
    exact List.cons_ne_nil _ _
  refine ⟨s, hs, revocation_takes_effect hs ?_, hanswered⟩
  refine ⟨nofun, fun t₁ h₁ => ⟨nofun, fun t₂ h₂ => ⟨nofun, fun t₃ h₃ => ⟨fun _ k h _ r hmem rows hrows => ?_, ?_⟩⟩⟩⟩
  · have hreached : run (step 10 "") (.start acmeTokens) (revokeBeforeQuery.take 3) = some t₃ :=
      run_cons.mpr ⟨t₁, h₁, run_cons.mpr ⟨t₂, h₂, run_cons.mpr ⟨t₃, h₃, rfl⟩⟩⟩
    rw [hreached, Option.map_some] at hunread
    have hread : r.rows.isSome ∈ t₃.reloading.map fun r => r.rows.isSome := List.mem_map_of_mem hmem
    rw [Option.some.inj hunread, List.mem_singleton, hrows] at hread
    cases hread
  · exact fun _ _ => ⟨nofun, fun _ _ => ⟨nofun, fun _ _ => ⟨nofun, fun _ _ => trivial⟩⟩⟩

end JvmScout.Security
