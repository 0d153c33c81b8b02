import JvmScout.Collector.AlertSteps

namespace JvmScout.Alerts.Debounce

open Storage Relational Runs

variable (py : Python)

def ruleRows (t : Option String) (db : Db) : List (ℕ × ConfigEntityRow) :=
  db.configEntities.select (configClause "alert_rules" t false)

def UniqueIds (t : Option String) (db : Db) : Prop := ((ruleRows t db).map fun r => r.2.entityId).Nodup

def RateBased (rule : Dict) : Prop :=
  Dict.get rule "trigger_type" = .str "volume_threshold" ∨ Dict.get rule "trigger_type" = .str "event_reoccurs"

def windowMinutes (rule : Dict) : Except PyError ℚ := do
  let cfg ← ruleConfig rule
  py.toFloat ((Dict.get cfg "windowMinutes").orElse (.int 0))

def Spaced (rule : Dict) (t₁ t₂ : ℚ) : Prop :=
  ∃ minutes, windowMinutes py rule = .ok minutes ∧ max 60 (60 * minutes) - 1 < t₂ - t₁

def firedAt (t : Option String) (entityId : String) (s : Worker) : List ℚ :=
  (s.delivered.filter fun f => f.projectId == t && f.ruleId == entityId).map Firing.checkedAt

def stamp (entityId : String) (firedAt : Json) (row : ConfigEntityRow) : ConfigEntityRow :=
  if row.entityId = entityId then patched row [("last_triggered_at", firedAt)] else row

def RulesStand (t : Option String) (s : Worker) (l : Label) : Prop :=
  ∀ db, l = .write db → ruleRows t db = ruleRows t s.db

/-- A step leaves the rules of the tenant as they are, or stamps the one that the
delivery just before it was for. -/
def ChangesByDelivery (step : Worker → Label → Option Worker) (t : Option String) (s : Worker) (l : Label) :
    Prop :=
  ∀ s', step s l = some s' → ruleRows t s'.db = ruleRows t s.db ∨
    ∃ turn, s.stage = .recording turn ∧ s.delivered.getLast? = some (turn.firing py) ∧
      turn.projectId = t ∧ ruleRows t s'.db = (ruleRows t s.db).map fun r =>
        (r.1, stamp (ruleId py turn.rule) (.str (nowIso s.wall)) r.2)

variable {py}

section Rules

variable {t projectId : Option String} {db : Db} {clock : ℚ} {rule : Dict}

theorem ruleId_configToDict (row : ConfigEntityRow) : ruleId py (configToDict row) = row.entityId := by
  rw [ruleId, configToDict_id, Python.str]

theorem stamp_entityId (entityId : String) (v : Json) (row : ConfigEntityRow) :
    (stamp entityId v row).entityId = row.entityId := by
  unfold stamp
  split <;> rfl

theorem row_unique (hids : UniqueIds t db) {r r' : ℕ × ConfigEntityRow} (hr : r ∈ ruleRows t db)
    (hr' : r' ∈ ruleRows t db) (h : r.2.entityId = r'.2.entityId) : r = r' :=
  List.inj_on_of_nodup_map hids hr hr' h

theorem findConfig_rule (hids : UniqueIds t db) {r : ℕ × ConfigEntityRow} (hr : r ∈ ruleRows t db) :
    findConfig "alert_rules" r.2.entityId t false db = some r := by
  obtain ⟨hmem, hclause⟩ := Table.mem_select.mp hr
  cases hf : findConfig "alert_rules" r.2.entityId t false db with
  | none =>
    have hnone := List.find?_eq_none.mp hf r hmem
    simp [hclause] at hnone
  | some r' =>
    have hid : r'.2.entityId = r.2.entityId := by
      have hfound := List.find?_some hf
      simp only [Bool.and_eq_true, beq_iff_eq] at hfound
      exact hfound.2
    have hrule : r' ∈ ruleRows t db := Table.mem_select.mpr (findConfig_eq_some hf)
    rw [row_unique hids hrule hr hid]

theorem ruleRows_markFired (hids : UniqueIds t db) {r : ℕ × ConfigEntityRow} (hr : r ∈ ruleRows t db) :
    ruleRows t (markFired py clock (configToDict r.2) t db) =
      (ruleRows t db).map fun x => (x.1, stamp r.2.entityId (.str (nowIso clock)) x.2) := by
  obtain ⟨hmem, hclause⟩ := Table.mem_select.mp hr
  have hid : py.str (Dict.get (configToDict r.2) "id") = r.2.entityId := ruleId_configToDict r.2
  rw [markFired, hid, updateConfig, findConfig_rule hids hr]
  dsimp only [Option.elim_some, ruleRows]
  rw [Table.select_set]
  · apply List.map_congr_left
    intro x hx
    rw [stamp]
    by_cases hkey : x.1 = r.1
    · have hsame : x.2 = r.2 := db.configEntities.key_unique (Table.mem_select.mp hx).1 (hkey ▸ hmem)
      rw [if_pos hkey, hsame, if_pos rfl]
    · rw [if_neg hkey, if_neg]
      intro hx'
      exact hkey (congrArg Prod.fst (row_unique hids hx hr hx'))
  · exact hclause
  · intro w hw
    rw [db.configEntities.key_unique hw hmem]
    exact hclause

theorem ruleRows_markFired_other (h : projectId ≠ t) :
    ruleRows t (markFired py clock rule projectId db) = ruleRows t db := by
  unfold markFired updateConfig
  cases hf : findConfig "alert_rules" (py.str (Dict.get rule "id")) projectId false db with
  | none => rfl
  | some r =>
    obtain ⟨hmem, hclause⟩ := findConfig_eq_some hf
    have hforeign : configClause "alert_rules" t false r.2 = false := by
      simp only [configClause, owned, Bool.false_or, Bool.and_eq_true, beq_iff_eq] at hclause
      simp [configClause, owned, hclause, h]
    apply Eq.symm
    apply Table.Agree.select
    apply Table.agree_set
    · exact hforeign
    · intro w hw
      rw [db.configEntities.key_unique hw hmem]
      exact hforeign

def Pending (py : Python) (t : Option String) (db : Db) (rules : List Dict) : Prop :=
  (rules.map (ruleId py)).Nodup ∧ ∀ rule ∈ rules, ∃ r ∈ ruleRows t db, configToDict r.2 = rule

theorem pending_listConfig (hids : UniqueIds t db) : Pending py t db (listConfig "alert_rules" t false db) := by
  refine ⟨?_, fun rule hrule => List.mem_map.mp hrule⟩
  have hmap : (listConfig "alert_rules" t false db).map (ruleId py) =
      (ruleRows t db).map fun r => r.2.entityId := by
    rw [listConfig, List.map_map]
    apply List.map_congr_left
    intro r _
    exact ruleId_configToDict r.2
  rw [hmap]
  exact hids

theorem Pending.sublist {rules rules' : List Dict} (h : Pending py t db rules) (hsub : rules'.Sublist rules) :
    Pending py t db rules' :=
  ⟨h.1.sublist (hsub.map _), fun rule hrule => h.2 rule (hsub.subset hrule)⟩

theorem Pending.markFired {rest : List Dict} (hids : UniqueIds t db) (h : Pending py t db (rule :: rest)) :
    Pending py t (markFired py clock rule t db) rest := by
  obtain ⟨hnodup, hrows⟩ := h
  rw [List.map_cons, List.nodup_cons] at hnodup
  refine ⟨hnodup.2, fun other hother => ?_⟩
  obtain ⟨r, hr, rfl⟩ := hrows rule List.mem_cons_self
  obtain ⟨x, hx, rfl⟩ := hrows other (List.mem_cons_of_mem _ hother)
  refine ⟨x, ?_, rfl⟩
  rw [ruleRows_markFired hids hr]
  refine List.mem_map.mpr ⟨x, hx, ?_⟩
  have hne : ¬ x.2.entityId = r.2.entityId := by
    intro heq
    apply hnodup.1
    have hid : ruleId py (configToDict x.2) = x.2.entityId := ruleId_configToDict x.2
    rw [ruleId_configToDict, ← heq, ← hid]
    exact List.mem_map_of_mem hother
  rw [stamp, if_neg hne]

theorem UniqueIds.markFired (hids : UniqueIds t db) {r : ℕ × ConfigEntityRow} (hr : r ∈ ruleRows t db) :
    UniqueIds t (markFired py clock (configToDict r.2) t db) := by
  have hkeep : (ruleRows t (Alerts.markFired py clock (configToDict r.2) t db)).map (fun x => x.2.entityId) =
      (ruleRows t db).map fun x => x.2.entityId := by
    rw [ruleRows_markFired hids hr, List.map_map]
    apply List.map_congr_left
    intro x _
    exact stamp_entityId _ _ x.2
  rw [UniqueIds, hkeep]
  exact hids

end Rules

def Stage.ahead (t : Option String) : Stage → List Dict
  | .visiting _ projectId rules => if projectId = t then rules else []
  | .checked turn | .delivering turn _ | .recording turn =>
    if turn.projectId = t then turn.rule :: turn.rest else []
  | _ => []

def Stage.turn : Stage → Option Turn
  | .checked turn | .delivering turn _ => some turn
  | _ => none

def Stage.quiet : Stage → Bool
  | .loading _ _ _ (some _) | .recording _ => false
  | _ => true

structure Sound (py : Python) (t : Option String) (db₀ : Db) (s : Worker) : Prop where
  ids : UniqueIds t s.db
  same : ∀ r ∈ ruleRows t s.db, ∀ r₀ ∈ ruleRows t db₀, r.2.entityId = r₀.2.entityId →
    SameRule (configToDict r₀.2) (configToDict r.2)
  cached : ∀ ent, Assoc.get? s.byProject t = some ent → ent.2 = listConfig "alert_rules" t false s.db
  read : ∀ ev startedAt rows, s.stage = .loading ev t startedAt (some rows) →
    rows = listConfig "alert_rules" t false s.db
  ahead : Pending py t s.db (s.stage.ahead t)
  sent : ∀ turn, s.stage = .recording turn → s.delivered.getLast? = some (turn.firing py)

section Steps

variable {backend : Backend} {ttl : ℚ} {t : Option String} {db₀ : Db} {s s' : Worker}

theorem sound_start (py : Python) {db : Db} (hids : UniqueIds t db) (wall : ℚ) :
    Sound py t db (.start db wall) := by
  refine ⟨hids, fun r hr r₀ hr₀ hid => ?_, fun ent hent => ?_, fun ev startedAt rows h => ?_, ?_,
    fun turn h => ?_⟩
  · rw [row_unique hids hr hr₀ hid]
    exact fun k _ => rfl
  · cases hent
  · cases h
  · exact ⟨List.nodup_nil, fun rule hrule => by cases hrule⟩
  · cases h

theorem Sound.move (h : Sound py t db₀ s) {stage : Stage} (hquiet : stage.quiet = true)
    (hahead : Pending py t s.db (stage.ahead t)) : Sound py t db₀ { s with stage := stage } := by
  refine ⟨h.ids, h.same, h.cached, fun ev startedAt rows heq => ?_, hahead, fun turn heq => ?_⟩
  · change stage = _ at heq
    rw [heq] at hquiet
    cases hquiet
  · change stage = _ at heq
    rw [heq] at hquiet
    cases hquiet

theorem Sound.visit (h : Sound py t db₀ s) {ev : Dict} {projectId : Option String} {rules : List Dict}
    (hsub : projectId = t → rules.Sublist (s.stage.ahead t)) :
    Sound py t db₀ { s with stage := .visiting ev projectId rules } := by
  apply h.move rfl
  rw [Stage.ahead]
  split
  · rename_i hp
    exact h.ahead.sublist (hsub hp)
  · exact h.ahead.sublist (List.nil_sublist _)

theorem pending_enter {ev : Dict} {projectId : Option String} {rules : List Dict} (hids : UniqueIds t s.db)
    (hrules : projectId = t → rules = listConfig "alert_rules" t false s.db) :
    Pending py t s.db ((enter py ev projectId rules).ahead t) := by
  have hall : Pending py t s.db (listConfig "alert_rules" t false s.db) := pending_listConfig hids
  unfold enter
  split
  · exact hall.sublist (List.nil_sublist _)
  · rw [Stage.ahead]
    split
    · rename_i hp
      rw [hrules hp]
      exact hall
    · exact hall.sublist (List.nil_sublist _)

theorem enter_quiet (ev : Dict) (projectId : Option String) (rules : List Dict) :
    (enter py ev projectId rules).quiet = true := by
  unfold enter
  split <;> rfl

theorem Sound.write {db : Db} (h : Sound py t db₀ s) (hrows : ruleRows t db = ruleRows t s.db) :
    Sound py t db₀ { s with db := db } := by
  have hlist : listConfig "alert_rules" t false db = listConfig "alert_rules" t false s.db :=
    congrArg (List.map fun r : ℕ × ConfigEntityRow => configToDict r.2) hrows
  refine ⟨?_, ?_, ?_, ?_, ?_, h.sent⟩
  · rw [UniqueIds, hrows]
    exact h.ids
  · rw [hrows]
    exact h.same
  · rw [hlist]
    exact h.cached
  · rw [hlist]
    exact h.read
  · refine ⟨h.ahead.1, ?_⟩
    rw [hrows]
    exact h.ahead.2

theorem Sound.begin {ev : Dict} {projectId : Option String} (h : Sound py t db₀ s)
    (hs : begin py ttl ev projectId s = some s') : Sound py t db₀ s' := by
  unfold Debounce.begin at hs
  split at hs
  · split at hs
    · rename_i ent hent
      cases hs
      obtain ⟨hget, -⟩ := Option.filter_eq_some_iff.mp hent
      apply h.move (enter_quiet ev projectId ent.2)
      apply pending_enter h.ids
      rintro rfl
      exact h.cached ent hget
    · cases hs
      apply h.move rfl
      exact h.ahead.sublist (List.nil_sublist _)
  · cases hs

theorem Sound.query (h : Sound py t db₀ s) (hs : query s = some s') : Sound py t db₀ s' := by
  unfold Debounce.query at hs
  split at hs
  · cases hs
    refine ⟨h.ids, h.same, h.cached, fun ev startedAt rows heq => ?_, ?_, fun turn heq => ?_⟩
    · cases heq
      rfl
    · exact h.ahead.sublist (List.nil_sublist _)
    · cases heq
  · cases hs

theorem Sound.resume (h : Sound py t db₀ s) (hs : resume py s = some s') : Sound py t db₀ s' := by
  unfold Debounce.resume at hs
  split at hs
  · rename_i ev projectId startedAt rows hstage
    cases hs
    have hrows : projectId = t → rows = listConfig "alert_rules" t false s.db := by
      rintro rfl
      exact h.read ev startedAt rows hstage
    have hahead : Pending py t s.db ((enter py ev projectId rows).ahead t) := pending_enter h.ids hrows
    have hmoved := h.move (enter_quiet ev projectId rows) hahead
    refine ⟨h.ids, h.same, fun ent hent => ?_, hmoved.read, hahead, hmoved.sent⟩
    rw [Assoc.get?_set] at hent
    split at hent
    · rename_i hp
      cases hent
      exact hrows hp
    · exact h.cached ent hent
  · cases hs

theorem ahead_tail {turn : Turn} (hp : turn.projectId = t) : turn.rest.Sublist
    (if turn.projectId = t then turn.rule :: turn.rest else []) := by
  rw [if_pos hp]
  exact List.sublist_cons_self _ _

theorem Sound.fail (h : Sound py t db₀ s) (hs : fail s = some s') : Sound py t db₀ s' := by
  unfold Debounce.fail at hs
  split at hs <;> cases hs
  · apply h.move rfl
    exact h.ahead.sublist (List.nil_sublist _)
  · rename_i turn hstage
    apply h.visit
    intro hp
    rw [hstage]
    exact ahead_tail hp

theorem Sound.check (h : Sound py t db₀ s) (hs : check py s = some s') : Sound py t db₀ s' := by
  unfold Debounce.check at hs
  split at hs
  · rename_i ev projectId rule rest hstage
    have hahead : s.stage.ahead t = if projectId = t then rule :: rest else [] := by
      rw [hstage, Stage.ahead]
    split at hs <;> cases hs
    · apply h.move rfl
      have hpending := h.ahead
      rw [hahead] at hpending
      exact hpending
    · apply h.visit
      intro hp
      rw [hahead, if_pos hp]
      exact List.sublist_cons_self _ _
  · cases hs
    apply h.move rfl
    exact h.ahead.sublist (List.nil_sublist _)
  · cases hs

theorem Sound.condition (h : Sound py t db₀ s) (hs : condition py backend s = some s') :
    Sound py t db₀ s' := by
  unfold Debounce.condition at hs
  split at hs
  · rename_i turn hstage
    have hpending := h.ahead
    rw [hstage] at hpending
    split at hs <;> cases hs
    · apply h.move rfl
      exact hpending
    · apply h.visit
      intro hp
      rw [hstage]
      exact ahead_tail hp
  · cases hs

theorem Sound.send {net : Network} (h : Sound py t db₀ s) (hs : send py net s = some s') :
    Sound py t db₀ s' := by
  unfold Debounce.send at hs
  split at hs
  · rename_i turn payload hstage
    have hpending := h.ahead
    rw [hstage] at hpending
    split at hs <;> cases hs
    · refine ⟨h.ids, h.same, h.cached, fun ev startedAt rows heq => ?_, hpending, fun turn' heq => ?_⟩
      · cases heq
      · cases heq
        exact List.getLast?_concat
    · apply h.visit
      intro hp
      rw [hstage]
      exact ahead_tail hp
  · cases hs

theorem record_rows (h : Sound py t db₀ s) (hs : record py s = some s') :
    ∃ turn, s.stage = .recording turn ∧ s' = { s with
        db := markFired py s.wall turn.rule turn.projectId s.db
        byProject := []
        stage := .visiting turn.ev turn.projectId turn.rest } ∧
      ((turn.projectId ≠ t ∧ ruleRows t s'.db = ruleRows t s.db) ∨
        (turn.projectId = t ∧ Pending py t s.db (turn.rule :: turn.rest) ∧
          ruleRows t s'.db = (ruleRows t s.db).map fun r =>
            (r.1, stamp (ruleId py turn.rule) (.str (nowIso s.wall)) r.2))) := by
  unfold record at hs
  split at hs
  · rename_i turn hstage
    cases hs
    refine ⟨turn, hstage, rfl, ?_⟩
    by_cases hp : turn.projectId = t
    · have hpending := h.ahead
      rw [hstage, Stage.ahead, if_pos hp] at hpending
      refine .inr ⟨hp, hpending, ?_⟩
      obtain ⟨r, hr, hrule⟩ := hpending.2 turn.rule List.mem_cons_self
      dsimp only
      rw [hp, ← hrule, ruleRows_markFired h.ids hr, ruleId_configToDict]
    · exact .inl ⟨hp, ruleRows_markFired_other hp⟩
  · cases hs

theorem Sound.record (h : Sound py t db₀ s) (hs : record py s = some s') : Sound py t db₀ s' := by
  obtain ⟨turn, hstage, rfl, hrows⟩ := record_rows h hs
  rcases hrows with ⟨hp, hrows⟩ | ⟨hp, hpending, hrows⟩
  · have hvisit : Sound py t db₀ { s with stage := .visiting turn.ev turn.projectId turn.rest } :=
      h.visit fun heq => absurd heq hp
    have hwritten := hvisit.write hrows
    refine ⟨hwritten.ids, hwritten.same, fun ent hent => ?_, hwritten.read, hwritten.ahead, hwritten.sent⟩
    cases hent
  · obtain ⟨r, hr, hrule⟩ := hpending.2 turn.rule List.mem_cons_self
    refine ⟨?_, fun r' hr' r₀ hr₀ hid => ?_, fun ent hent => ?_, fun ev startedAt rows heq => ?_, ?_,
      fun turn' heq => ?_⟩
    · rw [hp, ← hrule]
      exact h.ids.markFired hr
    · rw [hrows] at hr'
      obtain ⟨x, hx, rfl⟩ := List.mem_map.mp hr'
      have hsame := h.same x hx r₀ hr₀ (by rw [← hid, stamp_entityId])
      dsimp only [stamp]
      split
      · exact hsame.patched _
      · exact hsame
    · cases hent
    · cases heq
    · rw [Stage.ahead, if_pos hp]
      dsimp only
      rw [hp]
      exact hpending.markFired h.ids
    · cases heq

theorem Sound.step {l : Label} (h : Sound py t db₀ s) (hl : RulesStand t s l)
    (hs : step py backend ttl s l = some s') : Sound py t db₀ s' := by
  cases l with
  | tick d e =>
    simp only [Debounce.step, tick] at hs
    split at hs <;> cases hs
    exact ⟨h.ids, h.same, h.cached, h.read, h.ahead, h.sent⟩
  | write db =>
    cases hs
    exact h.write (hl db rfl)
  | reset =>
    cases hs
    exact ⟨h.ids, h.same, fun ent hent => (by cases hent), h.read, h.ahead, h.sent⟩
  | begin ev projectId => exact h.begin hs
  | query => exact h.query hs
  | resume => exact h.resume hs
  | fail => exact h.fail hs
  | check => exact h.check hs
  | condition => exact h.condition hs
  | deliver net => exact h.send hs
  | record => exact h.record hs

theorem enter_turn (ev : Dict) (projectId : Option String) (rules : List Dict) :
    (enter py ev projectId rules).turn = none := by
  unfold enter
  split <;> rfl

theorem step_cases {l : Label} (hs : step py backend ttl s l = some s') :
    (∃ m w, s.wall ≤ w ∧ s' = { s with monotonic := m, wall := w }) ∨
    (∃ db, l = .write db ∧ s' = { s with db := db }) ∨
    (∃ c stage, s' = { s with byProject := c, stage := stage } ∧
      (stage.turn = none ∨ stage.turn = s.stage.turn) ∧
      ∀ turn, s.stage = .recording turn → stage = .recording turn) ∨
    check py s = some s' ∨ (∃ net, send py net s = some s') ∨ record py s = some s' := by
  cases l with
  | tick d e =>
    simp only [Debounce.step, tick] at hs
    split at hs <;> cases hs
    rename_i hforward
    exact .inl ⟨_, _, le_add_of_nonneg_right hforward.2, rfl⟩
  | write db =>
    cases hs
    exact .inr (.inl ⟨db, rfl, rfl⟩)
  | check => exact .inr (.inr (.inr (.inl hs)))
  | deliver net => exact .inr (.inr (.inr (.inr (.inl ⟨net, hs⟩))))
  | record => exact .inr (.inr (.inr (.inr (.inr hs))))
  | reset =>
    cases hs
    exact .inr (.inr (.inl ⟨[], s.stage, rfl, .inr rfl, fun _ heq => heq⟩))
  | begin ev projectId =>
    simp only [Debounce.step, Debounce.begin] at hs
    split at hs
    · rename_i hstage
      split at hs <;> cases hs
      · exact .inr (.inr (.inl ⟨s.byProject, _, rfl, .inl (enter_turn ev projectId _), by simp [hstage]⟩))
      · exact .inr (.inr (.inl ⟨s.byProject, _, rfl, .inl rfl, by simp [hstage]⟩))
    · cases hs
  | query =>
    simp only [Debounce.step, Debounce.query] at hs
    split at hs <;> cases hs
    rename_i hstage
    exact .inr (.inr (.inl ⟨s.byProject, _, rfl, .inl rfl, by simp [hstage]⟩))
  | resume =>
    simp only [Debounce.step, Debounce.resume] at hs
    split at hs <;> cases hs
    rename_i hstage
    exact .inr (.inr (.inl ⟨_, _, rfl, .inl (enter_turn _ _ _), by simp [hstage]⟩))
  | fail =>
    simp only [Debounce.step, Debounce.fail] at hs
    split at hs <;> cases hs <;> rename_i hstage
    · exact .inr (.inr (.inl ⟨s.byProject, _, rfl, .inl rfl, by simp [hstage]⟩))
    · exact .inr (.inr (.inl ⟨s.byProject, _, rfl, .inl rfl, by simp [hstage]⟩))
  | condition =>
    simp only [Debounce.step, Debounce.condition] at hs
    split at hs
    · rename_i turn hstage
      split at hs <;> cases hs
      · refine .inr (.inr (.inl ⟨s.byProject, _, rfl, .inr ?_, by simp [hstage]⟩))
        rw [hstage]
        rfl
      · exact .inr (.inr (.inl ⟨s.byProject, _, rfl, .inl rfl, by simp [hstage]⟩))
    · cases hs

theorem step_frame {l : Label} (hs : step py backend ttl s l = some s') :
    (s'.db = s.db ∨ l = .write s'.db ∨ record py s = some s') ∧ s.wall ≤ s'.wall := by
  rcases step_cases hs with ⟨m, w, hw, rfl⟩ | ⟨db, rfl, rfl⟩ | ⟨c, stage, rfl, -⟩ | hcheck | ⟨net, hsend⟩ | hrecord
  · exact ⟨.inl rfl, hw⟩
  · exact ⟨.inr (.inl rfl), le_rfl⟩
  · exact ⟨.inl rfl, le_rfl⟩
  · unfold Debounce.check at hcheck
    split at hcheck
    · split at hcheck <;> cases hcheck <;> exact ⟨.inl rfl, le_rfl⟩
    · cases hcheck
      exact ⟨.inl rfl, le_rfl⟩
    · cases hcheck
  · unfold Debounce.send at hsend
    split at hsend
    · split at hsend <;> cases hsend <;> exact ⟨.inl rfl, le_rfl⟩
    · cases hsend
  · refine ⟨.inr (.inr hrecord), ?_⟩
    unfold Debounce.record at hrecord
    split at hrecord <;> cases hrecord
    exact le_rfl

theorem Sound.changes {l : Label} (h : Sound py t db₀ s) (hl : RulesStand t s l) :
    ChangesByDelivery py (Debounce.step py backend ttl) t s l := by
  intro s' hs
  rcases (step_frame hs).1 with hdb | rfl | hs
  · exact .inl (by rw [hdb])
  · exact .inl (hl s'.db rfl)
  · obtain ⟨turn, hstage, -, ⟨-, hrows⟩ | ⟨hp, -, hrows⟩⟩ := record_rows h hs
    · exact .inl hrows
    · exact .inr ⟨turn, hstage, h.sent turn hstage, hp, hrows⟩

end Steps

end JvmScout.Alerts.Debounce
