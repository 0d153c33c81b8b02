import JvmScout.Collector.AlertTenancy

namespace JvmScout.Alerts

open Storage Relational Traverse

variable {py : Python} {backend : Backend} {clock : ℚ} {net : Network}

def readFields : List String :=
  ["enabled", "application_id", "deployment_id", "trigger_type", "config", "channel", "target"]

def SameRule (r r' : Dict) : Prop := ∀ k ∈ readFields, Dict.get r k = Dict.get r' k

structure NewEventRule (net : Network) (rule : Dict) : Prop where
  enabled : (Dict.get rule "enabled").truthy = true
  trigger : Dict.get rule "trigger_type" = .str "new_event"
  delivered : ∀ payload, deliver net rule payload = .ok true

def Standing (k : ℕ) (t : Option String) (rule : Dict) (db : Db) : Prop :=
  ∃ row, (k, row) ∈ db.configEntities.rows ∧ configClause "alert_rules" t false row = true ∧
    SameRule rule (configToDict row)

section SameRule

variable {r r' : Dict}

theorem SameRule.matchesScope (h : SameRule r r') (ev : Dict) : matchesScope r ev = matchesScope r' ev := by
  have happlication := h "application_id" (by decide)
  have hdeployment := h "deployment_id" (by decide)
  simp only [Alerts.matchesScope, scopeDeployment, happlication, hdeployment]

theorem SameRule.deliver (h : SameRule r r') (payload : Dict) :
    deliver net r payload = deliver net r' payload := by
  have htarget := h "target" (by decide)
  have hconfig := h "config" (by decide)
  have hchannel := h "channel" (by decide)
  simp only [Alerts.deliver, ruleConfig, htarget, hconfig, hchannel]

theorem NewEventRule.congr (hr : NewEventRule net r) (h : SameRule r r') : NewEventRule net r' where
  enabled := by
    rw [← h "enabled" (by decide)]
    exact hr.enabled
  trigger := by
    rw [← h "trigger_type" (by decide)]
    exact hr.trigger
  delivered payload := by
    rw [← h.deliver]
    exact hr.delivered payload

theorem SameRule.patched {row : ConfigEntityRow} (h : SameRule r (configToDict row)) (v : Json) :
    SameRule r (configToDict (patched row [("last_triggered_at", v)])) := by
  intro k hk
  rw [h k hk]
  have hread : k ≠ "id" ∧ k ≠ "project_id" ∧ k ≠ "created_at" ∧ k ≠ "last_triggered_at" := by
    simp only [readFields, List.mem_cons, List.not_mem_nil, or_false] at hk
    rcases hk with rfl | rfl | rfl | rfl | rfl | rfl | rfl <;> decide
  obtain ⟨hid, hproject, hcreated, hlast⟩ := hread
  rw [configToDict_get _ hid hproject hcreated, configToDict_get _ hid hproject hcreated]
  exact (Dict.get_set_ne row.jsonData v hlast.symm).symm

end SameRule

section Rule

variable {k : ℕ} {t projectId : Option String} {rule r ev : Dict} {db : Db}

theorem markFired_exceptions : (markFired py clock r projectId db).exceptions = db.exceptions := by
  unfold markFired updateConfig
  split <;> rfl

theorem Standing.markFired (h : Standing k t rule db) :
    Standing k t rule (markFired py clock r projectId db) := by
  unfold Alerts.markFired updateConfig
  cases hf : findConfig "alert_rules" (py.str (Dict.get r "id")) projectId false db with
  | none => exact h
  | some found =>
    obtain ⟨k', row'⟩ := found
    obtain ⟨row, hmem, hclause, hsame⟩ := h
    by_cases hk : k = k'
    · subst hk
      have hrow : row = row' := db.configEntities.key_unique hmem (findConfig_eq_some hf).1
      subst hrow
      refine ⟨patched row [("last_triggered_at", .str (nowIso clock))], ?_, hclause, hsame.patched _⟩
      exact (db.configEntities.mem_set).mpr ⟨row, hmem, by simp⟩
    · refine ⟨row, ?_, hclause, hsame⟩
      exact (db.configEntities.mem_set).mpr ⟨row, hmem, by simp [hk]⟩

theorem tryRule_cases (py : Python) (backend : Backend) (clock : ℚ) (net : Network) (r ev : Dict)
    (projectId : Option String) (db : Db) :
    tryRule py backend clock net r ev projectId db = (db, none) ∨
      ∃ payload, tryRule py backend clock net r ev projectId db =
          (markFired py clock r projectId db, some payload) ∧
        Dict.get payload "fingerprint" = .str (eventFingerprint py ev) := by
  unfold tryRule
  split
  · rename_i db' payload h
    refine .inr ⟨payload, ?_⟩
    obtain ⟨reason, -, h⟩ := by simpa only [evaluateRule, bind_eq_ok] using h
    cases reason with
    | none => cases h
    | some reason =>
      obtain ⟨sent, -, h⟩ := by simpa only [bind_eq_ok] using h
      cases sent with
      | false => cases h
      | true =>
        cases h
        exact ⟨rfl, rfl⟩
  · exact .inl rfl

theorem tryRule_exceptions :
    (tryRule py backend clock net r ev projectId db).1.exceptions = db.exceptions := by
  rcases tryRule_cases py backend clock net r ev projectId db with h | ⟨payload, h, -⟩
  · rw [h]
  · rw [h]
    exact markFired_exceptions

theorem Standing.tryRule (h : Standing k t rule db) :
    Standing k t rule (tryRule py backend clock net r ev projectId db).1 := by
  rcases tryRule_cases py backend clock net r ev projectId db with hr | ⟨payload, hr, -⟩
  · rw [hr]
    exact h
  · rw [hr]
    exact h.markFired

theorem tryRule_newEvent (hr : NewEventRule net r) (hscope : matchesScope r ev = true) :
    (tryRule py backend clock net r ev projectId db).2.isSome = true ↔
      fingerprintRowCount (eventFingerprint py ev) projectId db ≤ 1 := by
  have hfirst : firstSeenTrigger r = true := by
    rw [firstSeenTrigger, hr.trigger]
    decide
  have hfiring : firing py backend clock r ev projectId db =
      conditionMet py backend clock r (eventFields py ev) projectId db := by
    simp [firing, hr.enabled, hscope, debounced, hfirst, bind, Except.bind]
  have hfields : (eventFields py ev).fingerprint = eventFingerprint py ev := rfl
  unfold tryRule evaluateRule
  rw [hfiring, conditionMet, if_pos hfirst, hfields]
  by_cases hc : fingerprintRowCount (eventFingerprint py ev) projectId db ≤ 1
  · simp [hc, hr.delivered, bind, Except.bind, pure, Except.pure]
  · simp [hc, bind, Except.bind, pure, Except.pure]

end Rule

def deliveries (k : ℕ) (fp : String) (sent : List (ℕ × Dict)) : ℕ :=
  sent.countP fun d => d.1 == k && Dict.get d.2 "fingerprint" == .str fp

theorem fingerprintRowCount_congr {db db' : Db} (h : db.exceptions = db'.exceptions) (fp : String)
    (projectId : Option String) :
    fingerprintRowCount fp projectId db = fingerprintRowCount fp projectId db' := by
  rw [fingerprintRowCount, h, fingerprintRowCount]

section Loop

variable {k : ℕ} {t projectId : Option String} {rule r ev : Dict} {db : Db} {fp : String}
  {rules : List (ℕ × Dict)}

theorem evaluateRules_exceptions :
    (evaluateRules py backend clock net ev projectId rules db).1.exceptions = db.exceptions := by
  induction rules generalizing db with
  | nil => rfl
  | cons entry rules ih =>
    rw [evaluateRules]
    exact ih.trans tryRule_exceptions

theorem Standing.evaluateRules (h : Standing k t rule db) :
    Standing k t rule (evaluateRules py backend clock net ev projectId rules db).1 := by
  induction rules generalizing db with
  | nil => exact h
  | cons entry rules ih =>
    rw [Alerts.evaluateRules]
    exact ih h.tryRule

theorem evaluateRules_other (hk : k ∉ rules.map Prod.fst) :
    deliveries k fp (evaluateRules py backend clock net ev projectId rules db).2 = 0 := by
  induction rules generalizing db with
  | nil => rfl
  | cons entry rules ih =>
    simp only [List.map_cons, List.mem_cons, not_or] at hk
    have hne : (entry.1 == k) = false := by simpa using Ne.symm hk.1
    have hrest := @ih (tryRule py backend clock net entry.2 ev projectId db).1 hk.2
    rw [deliveries] at hrest
    rw [evaluateRules, deliveries, List.countP_append, hrest]
    cases (tryRule py backend clock net entry.2 ev projectId db).2 <;> simp [hne]

theorem evaluateRules_deliveries (hnodup : (rules.map Prod.fst).Nodup) (hmem : (k, r) ∈ rules)
    (hr : NewEventRule net r) (hscope : matchesScope r ev = true) :
    deliveries k fp (evaluateRules py backend clock net ev projectId rules db).2 =
      if eventFingerprint py ev = fp ∧ fingerprintRowCount fp projectId db ≤ 1 then 1 else 0 := by
  induction rules generalizing db with
  | nil => cases hmem
  | cons entry rules ih =>
    obtain ⟨k', r'⟩ := entry
    simp only [List.map_cons, List.nodup_cons] at hnodup
    rw [evaluateRules, deliveries, List.countP_append]
    rcases List.mem_cons.mp hmem with heq | hmem
    · cases heq
      have hrest : deliveries k fp (evaluateRules py backend clock net ev projectId rules
          (tryRule py backend clock net r ev projectId db).1).2 = 0 := evaluateRules_other hnodup.1
      have hfires : (tryRule py backend clock net r ev projectId db).2.isSome = true ↔
          fingerprintRowCount (eventFingerprint py ev) projectId db ≤ 1 := tryRule_newEvent hr hscope
      rw [deliveries] at hrest
      rw [hrest]
      rcases tryRule_cases py backend clock net r ev projectId db with h | ⟨payload, h, hpayload⟩
      · rw [h] at hfires ⊢
        have hmany : ¬ fingerprintRowCount (eventFingerprint py ev) projectId db ≤ 1 := by
          simpa using hfires
        rw [if_neg]
        · rfl
        · rintro ⟨rfl, hle⟩
          exact hmany hle
      · rw [h] at hfires ⊢
        have hfew : fingerprintRowCount (eventFingerprint py ev) projectId db ≤ 1 := by
          simpa using hfires
        by_cases hfp : eventFingerprint py ev = fp
        · subst hfp
          simp [hpayload, hfew]
        · simp [hpayload, hfp]
    · have hne : (k' == k) = false := by
        simp only [beq_eq_false_iff_ne, ne_eq]
        rintro rfl
        exact hnodup.1 (List.mem_map.mpr ⟨_, hmem, rfl⟩)
      have hrest := @ih (tryRule py backend clock net r' ev projectId db).1 hnodup.2 hmem
      rw [deliveries, fingerprintRowCount_congr tryRule_exceptions] at hrest
      rw [hrest]
      cases (tryRule py backend clock net r' ev projectId db).2 <;> simp [hne]

end Loop

section Event

variable {k : ℕ} {t projectId : Option String} {rule ev : Dict} {db : Db} {fp : String}

theorem alertRules_keys_nodup (projectId : Option String) (db : Db) :
    ((alertRules projectId db).map Prod.fst).Nodup := by
  rw [alertRules, List.map_map]
  exact db.configEntities.keys_nodup.sublist (List.filter_sublist.map _)

theorem mem_alertRules {r : Dict} : (k, r) ∈ alertRules projectId db ↔
    ∃ row, (k, row) ∈ db.configEntities.rows ∧ configClause "alert_rules" projectId false row = true ∧
      configToDict row = r := by
  simp only [alertRules, List.mem_map, Table.mem_select, Prod.mk.injEq]
  constructor
  · rintro ⟨⟨k', row⟩, ⟨hmem, hclause⟩, rfl, rfl⟩
    exact ⟨row, hmem, hclause, rfl⟩
  · rintro ⟨row, hmem, hclause, rfl⟩
    exact ⟨(k, row), ⟨hmem, hclause⟩, rfl, rfl⟩

theorem evaluateEvent_exceptions (py : Python) (backend : Backend) (clock : ℚ) (net : Network)
    (ev : Dict) (projectId : Option String) (db : Db) :
    (evaluateEvent py backend clock net ev projectId db).1.exceptions = db.exceptions := by
  unfold evaluateEvent
  split
  · rfl
  · exact evaluateRules_exceptions

theorem Standing.evaluateEvent (h : Standing k t rule db) :
    Standing k t rule (evaluateEvent py backend clock net ev projectId db).1 := by
  unfold Alerts.evaluateEvent
  split
  · exact h
  · exact h.evaluateRules

theorem evaluateEvent_deliveries (py : Python) (backend : Backend) (clock : ℚ)
    (hr : NewEventRule net rule) (hs : Standing k t rule db) (hfp : fp ≠ "")
    (hscope : projectId = t → matchesScope rule ev = true) :
    deliveries k fp (evaluateEvent py backend clock net ev projectId db).2 =
      if projectId = t ∧ eventFingerprint py ev = fp ∧ fingerprintRowCount fp t db ≤ 1 then 1 else 0 := by
  obtain ⟨row, hmem, hclause, hsame⟩ := hs
  unfold evaluateEvent
  by_cases hempty : eventFingerprint py ev = ""
  · have hne : ¬ "" = fp := fun h => hfp h.symm
    simp [hempty, hne, deliveries]
  · rw [if_neg hempty]
    by_cases hp : projectId = t
    · subst hp
      have hrule : (k, configToDict row) ∈ alertRules projectId db :=
        mem_alertRules.mpr ⟨row, hmem, hclause, rfl⟩
      have hscope' : matchesScope (configToDict row) ev = true := by
        rw [← hsame.matchesScope]
        exact hscope rfl
      rw [evaluateRules_deliveries (alertRules_keys_nodup projectId db) hrule (hr.congr hsame) hscope']
      simp only [true_and]
    · rw [if_neg fun h => hp h.1]
      apply evaluateRules_other
      intro hk
      obtain ⟨⟨k', r⟩, hk', rfl⟩ := List.mem_map.mp hk
      obtain ⟨row', hmem', hclause', -⟩ := mem_alertRules.mp hk'
      have hrow : row' = row := db.configEntities.key_unique hmem' hmem
      subst hrow
      simp only [configClause, owned, Bool.false_or, Bool.and_eq_true, beq_iff_eq] at hclause hclause'
      exact hp (hclause'.2.symm.trans hclause.2)

end Event

end JvmScout.Alerts
