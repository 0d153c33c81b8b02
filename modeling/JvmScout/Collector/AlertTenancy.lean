import JvmScout.Collector.Alerts
import JvmScout.Lib.Traverse

namespace JvmScout.Alerts

open Storage Relational Relational.Table Traverse

section Decision

variable (py : Python) (backend : Backend) (clock : ℚ) (rule ev : Dict)

def fires (projectId : Option String) (db : Db) : Bool :=
  match firing py backend clock rule ev projectId db with
  | .ok (some _) => true
  | _ => false

def DecidedByTenant (projectId : Option String) : Prop :=
  ∀ db₁ db₂ : Db, Agree (owned ExceptionRow.projectId projectId) db₁.exceptions db₂.exceptions →
    fires py backend clock rule ev projectId db₁ = fires py backend clock rule ev projectId db₂

def VolumeQuery (threshold : ℤ) (start : ℚ) (deployment : Option String) : Prop :=
  ∃ cfg window, ruleConfig rule = .ok cfg ∧ configInt py cfg "threshold" 0 = .ok threshold ∧
    configInt py cfg "windowMinutes" 5 = .ok window ∧ 0 < threshold ∧
    minutesBefore clock window = .ok start ∧ boundFilter backend (scopeDeployment rule) = .ok deployment

def Due : Prop :=
  (Dict.get rule "enabled").truthy = true ∧ matchesScope rule ev = true ∧
    debounced py clock rule = .ok false

def AsksCount : Prop :=
  Due py clock rule ev ∧
    (firstSeenTrigger rule = true ∨
      (Dict.get rule "trigger_type" = .str "volume_threshold" ∧
        ∃ threshold start deployment, VolumeQuery py backend clock rule threshold start deployment))

end Decision

section Conditions

variable {py : Python} {backend : Backend} {clock : ℚ} {rule ev : Dict} {projectId : Option String} {db : Db}

theorem fires_iff : fires py backend clock rule ev projectId db = true ↔
    Due py clock rule ev ∧ ∃ reason,
      conditionMet py backend clock rule (eventFields py ev) projectId db = .ok (some reason) := by
  have hfires : fires py backend clock rule ev projectId db = true ↔
      ∃ reason, firing py backend clock rule ev projectId db = .ok (some reason) := by
    unfold fires
    split
    · rename_i reason h
      simp [h]
    · rename_i h
      simp only [Bool.false_eq_true, false_iff, not_exists]
      exact h
  rw [hfires]
  unfold firing Due
  by_cases henabled : (Dict.get rule "enabled").truthy = true
  · by_cases hscope : matchesScope rule ev = true
    · simp only [henabled, hscope, Bool.not_true, Bool.or_self, Bool.false_eq_true, if_false, true_and]
      cases hd : debounced py clock rule with
      | error e => simp [bind, Except.bind]
      | ok b => cases b <;> simp [bind, Except.bind, pure, Except.pure]
    · simp [henabled, hscope, pure, Except.pure]
  · simp [henabled, pure, Except.pure]

theorem conditionMet_firstSeen (h : firstSeenTrigger rule = true) (fields : EventFields) :
    (∃ reason, conditionMet py backend clock rule fields projectId db = .ok (some reason)) ↔
      fingerprintRowCount fields.fingerprint projectId db ≤ 1 := by
  rw [conditionMet, if_pos h]
  split <;> simp [*]

theorem firstSeen_of_volume (h : Dict.get rule "trigger_type" = .str "volume_threshold") :
    firstSeenTrigger rule = false := by
  rw [firstSeenTrigger, h]
  decide

theorem conditionMet_volume (h : Dict.get rule "trigger_type" = .str "volume_threshold")
    (fields : EventFields) :
    (∃ reason, conditionMet py backend clock rule fields projectId db = .ok (some reason)) ↔
      ∃ threshold start deployment, VolumeQuery py backend clock rule threshold start deployment ∧
        threshold ≤ sumOcc ((db.exceptions.select
          (occurrencesClause start deployment projectId)).map Prod.snd) := by
  have hnone : firstSeenTrigger rule = false := firstSeen_of_volume h
  have hre : Dict.get rule "trigger_type" ≠ .str "event_reoccurs" := by
    rw [h]
    decide
  rw [conditionMet, hnone, if_neg Bool.false_ne_true, if_neg hre, if_pos h]
  unfold volumeReached VolumeQuery countOccurrences
  constructor
  · rintro ⟨reason, hr⟩
    obtain ⟨cfg, hcfg, threshold, hthreshold, window, hwindow, hr⟩ := by
      simpa only [bind_eq_ok] using hr
    split at hr
    · cases hr
    · rename_i hpos
      obtain ⟨count, ⟨start, hstart, deployment, hdeployment, hcount⟩, hr⟩ := by
        simpa only [bind_eq_ok] using hr
      cases hcount
      split at hr
      · rename_i hle
        exact ⟨threshold, start, deployment,
          ⟨cfg, window, hcfg, hthreshold, hwindow, by omega, hstart, hdeployment⟩, hle⟩
      · cases hr
  · rintro ⟨threshold, start, deployment,
      ⟨cfg, window, hcfg, hthreshold, hwindow, hpos, hstart, hdeployment⟩, hle⟩
    have hneg : ¬ threshold ≤ 0 := by omega
    simp only [hcfg, hthreshold, hwindow, hstart, hdeployment, bind, Except.bind, pure, Except.pure,
      if_neg hneg, if_pos hle]
    exact ⟨_, rfl⟩

theorem conditionMet_other (hf : firstSeenTrigger rule = false)
    (hv : Dict.get rule "trigger_type" ≠ .str "volume_threshold") (fields : EventFields) (db₁ db₂ : Db) :
    conditionMet py backend clock rule fields projectId db₁ =
      conditionMet py backend clock rule fields projectId db₂ := by
  simp only [conditionMet, hf, Bool.false_eq_true, if_false, if_neg hv]

theorem fires_without_count (h : ¬ AsksCount py backend clock rule ev) (db₁ db₂ : Db) :
    fires py backend clock rule ev projectId db₁ = fires py backend clock rule ev projectId db₂ := by
  apply Bool.eq_iff_iff.mpr
  rw [fires_iff, fires_iff]
  apply and_congr_right
  intro hdue
  have hf : firstSeenTrigger rule = false := by
    cases hf : firstSeenTrigger rule with
    | false => rfl
    | true => exact absurd ⟨hdue, .inl hf⟩ h
  by_cases hv : Dict.get rule "trigger_type" = .str "volume_threshold"
  · have hnone (db : Db) : ¬ ∃ threshold start deployment,
        VolumeQuery py backend clock rule threshold start deployment ∧ threshold ≤
          sumOcc ((db.exceptions.select (occurrencesClause start deployment projectId)).map Prod.snd) := by
      rintro ⟨threshold, start, deployment, hq, -⟩
      exact h ⟨hdue, .inr ⟨hv, threshold, start, deployment, hq⟩⟩
    rw [conditionMet_volume hv, conditionMet_volume hv]
    exact iff_of_false (hnone db₁) (hnone db₂)
  · rw [conditionMet_other hf hv _ db₁ db₂]

end Conditions

section Tenants

variable (py : Python) (backend : Backend) (clock : ℚ) (rule ev : Dict)

theorem decidedByTenant_of_project (p : String) : DecidedByTenant py backend clock rule ev (some p) := by
  intro db₁ db₂ h
  apply Bool.eq_iff_iff.mpr
  rw [fires_iff, fires_iff]
  apply and_congr_right
  intro _
  by_cases hf : firstSeenTrigger rule = true
  · have hselect := h.select_of_imp
      (q := fingerprintClause (eventFields py ev).fingerprint (some p)) fun row hrow => by
        simp only [fingerprintClause, Bool.and_eq_true] at hrow
        exact hrow.2
    rw [conditionMet_firstSeen hf, conditionMet_firstSeen hf, fingerprintRowCount, fingerprintRowCount,
      Table.count, Table.count, hselect]
  · by_cases hv : Dict.get rule "trigger_type" = .str "volume_threshold"
    · have hselect (start : ℚ) (deployment : Option String) := h.select_of_imp
        (q := occurrencesClause start deployment (some p)) fun row hrow => by
          simp only [occurrencesClause, Bool.and_eq_true] at hrow
          exact hrow.2
      rw [conditionMet_volume hv, conditionMet_volume hv]
      simp only [hselect]
    · rw [conditionMet_other (by simpa using hf) hv _ db₁ db₂]

theorem not_decided_of_count (h : AsksCount py backend clock rule ev) :
    ¬ DecidedByTenant py backend clock rule ev none := by
  intro hdecided
  obtain ⟨hdue, hf | ⟨hv, threshold, start, deployment, hq⟩⟩ := h
  · -- one row of the fingerprint is its first occurrence, a second one of another project is not
    let fp := (eventFields py ev).fingerprint
    let one : Db := { Db.empty with exceptions := Table.empty.insert (countedRow 0 fp 1 none none) }
    let two : Db := { one with exceptions := one.exceptions.insert (countedRow 0 fp 1 none (some "p")) }
    have hone : fires py backend clock rule ev none one = true := by
      rw [fires_iff, conditionMet_firstSeen hf]
      refine ⟨hdue, ?_⟩
      simp [fingerprintRowCount, Table.count, Table.select, one, Table.empty, fingerprintClause, countedRow,
        inScope, applyProject, fp]
    have htwo : ¬ fires py backend clock rule ev none two = true := by
      rw [fires_iff, conditionMet_firstSeen hf]
      rintro ⟨-, hle⟩
      simp [fingerprintRowCount, Table.count, Table.select, two, one, Table.empty, fingerprintClause,
        countedRow, inScope, applyProject, fp] at hle
    apply htwo
    rw [← hdecided one two (agree_insert _ rfl)]
    exact hone
  · -- an empty store is below the threshold, one row of another project can reach it
    let row := countedRow ⌊start⌋.toNat "" threshold deployment (some "p")
    let full : Db := { Db.empty with exceptions := Table.empty.insert row }
    have hfull : fires py backend clock rule ev none full = true := by
      rw [fires_iff, conditionMet_volume hv]
      refine ⟨hdue, threshold, start, deployment, hq, ?_⟩
      have hmatch : occurrencesClause start deployment none row = true := by
        have hfrom : receivedFrom start row = true := by
          simp only [receivedFrom, row, countedRow, decide_eq_true_eq]
          omega
        have hdeployment : deployment.all (fun d => row.deploymentId == some d) = true := by
          cases deployment <;> simp [row, countedRow]
        simp only [occurrencesClause, hfrom, hdeployment, inScope, applyProject, Option.isNone_none,
          Bool.true_or, Bool.and_self]
      have hrows : (full.exceptions.select (occurrencesClause start deployment none)).map Prod.snd = [row] := by
        simp [full, Table.select, Table.empty, hmatch]
      have hsum : sumOcc [row] = threshold := by simp [sumOcc, occ, row, countedRow]
      rw [hrows, hsum]
    have hempty : ¬ fires py backend clock rule ev none Db.empty = true := by
      rw [fires_iff, conditionMet_volume hv]
      rintro ⟨-, threshold', start', deployment', hq', hle⟩
      obtain ⟨_, _, -, -, -, hpos, -⟩ := hq'
      simp [Db.empty, Table.select, Table.empty, sumOcc] at hle
      omega
    apply hempty
    rw [hdecided Db.empty full (agree_insert _ rfl)]
    exact hfull

/-- The decision depends on the rows of the rule's tenant alone, but for a rule of the
tenant `NULL` whose evaluation comes to a count. -/
theorem decided_by_tenant_iff (projectId : Option String) :
    DecidedByTenant py backend clock rule ev projectId ↔
      projectId ≠ none ∨ ¬ AsksCount py backend clock rule ev := by
  constructor
  · intro h
    by_cases hp : projectId = none
    · subst hp
      exact .inr fun hasks => not_decided_of_count py backend clock rule ev hasks h
    · exact .inl hp
  · rintro (hp | hasks)
    · obtain ⟨p, rfl⟩ := Option.ne_none_iff_exists'.mp hp
      exact decidedByTenant_of_project py backend clock rule ev p
    · exact fun db₁ db₂ _ => fires_without_count hasks db₁ db₂

end Tenants

def firstSeenRule : Dict :=
  [("enabled", .bool true), ("trigger_type", .str "new_event"), ("channel", .str "webhook"),
    ("target", .str "https://hooks.example.com/x")]

def boomEvent : Dict := [("fingerprint", .str "f1"), ("exceptionType", .str "E")]

def quietStore : Db := { Db.empty with exceptions := Table.empty.insert (countedRow 5 "f1" 1 none none) }

def crowdedStore : Db :=
  { quietStore with exceptions := quietStore.exceptions.insert (countedRow 4 "f1" 1 none (some "globex")) }

theorem foreign_row_suppresses_alert :
    Agree (owned ExceptionRow.projectId none) quietStore.exceptions crowdedStore.exceptions ∧
      fires Python.literal Backend.sqlite 60 firstSeenRule boomEvent none quietStore = true ∧
      fires Python.literal Backend.sqlite 60 firstSeenRule boomEvent none crowdedStore = false ∧
      ¬ DecidedByTenant Python.literal Backend.sqlite 60 firstSeenRule boomEvent none := by
  have hagree : Agree (owned ExceptionRow.projectId none) quietStore.exceptions crowdedStore.exceptions :=
    agree_insert _ rfl
  have hquiet : fires Python.literal Backend.sqlite 60 firstSeenRule boomEvent none quietStore = true := by
    decide +kernel
  have hcrowded : fires Python.literal Backend.sqlite 60 firstSeenRule boomEvent none crowdedStore = false := by
    decide +kernel
  refine ⟨hagree, hquiet, hcrowded, fun h => ?_⟩
  have hsame := h quietStore crowdedStore hagree
  rw [hquiet, hcrowded] at hsame
  cases hsame

end JvmScout.Alerts
