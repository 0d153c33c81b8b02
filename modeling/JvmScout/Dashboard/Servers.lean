import JvmScout.Collector.Retention
import JvmScout.Dashboard.Events

namespace JvmScout.Dashboard

open Models Storage Relational Runs

inductive ServerStatus where
  | active
  | dormant
  | offline
deriving DecidableEq

def nullish : Json → Json → Json
  | .null, b => b
  | a, _ => a

def property (v : Json) (k : String) : Json :=
  match v with
  | .obj d => Dict.get d k
  | _ => .null

structure ServerRow where
  id : Json
  hostname : Json
  applicationId : Json
  status : ServerStatus
  agentVersion : Json
  lastSeen : Option Json

def fiveMinutes : ℤ := 5 * 60000

def oneHour : ℤ := 60 * 60000

def statusOf (ageMs : ℤ) : ServerStatus :=
  if ageMs < fiveMinutes then .active else if ageMs < oneHour then .dormant else .offline

def lastSeenOf (inst : Dict) : Option Json :=
  match nullish (Dict.get inst "timestamp") (Dict.get inst "receivedAt") with
  | .null => none
  | v => some v

def ageMs (getTime : Json → Option ℤ) (now : ℤ) : Option Json → Option ℤ
  | none => some 0
  | some v => (getTime v).map fun t => now - t

def serverRow (getTime : Json → Option ℤ) (now : ℤ) (inst : Dict) : ServerRow :=
  let instanceId := nullish (nullish (Dict.get inst "instanceId") (Dict.get inst "instance_id")) (.str "unknown")
  let host := nullish (nullish (Dict.get inst "hostInfo") (Dict.get inst "host_info")) (.obj [])
  let lastSeen := lastSeenOf inst
  { id := instanceId
    hostname := nullish (property host "name") instanceId
    applicationId :=
      nullish (nullish (Dict.get inst "deploymentId") (Dict.get inst "deployment_id")) (.str unknownApp)
    -- no comparison with `NaN` holds
    status := (ageMs getTime now lastSeen).elim .offline statusOf
    agentVersion :=
      nullish (property (nullish (nullish (Dict.get inst "agentConfig") (Dict.get inst "agent_config")) (.obj [])) "version")
        (.str "—")
    lastSeen := lastSeen }

def deriveServers (getTime : Json → Option ℤ) (now : ℤ) (instances : List Dict) : List ServerRow :=
  instances.map (serverRow getTime now)

/-- `registrations` and `activity` keep, for each instance id, the last accepted `agent_start` and
the time of the last one or of the last stored event that names the instance. -/
structure Watched where
  db : Db
  clock : ℕ
  registrations : List (String × Dict)
  activity : List (String × ℕ)

def Watched.start : Watched := ⟨Db.empty, 0, [], []⟩

def watchStep (backend : Backend) (retentionDays : ℕ) (s : Watched) : StoreCall → Option Watched
  | .tick d => some { s with clock := s.clock + d }
  | .exceptions events projectId =>
    match storeExceptions backend (s.clock / 1000) events projectId s.db with
    | .ok (db, _) => some { s with db := db, activity := Assoc.setAll s.activity (instanceIds events) s.clock }
    | .error _ => some s
  | .agentStart ev raw projectId =>
    match storeAgentStart (s.clock / 1000) ev raw projectId s.db with
    | .ok db =>
      some { s with
        db := db
        registrations := Assoc.set s.registrations (ev.instanceId.getD "") raw
        activity := Assoc.set s.activity (ev.instanceId.getD "") s.clock }
    | .error _ => some s
  | .purge =>
    match purgeOldRecords retentionDays (s.clock / 1000) s.db with
    | .ok (db, _) => some { s with db := db }
    | .error _ => some s

def lastRegistration (s : Watched) (instanceId : String) : Dict := (Assoc.get? s.registrations instanceId).getD []

def lastActivity (s : Watched) (instanceId : String) : ℕ := (Assoc.get? s.activity instanceId).getD 0

def listedInstances (projectId : Option String) (db : Db) : List (ℕ × JvmInstanceRow) :=
  (db.jvmInstances.select (applyProject JvmInstanceRow.projectId projectId)).reverse

def ReflectsActivity (getTime : Json → Option ℤ) (now : ℤ) (projectId : Option String) (s : Watched) : Prop :=
  (deriveServers getTime now (listInstances projectId s.db)).map ServerRow.status =
    (listedInstances projectId s.db).map fun r => statusOf (now - lastActivity s r.2.instanceId)

def SentInBand (getTime : Json → Option ℤ) (now : ℤ) (raw : Dict) (activity : ℤ) : Prop :=
  match lastSeenOf raw with
  | none => now - activity < fiveMinutes
  | some v =>
    match getTime v with
    | none => oneHour ≤ now - activity
    | some sent =>
      (now - sent < fiveMinutes ↔ now - activity < fiveMinutes) ∧ (now - sent < oneHour ↔ now - activity < oneHour)

theorem statusOf_active_iff {age : ℤ} : statusOf age = .active ↔ age < fiveMinutes := by
  rw [statusOf]
  split
  · rename_i hactive
    exact iff_of_true rfl hactive
  · rename_i hlater
    refine iff_of_false ?_ hlater
    split <;> simp

theorem statusOf_offline_iff {age : ℤ} : statusOf age = .offline ↔ oneHour ≤ age := by
  have hbands : fiveMinutes < oneHour := by decide
  rw [statusOf]
  split
  · rename_i hactive
    exact iff_of_false (by simp) (by omega)
  · split
    · rename_i hdormant
      exact iff_of_false (by simp) (by omega)
    · rename_i hoffline
      exact iff_of_true rfl (by omega)

theorem statusOf_eq_iff {age age' : ℤ} :
    statusOf age = statusOf age' ↔ (age < fiveMinutes ↔ age' < fiveMinutes) ∧ (age < oneHour ↔ age' < oneHour) := by
  constructor
  · intro h
    refine ⟨?_, ?_⟩
    · rw [← statusOf_active_iff, h, statusOf_active_iff]
    · rw [← not_le, ← not_le, ← statusOf_offline_iff, h, statusOf_offline_iff]
  · rintro ⟨hactive, hhour⟩
    rw [statusOf, statusOf]
    simp only [hactive, hhour]

theorem serverRow_status_iff {getTime : Json → Option ℤ} {now activity : ℤ} {raw : Dict} :
    (serverRow getTime now raw).status = statusOf (now - activity) ↔ SentInBand getTime now raw activity := by
  rw [serverRow, SentInBand]
  cases hseen : lastSeenOf raw with
  | none =>
    have hnow : statusOf 0 = .active := rfl
    simp only [ageMs, Option.elim_some]
    rw [hnow, eq_comm, statusOf_active_iff]
  | some v =>
    simp only [ageMs]
    cases getTime v with
    | none =>
      rw [Option.map_none, Option.elim_none, eq_comm, statusOf_offline_iff]
    | some sent =>
      rw [Option.map_some, Option.elim_some, statusOf_eq_iff]

theorem sentInBand_always_iff {getTime : Json → Option ℤ} {raw : Dict} {activity : ℤ} :
    (∀ now, activity ≤ now → SentInBand getTime now raw activity) ↔
      ∃ v, lastSeenOf raw = some v ∧ getTime v = some activity := by
  have hfive : fiveMinutes = 300000 := rfl
  have hhour : oneHour = 3600000 := rfl
  constructor
  · intro h
    have hnow := h activity le_rfl
    have hbefore := h (activity + fiveMinutes - 1) (by omega)
    have hafter := h (activity + fiveMinutes) (by omega)
    rw [SentInBand] at hnow hbefore hafter
    cases hseen : lastSeenOf raw with
    | none =>
      rw [hseen] at hafter
      dsimp only at hafter
      omega
    | some v =>
      rw [hseen] at hnow hbefore hafter
      dsimp only at hnow hbefore hafter
      cases hsent : getTime v with
      | none =>
        rw [hsent] at hnow
        dsimp only at hnow
        omega
      | some sent =>
        rw [hsent] at hbefore hafter
        dsimp only at hbefore hafter
        have heq : sent = activity := by omega
        exact ⟨v, rfl, by rw [hsent, heq]⟩
  · rintro ⟨v, hseen, hsent⟩ now -
    rw [SentInBand, hseen]
    dsimp only
    rw [hsent]
    exact ⟨Iff.rfl, Iff.rfl⟩

structure Tracked (s : Watched) : Prop where
  past : ∀ instanceId t, Assoc.get? s.activity instanceId = some t → t ≤ s.clock
  raws : ∀ r ∈ s.db.jvmInstances.rows, Assoc.get? s.registrations r.2.instanceId = some r.2.rawJson
  times : ∀ r ∈ s.db.jvmInstances.rows,
    ∃ t, Assoc.get? s.activity r.2.instanceId = some t ∧ r.2.receivedAt = t / 1000

section Steps

variable {backend : Backend} {retentionDays : ℕ} {s s' : Watched}

theorem Tracked.tick (h : Tracked s) (d : ℕ) : Tracked { s with clock := s.clock + d } := by
  refine ⟨fun id t ht => ?_, h.raws, h.times⟩
  exact (h.past id t ht).trans (Nat.le_add_right _ _)

theorem Tracked.exceptionsStored {events : List (ExceptionEvent × Dict)} {projectId : Option String}
    {db : Db} {ids : List ℕ} (h : Tracked s)
    (hs : storeExceptions backend (s.clock / 1000) events projectId s.db = .ok (db, ids)) :
    Tracked { s with db := db, activity := Assoc.setAll s.activity (instanceIds events) s.clock } := by
  have hadded : (addExceptions (s.clock / 1000) events projectId s.db).1 = db := by
    rw [(storeExceptions_ok.mp hs).2]
  subst hadded
  refine ⟨fun id t ht => ?_, fun r hr => ?_, fun r hr => ?_⟩
  · rw [Assoc.get?_setAll] at ht
    split at ht
    · cases ht
      exact le_rfl
    · exact h.past id t ht
  · obtain ⟨w, hw, hid, hraw, -⟩ := mem_touch hr
    rw [hid, hraw]
    exact h.raws (r.1, w) hw
  · obtain ⟨w, hw, hid, -, hreceived⟩ := mem_touch hr
    obtain ⟨t, ht, hold⟩ := h.times (r.1, w) hw
    dsimp only at ht hold
    rw [hid, hreceived, Assoc.get?_setAll]
    split
    · exact ⟨s.clock, rfl, rfl⟩
    · exact ⟨t, ht, hold⟩

theorem Tracked.agentStarted {ev : AgentStartEvent} {raw : Dict} {projectId : Option String} {db : Db}
    (h : Tracked s) (hs : storeAgentStart (s.clock / 1000) ev raw projectId s.db = .ok db) :
    Tracked { s with
      db := db
      registrations := Assoc.set s.registrations (ev.instanceId.getD "") raw
      activity := Assoc.set s.activity (ev.instanceId.getD "") s.clock } := by
  refine ⟨fun id a ha => ?_, fun r hr => ?_, fun r hr => ?_⟩
  · rw [Assoc.get?_set] at ha
    split at ha
    · cases ha
      exact le_rfl
    · exact h.past id a ha
  · obtain ⟨hid, hraw, -⟩ | ⟨hid, hold⟩ := mem_agentStarted hs hr
    · rw [hid, hraw, Assoc.get?_set_self]
    · rw [Assoc.get?_set_ne _ _ hid]
      exact h.raws r hold
  · obtain ⟨hid, -, hreceived⟩ | ⟨hid, hold⟩ := mem_agentStarted hs hr
    · refine ⟨s.clock, ?_, hreceived⟩
      rw [hid, Assoc.get?_set_self]
    · rw [Assoc.get?_set_ne _ _ hid]
      exact h.times r hold

theorem Tracked.purged {db : Db} {count : ℕ} (h : Tracked s)
    (hs : purgeOldRecords retentionDays (s.clock / 1000) s.db = .ok (db, count)) : Tracked { s with db := db } := by
  simp only [purgeOldRecords, Traverse.bind_eq_ok, Traverse.pure_eq_ok] at hs
  obtain ⟨cutoff, -, instanceCutoff, -, hs⟩ := hs
  cases hs
  refine ⟨h.past, fun r hr => ?_, fun r hr => ?_⟩
  · exact h.raws r (List.mem_filter.mp hr).1
  · exact h.times r (List.mem_filter.mp hr).1

theorem Tracked.step {call : StoreCall} (h : Tracked s) (hs : watchStep backend retentionDays s call = some s') :
    Tracked s' := by
  cases call with
  | tick d =>
    cases hs
    exact h.tick d
  | exceptions events projectId =>
    simp only [watchStep] at hs
    split at hs <;> cases hs
    · rename_i hstored
      exact h.exceptionsStored hstored
    · exact h
  | agentStart ev raw projectId =>
    simp only [watchStep] at hs
    split at hs <;> cases hs
    · rename_i hstored
      exact h.agentStarted hstored
    · exact h
  | purge =>
    simp only [watchStep] at hs
    split at hs <;> cases hs
    · rename_i hpurged
      exact h.purged hpurged
    · exact h

theorem tracked_start : Tracked .start := by
  refine ⟨fun id t ht => ?_, fun r hr => ?_, fun r hr => ?_⟩
  · cases ht
  · cases hr
  · cases hr

theorem tracked_run {calls : List StoreCall} (hr : run (watchStep backend retentionDays) .start calls = some s) :
    Tracked s := run_invariant (fun _ _ _ _ h hs => h.step hs) tracked_start hr

end Steps

theorem mem_listedInstances {projectId : Option String} {db : Db} {r : ℕ × JvmInstanceRow}
    (h : r ∈ listedInstances projectId db) : r ∈ db.jvmInstances.rows :=
  (Table.mem_select.mp (List.mem_reverse.mp h)).1

/-- A history later, the statuses are those of the last activity exactly where the last
registration's own time is in the same band. -/
theorem servers_reflect_activity_iff {backend : Backend} {retentionDays : ℕ} {calls : List StoreCall} {s : Watched}
    (hr : run (watchStep backend retentionDays) .start calls = some s) (getTime : Json → Option ℤ)
    (projectId : Option String) {now : ℕ} (hnow : s.clock ≤ now) :
    (∀ r ∈ listedInstances projectId s.db,
      Assoc.get? s.registrations r.2.instanceId = some r.2.rawJson ∧
      (∃ t ≤ now, Assoc.get? s.activity r.2.instanceId = some t) ∧
      ((serverRow getTime now r.2.rawJson).status = statusOf (now - lastActivity s r.2.instanceId) ↔
        SentInBand getTime now (lastRegistration s r.2.instanceId) (lastActivity s r.2.instanceId))) ∧
    (ReflectsActivity getTime now projectId s ↔ ∀ r ∈ listedInstances projectId s.db,
      SentInBand getTime now (lastRegistration s r.2.instanceId) (lastActivity s r.2.instanceId)) := by
  have htracked := tracked_run hr
  have hraw : ∀ r ∈ listedInstances projectId s.db, lastRegistration s r.2.instanceId = r.2.rawJson := by
    intro r hmem
    rw [lastRegistration, htracked.raws r (mem_listedInstances hmem), Option.getD_some]
  refine ⟨fun r hmem => ⟨htracked.raws r (mem_listedInstances hmem), ?_, ?_⟩, ?_⟩
  · obtain ⟨t, ht, -⟩ := htracked.times r (mem_listedInstances hmem)
    exact ⟨t, (htracked.past _ _ ht).trans hnow, ht⟩
  · rw [hraw r hmem]
    exact serverRow_status_iff
  · rw [ReflectsActivity, deriveServers, listInstances, ← listedInstances, List.map_map, List.map_map, List.map_inj_left]
    apply forall₂_congr
    intro r hmem
    rw [hraw r hmem]
    exact serverRow_status_iff

def epochTime : Json → Option ℤ
  | .str s => if s = "1970-01-01T00:00:00Z" then some 0 else none
  | _ => none

def epochStart : AgentStartEvent := { registered "i1" with timestamp := some "1970-01-01T00:00:00Z" }

def epochStartRaw : Dict :=
  [("type", .str "agent_start"), ("timestamp", .str "1970-01-01T00:00:00Z"), ("instanceId", .str "i1")]

theorem servers_reflect_registration :
    ∃ s, run (watchStep .sqlite 30) .start [.agentStart epochStart epochStartRaw none, .tick 360000] = some s ∧
      ReflectsActivity epochTime 360000 none s := by
  have hend : (run (watchStep .sqlite 30) .start [.agentStart epochStart epochStartRaw none, .tick 360000]).map
      (fun s => (s.clock, (listedInstances none s.db).map fun r =>
        (lastActivity s r.2.instanceId, epochTime ((lastSeenOf (lastRegistration s r.2.instanceId)).getD .null)))) =
      some (360000, [(0, some 0)]) := by
    decide +kernel
  obtain ⟨s, hs, heq⟩ := Option.map_eq_some_iff.mp hend
  obtain ⟨hclock, hrows⟩ := Prod.mk.inj heq
  refine ⟨s, hs, (servers_reflect_activity_iff hs epochTime none hclock.le).2.mpr fun r hmem => ?_⟩
  have hrow := List.mem_map_of_mem (f := fun r : ℕ × JvmInstanceRow =>
    (lastActivity s r.2.instanceId, epochTime ((lastSeenOf (lastRegistration s r.2.instanceId)).getD .null))) hmem
  rw [hrows, List.mem_singleton] at hrow
  obtain ⟨hactivity, hsent⟩ := Prod.mk.inj hrow
  rw [SentInBand]
  cases hseen : lastSeenOf (lastRegistration s r.2.instanceId) with
  | none =>
    rw [hseen] at hsent
    cases hsent
  | some v =>
    rw [hseen, Option.getD_some] at hsent
    dsimp only
    rw [hsent, hactivity]
    exact ⟨Iff.rfl, Iff.rfl⟩

def hourLater : List StoreCall :=
  [.agentStart epochStart epochStartRaw none, .tick 3600000,
    .exceptions [(thrown "i1", [("instanceId", .str "i1"), ("fingerprint", .str "f1")])] none, .tick 1000]

theorem servers_forget_events :
    ¬ ∀ (getTime : Json → Option ℤ) (backend : Backend) (retentionDays : ℕ) (calls : List StoreCall) (s : Watched)
      (projectId : Option String) (now : ℕ), run (watchStep backend retentionDays) .start calls = some s →
        s.clock ≤ now → ReflectsActivity getTime now projectId s := by
  intro h
  have hend : (run (watchStep .sqlite 30) .start hourLater).map (fun s =>
      (s.clock, (deriveServers epochTime 3601000 (listInstances none s.db)).map ServerRow.status,
        (listedInstances none s.db).map fun r => statusOf (3601000 - lastActivity s r.2.instanceId))) =
      some (3601000, [.offline], [.active]) := by
    decide +kernel
  obtain ⟨s, hs, heq⟩ := Option.map_eq_some_iff.mp hend
  simp only [Prod.mk.injEq] at heq
  obtain ⟨hclock, hshown, hactive⟩ := heq
  have hreflects := h epochTime .sqlite 30 hourLater s none 3601000 hs hclock.le
  have hstatus : ([.offline] : List ServerStatus) = [.active] := by
    rw [← hshown, ← hactive]
    exact hreflects
  cases hstatus

theorem receivedAt_eq_lastActivity {backend : Backend} {retentionDays : ℕ} {calls : List StoreCall} {s : Watched}
    (hr : run (watchStep backend retentionDays) .start calls = some s) {r : ℕ × JvmInstanceRow}
    (hmem : r ∈ s.db.jvmInstances.rows) : r.2.receivedAt = lastActivity s r.2.instanceId / 1000 := by
  obtain ⟨t, ht, hreceived⟩ := (tracked_run hr).times r hmem
  rw [lastActivity, ht, hreceived, Option.getD_some]

end JvmScout.Dashboard
