import JvmScout.Collector.Queries
import JvmScout.Lib.Runs

namespace JvmScout.Storage

open Models Relational Runs Traverse

structure InstanceDetails where
  deploymentId : Option String
  hostName : Option String
  jvmVersion : Option String
  jvmVendor : Option String
  osName : Option String
  kubernetes : Option Bool
deriving DecidableEq

def eventDetails (ev : AgentStartEvent) : InstanceDetails where
  deploymentId := ev.deploymentId
  hostName := ev.hostInfo.bind (·.name)
  jvmVersion := ev.jvmInfo.bind (·.version)
  jvmVendor := ev.jvmInfo.bind (·.vendor)
  osName := ev.hostInfo.bind (·.os)
  kubernetes := ev.hostInfo.bind (·.kubernetes)

def rowDetails (row : JvmInstanceRow) : InstanceDetails where
  deploymentId := row.deploymentId
  hostName := row.hostName
  jvmVersion := row.jvmVersion
  jvmVendor := row.jvmVendor
  osName := row.osName
  kubernetes := row.kubernetes

structure Registration (py : Python) where
  now : ℕ
  raw : Dict
  ev : AgentStartEvent
  projectId : Option String
  read : AgentStartEvent.validate py raw = some ev

variable {py : Python}

def Registration.instanceId (a : Registration py) : String := a.ev.instanceId.getD ""

def registerStep (db : Db) (a : Registration py) : Option Db :=
  (storeAgentStart a.now a.ev a.raw a.projectId db).toOption

def CoherentRow (py : Python) (row : JvmInstanceRow) : Prop :=
  ∃ ev, AgentStartEvent.validate py row.rawJson = some ev ∧ rowDetails row = eventDetails ev

def CoherentRows (py : Python) (db : Db) : Prop := ∀ r ∈ db.jvmInstances.rows, CoherentRow py r.2

def DeploymentsAgree (py : Python) (db : Db) : Prop :=
  ∀ projectId, (listInstances projectId db).map (fun d => (AgentStartEvent.validate py d).bind (·.deploymentId)) =
    ((db.jvmInstances.select (applyProject JvmInstanceRow.projectId projectId)).map fun r => r.2.deploymentId).reverse

def StaysCoherent (py : Python) (db : Db) (a : Registration py) : Prop :=
  ∀ db', registerStep db a = some db' → CoherentRows py db' ∧ DeploymentsAgree py db'

theorem CoherentRows.deploymentsAgree {db : Db} (h : CoherentRows py db) : DeploymentsAgree py db := by
  intro projectId
  rw [listInstances, List.map_map, ← List.map_reverse]
  apply List.map_congr_left
  intro r hr
  obtain ⟨ev, hread, hdetails⟩ := h r (Table.mem_select.mp (List.mem_reverse.mp hr)).1
  rw [Function.comp_apply, hread]
  exact (congrArg InstanceDetails.deploymentId hdetails).symm

variable {db db' : Db} {a : Registration py}

def known (db : Db) (instanceId : String) : Option (InstanceDetails × Dict) :=
  (findInstance instanceId db).map fun r => (rowDetails r.2, r.2.rawJson)

theorem coherentRows_iff :
    CoherentRows py db ↔ ∀ instanceId details raw, known db instanceId = some (details, raw) →
      ∃ ev, AgentStartEvent.validate py raw = some ev ∧ details = eventDetails ev := by
  constructor
  · intro h instanceId details raw hknown
    obtain ⟨r, hr, heq⟩ := Option.map_eq_some_iff.mp hknown
    cases heq
    exact h r ((UniqueTable.lookup_eq_some _).mp hr).1
  · intro h r hr
    apply h r.2.instanceId
    rw [known, findInstance, (UniqueTable.lookup_eq_some _).mpr ⟨hr, rfl⟩]
    rfl

theorem findInstance_registered_ne (h : registerStep db a = some db') {instanceId : String}
    (hne : instanceId ≠ a.instanceId) : findInstance instanceId db' = findInstance instanceId db := by
  obtain ⟨t, rfl, hcase⟩ := storeAgentStart_cases (toOption_eq_some.mp h)
  apply Option.ext
  intro r
  rw [findInstance, findInstance, UniqueTable.lookup_eq_some, UniqueTable.lookup_eq_some]
  apply and_congr_left
  intro hr
  rcases hcase with ⟨-, -, rfl⟩ | ⟨-, ht⟩
  · have hrefresh := Table.mem_update db.jvmInstances.toTable (p := fun row => row.instanceId == a.instanceId)
      (f := fun row => { row with rawJson := a.raw, timestamp := a.ev.timestamp, receivedAt := a.now }) (r := r)
    refine hrefresh.trans ⟨?_, fun hm => ⟨r.2, hm, ?_⟩⟩
    · rintro ⟨w, hw, heq⟩
      split at heq
      · rename_i hid
        rw [heq] at hr
        exact absurd (hr.symm.trans (eq_of_beq hid)) hne
      · rw [← heq] at hw
        exact hw
    · rw [if_neg fun hid => hne (hr.symm.trans (eq_of_beq hid))]
  · have hrows : t.rows = (db.jvmInstances.toTable.insert (jvmInstanceRow a.now a.ev a.raw a.projectId)).rows :=
      congrArg Table.rows ht
    rw [hrows, Table.mem_rows_insert]
    refine or_iff_left ?_
    rintro rfl
    exact hne hr.symm

theorem known_registered_self (h : registerStep db a = some db') :
    known db' a.instanceId =
      some (((known db a.instanceId).map Prod.fst).getD (eventDetails a.ev), a.raw) := by
  obtain ⟨t, rfl, hcase⟩ := storeAgentStart_cases (toOption_eq_some.mp h)
  rcases hcase with ⟨r, hfound, rfl⟩ | ⟨hnone, ht⟩
  · obtain ⟨hr, hid⟩ := (UniqueTable.lookup_eq_some _).mp hfound
    have hlookup : findInstance a.instanceId
        { db with jvmInstances := refresh a.now a.ev a.raw (a.ev.instanceId.getD "") db.jvmInstances } =
        some (r.1, { r.2 with rawJson := a.raw, timestamp := a.ev.timestamp, receivedAt := a.now }) := by
      apply (UniqueTable.lookup_eq_some _).mpr
      exact ⟨(Table.mem_update db.jvmInstances.toTable).mpr ⟨r.2, hr, (if_pos (beq_iff_eq.mpr hid)).symm⟩, hid⟩
    change findInstance a.instanceId db = some r at hfound
    rw [known, known, hfound, hlookup]
    rfl
  · have hrows : t.rows = (db.jvmInstances.toTable.insert (jvmInstanceRow a.now a.ev a.raw a.projectId)).rows :=
      congrArg Table.rows ht
    have hadded : (db.jvmInstances.nextKey, jvmInstanceRow a.now a.ev a.raw a.projectId) ∈ t.rows := by
      rw [hrows, Table.mem_rows_insert]
      exact .inr rfl
    have hlookup : t.lookup a.instanceId = _ := (UniqueTable.lookup_eq_some _).mpr ⟨hadded, rfl⟩
    change findInstance a.instanceId db = none at hnone
    rw [known, known, hnone, findInstance, hlookup]
    rfl

theorem known_registered_ne (h : registerStep db a = some db') {instanceId : String}
    (hne : instanceId ≠ a.instanceId) : known db' instanceId = known db instanceId := by
  rw [known, known, findInstance_registered_ne h hne]

theorem coherent_registered (hdb : CoherentRows py db) (h : registerStep db a = some db') :
    CoherentRows py db' ↔
      ∀ details raw, known db a.instanceId = some (details, raw) → details = eventDetails a.ev := by
  rw [coherentRows_iff]
  constructor
  · intro hcoherent details raw hknown
    obtain ⟨ev, hread, heq⟩ := hcoherent a.instanceId _ _ (known_registered_self h)
    rw [a.read] at hread
    cases hread
    rw [hknown] at heq
    exact heq
  · intro hsame instanceId details raw hknown
    by_cases hid : instanceId = a.instanceId
    · subst hid
      rw [known_registered_self h] at hknown
      cases hknown
      refine ⟨a.ev, a.read, ?_⟩
      cases hold : known db a.instanceId with
      | none => rfl
      | some old => exact hsame old.1 old.2 hold
    · rw [known_registered_ne h hid] at hknown
      exact coherentRows_iff.mp hdb instanceId details raw hknown

theorem known_empty (instanceId : String) : known .empty instanceId = none := rfl

theorem staysCoherent_iff (hdb : CoherentRows py db) {registrations : List (Registration py)}
    (hr : run registerStep db registrations = some db') :
    AllSteps registerStep (StaysCoherent py) db registrations ↔
      (∀ a ∈ registrations, ∀ details raw, known db a.instanceId = some (details, raw) → details = eventDetails a.ev) ∧
        registrations.Pairwise fun a b => a.instanceId = b.instanceId → eventDetails a.ev = eventDetails b.ev := by
  induction registrations generalizing db with
  | nil => simp [AllSteps]
  | cons a registrations ih =>
    obtain ⟨u, hu, hr⟩ := run_cons.mp hr
    have hstep : StaysCoherent py db a ↔ CoherentRows py u := by
      constructor
      · exact fun h => (h u hu).1
      · intro h v hv
        rw [hu] at hv
        cases hv
        exact ⟨h, h.deploymentsAgree⟩
    have hnext (hfirst : CoherentRows py u) :
        (∀ b ∈ registrations, ∀ details raw, known u b.instanceId = some (details, raw) → details = eventDetails b.ev) ↔
          (∀ b ∈ registrations, ∀ details raw, known db b.instanceId = some (details, raw) →
            details = eventDetails b.ev) ∧
          ∀ b ∈ registrations, a.instanceId = b.instanceId → eventDetails a.ev = eventDetails b.ev := by
      have hsame := (coherent_registered hdb hu).mp hfirst
      have hown : known u a.instanceId = some (eventDetails a.ev, a.raw) := by
        rw [known_registered_self hu]
        cases hold : known db a.instanceId with
        | none => rfl
        | some old => rw [Option.map_some, Option.getD_some, hsame old.1 old.2 hold]
      constructor
      · intro h
        refine ⟨fun b hb details raw hknown => ?_, fun b hb hid => ?_⟩
        · by_cases hid : b.instanceId = a.instanceId
          · rw [hid] at hknown
            rw [hsame details raw hknown]
            exact h b hb _ _ (by rw [hid, hown])
          · exact h b hb details raw (by rw [known_registered_ne hu hid, hknown])
        · exact h b hb _ _ (by rw [← hid, hown])
      · rintro ⟨hold, hpair⟩ b hb details raw hknown
        by_cases hid : b.instanceId = a.instanceId
        · rw [hid, hown] at hknown
          cases hknown
          exact hpair b hb hid.symm
        · rw [known_registered_ne hu hid] at hknown
          exact hold b hb details raw hknown
    have hrest : (∀ t, registerStep db a = some t → AllSteps registerStep (StaysCoherent py) t registrations) ↔
        AllSteps registerStep (StaysCoherent py) u registrations := by
      constructor
      · exact fun h => h u hu
      · intro h t ht
        rw [hu] at ht
        cases ht
        exact h
    rw [AllSteps, hstep, hrest, List.forall_mem_cons, List.pairwise_cons, ← coherent_registered hdb hu]
    constructor
    · rintro ⟨hfirst, hlater⟩
      obtain ⟨hknown, hpairs⟩ := (ih hfirst hr).mp hlater
      obtain ⟨hold, hpair⟩ := (hnext hfirst).mp hknown
      exact ⟨⟨hfirst, hold⟩, hpair, hpairs⟩
    · rintro ⟨⟨hfirst, hold⟩, hpair, hpairs⟩
      exact ⟨hfirst, (ih hfirst hr).mpr ⟨(hnext hfirst).mpr ⟨hold, hpair⟩, hpairs⟩⟩

/-- However registrations follow each other, the rows are coherent in every state exactly when
no two of them name one instance with different details. -/
theorem rows_coherent_iff {registrations : List (Registration py)}
    (hr : run registerStep .empty registrations = some db') :
    AllSteps registerStep (StaysCoherent py) .empty registrations ↔
      ∀ a ∈ registrations, ∀ b ∈ registrations, a.instanceId = b.instanceId → eventDetails a.ev = eventDetails b.ev := by
  have hempty : CoherentRows py .empty := fun _ hm => nomatch hm
  rw [staysCoherent_iff hempty hr]
  constructor
  · rintro ⟨-, hpairs⟩ a ha b hb
    have symm : Std.Symm fun a b : Registration py =>
        a.instanceId = b.instanceId → eventDetails a.ev = eventDetails b.ev :=
      ⟨fun _ _ h hid => (h hid.symm).symm⟩
    exact hpairs.forall_of_forall (fun _ _ _ => rfl) ha hb
  · intro h
    refine ⟨fun a _ details raw hknown => ?_, List.pairwise_of_forall_mem_list h⟩
    rw [known_empty] at hknown
    cases hknown

def agentStart (deployment : String) : Dict :=
  [("type", .str "agent_start"), ("instanceId", .str "i1"), ("deploymentId", .str deployment)]

def startEvent (deployment : String) : AgentStartEvent where
  type := "agent_start"
  timestamp := none
  instanceId := some "i1"
  deploymentId := some deployment
  environment := none
  jvmInfo := none
  hostInfo := none
  jvmArgs := []
  classpath := none
  envVars := []
  systemProperties := []
  agentConfig := []

def registration (deployment : String) : Registration Python.literal :=
  ⟨0, agentStart deployment, startEvent deployment, some "acme", rfl⟩

theorem rows_coherent_same_deployment :
    AllSteps registerStep (StaysCoherent Python.literal) .empty [registration "v1", registration "v1"] := by
  have hrun : (run registerStep .empty [registration "v1", registration "v1"]).isSome = true := by
    decide +kernel
  obtain ⟨db, hr⟩ := Option.isSome_iff_exists.mp hrun
  apply (rows_coherent_iff hr).mpr
  intro a ha b hb _
  simp only [List.mem_cons, List.not_mem_nil, or_false, or_self] at ha hb
  rw [ha, hb]

theorem redeployed_instance_incoherent :
    ∃ db, run registerStep .empty [registration "v1", registration "v2"] = some db ∧ ¬ CoherentRows Python.literal db ∧
      (listInstances (some "acme") db).map (fun d => Dict.get d "deploymentId") = [.str "v2"] ∧
      ((db.jvmInstances.select (applyProject JvmInstanceRow.projectId (some "acme"))).map fun r => r.2.deploymentId) =
        [some "v1"] := by
  have hend : (run registerStep .empty [registration "v1", registration "v2"]).map (fun db =>
      ((known db "i1").map fun x => (x.1.deploymentId, x.2),
        (listInstances (some "acme") db).map (fun d => Dict.get d "deploymentId"),
        (db.jvmInstances.select (applyProject JvmInstanceRow.projectId (some "acme"))).map fun r => r.2.deploymentId)) =
      some (some (some "v1", agentStart "v2"), [.str "v2"], [some "v1"]) := rfl
  obtain ⟨db, hr, heq⟩ := Option.map_eq_some_iff.mp hend
  simp only [Prod.mk.injEq] at heq
  obtain ⟨hknown, hlisted, hgrouped⟩ := heq
  refine ⟨db, hr, fun hcoherent => ?_, hlisted, hgrouped⟩
  obtain ⟨⟨details, raw⟩, hold, hpair⟩ := Option.map_eq_some_iff.mp hknown
  simp only [Prod.mk.injEq] at hpair
  obtain ⟨hdeployment, rfl⟩ := hpair
  obtain ⟨ev, hread, rfl⟩ := coherentRows_iff.mp hcoherent "i1" details _ hold
  have hev : AgentStartEvent.validate Python.literal (agentStart "v2") = some (startEvent "v2") := rfl
  rw [hev] at hread
  cases hread
  simp [eventDetails, startEvent] at hdeployment

end JvmScout.Storage
