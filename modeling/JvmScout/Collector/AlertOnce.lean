import JvmScout.Collector.AlertWorker

/-!
A `new_event` rule compares the rows that are stored when the worker comes to an
event, not the rows that were stored before it. It is delivered once for a
fingerprint exactly when the first event of it is evaluated while it is alone.
-/

namespace JvmScout.Alerts

open Models Storage Routes Relational Runs

variable {py : Python} {backend : Backend} {net : Network} {k : ℕ} {t : Option String} {rule : Dict}
  {s s' : Worker} {a : Label py} {fp : String}

structure Books (py : Python) (k : ℕ) (t : Option String) (rule : Dict) (s : Worker) : Prop where
  standing : Standing k t rule s.db
  inScope : ∀ e ∈ s.pending, e.2 = t → matchesScope rule e.1 = true
  account : ∀ fp, ownRows t fp s.db = evaluations py t fp s + awaiting py t fp s

def OnTrack (py : Python) (k : ℕ) (t : Option String) (s : Worker) : Prop :=
  ∀ fp, fp ≠ "" →
    (evaluations py t fp s = 0 → deliveries k fp s.delivered = 0 ∧
      (0 < ownRows t fp s.db → fingerprintRowCount fp t s.db = 1)) ∧
    (0 < evaluations py t fp s → deliveries k fp s.delivered = 1)

def Missed (k : ℕ) (t : Option String) (s : Worker) : Prop :=
  ∃ fp, fp ≠ "" ∧ 0 < ownRows t fp s.db ∧ 2 ≤ fingerprintRowCount fp t s.db ∧
    deliveries k fp s.delivered = 0

theorem ownRows_pos {db : Db} : 0 < ownRows t fp db ↔
    ∃ r ∈ db.exceptions.rows, r.2.projectId = t ∧ r.2.fingerprint = fp := by
  rw [ownRows, Table.count, List.length_pos_iff_exists_mem]
  constructor
  · rintro ⟨r, hr⟩
    obtain ⟨hmem, hclause⟩ := Table.mem_select.mp hr
    simp only [ownClause, owned, Bool.and_eq_true, beq_iff_eq] at hclause
    exact ⟨r, hmem, hclause.2, hclause.1⟩
  · rintro ⟨r, hmem, hp, hfp⟩
    refine ⟨r, Table.mem_select.mpr ⟨hmem, ?_⟩⟩
    simp [ownClause, owned, hp, hfp]

theorem counts_step (hr : NewEventRule net rule) (h : Books py k t rule s) (hfp : fp ≠ "")
    (hs : step py backend net s a = some s') :
    (∃ ing items, a = .ingest ing items ∧
      ownRows t fp s'.db = ownRows t fp s.db +
        (if ing.projectId = t then inBatch fp (committedEvents ing items) else 0) ∧
      fingerprintRowCount fp t s'.db = fingerprintRowCount fp t s.db +
        (if t = none ∨ ing.projectId = t then inBatch fp (committedEvents ing items) else 0) ∧
      evaluations py t fp s' = evaluations py t fp s ∧ s'.delivered = s.delivered) ∨
    ((∀ ing items, a ≠ .ingest ing items) ∧ s'.db.exceptions = s.db.exceptions ∧
      ((evaluations py t fp s' = evaluations py t fp s ∧
          deliveries k fp s'.delivered = deliveries k fp s.delivered) ∨
        (0 < awaiting py t fp s ∧ evaluations py t fp s' = evaluations py t fp s + 1 ∧
          deliveries k fp s'.delivered = deliveries k fp s.delivered +
            if fingerprintRowCount fp t s.db ≤ 1 then 1 else 0))) := by
  cases a with
  | ingest ing items =>
    cases hs
    exact .inl ⟨ing, items, rfl, commitBatch_ownRows t fp ing items s,
      commitBatch_rowCount t fp ing items s, rfl, rfl⟩
  | schedule i =>
    obtain ⟨-, hdb, hevaluated, hdelivered⟩ := scheduleEvaluation_pending hs
    refine .inr ⟨by simp, by rw [hdb], .inl ⟨?_, by rw [hdelivered]⟩⟩
    rw [evaluations, hevaluated, evaluations]
  | take =>
    obtain ⟨-, hdb, hevaluated, hdelivered⟩ := takeNext_pending hs
    refine .inr ⟨by simp, by rw [hdb], .inl ⟨?_, by rw [hdelivered]⟩⟩
    rw [evaluations, hevaluated, evaluations]
  | evaluate clock =>
    refine .inr ⟨by simp, ?_⟩
    simp only [step, evaluateCurrent] at hs
    split at hs
    · rename_i ev projectId hcurrent
      cases hs
      refine ⟨evaluateEvent_exceptions py backend clock net ev projectId s.db, ?_⟩
      have hpending : (ev, projectId) ∈ s.pending := by simp [Worker.pending, hcurrent]
      have hsent := evaluateEvent_deliveries py backend clock hr h.standing hfp
        (h.inScope _ hpending)
      simp only [evaluations, deliveries, List.countP_append, List.countP_singleton] at hsent ⊢
      rw [hsent]
      by_cases hconcerns : concerns py t fp (ev, projectId) = true
      · have hboth : projectId = t ∧ eventFingerprint py ev = fp := by
          simpa [concerns] using hconcerns
        refine .inr ⟨List.countP_pos_iff.mpr ⟨_, hpending, hconcerns⟩, by rw [if_pos hconcerns], ?_⟩
        simp only [hboth, true_and]
      · have hnot : ¬ (projectId = t ∧ eventFingerprint py ev = fp) := by
          simpa [concerns] using hconcerns
        refine .inl ⟨by rw [if_neg hconcerns]; rfl, ?_⟩
        rw [if_neg fun hall => hnot ⟨hall.1, hall.2.1⟩]
        rfl
    · cases hs

theorem Books.step (h : Books py k t rule s) (ha : Covers rule t a)
    (hs : step py backend net s a = some s') : Books py k t rule s' := by
  cases a with
  | ingest ing items =>
    cases hs
    refine ⟨?_, ?_, fun fp => ?_⟩
    · obtain ⟨row, hmem, hclause, hsame⟩ := h.standing
      have hconfig := (ingestItems_committed ing items s.db).2.1
      refine ⟨row, ?_, hclause, hsame⟩
      rw [commitBatch, hconfig]
      exact hmem
    · intro e he hp
      rcases List.mem_append.mp ((commitBatch_pending ing items s).mem_iff.mp he) with he | he
      · exact h.inScope e he hp
      · obtain ⟨e', he', rfl⟩ := List.mem_map.mp he
        exact ha hp e' he'
    · have haccount := h.account fp
      have hown := commitBatch_ownRows t fp ing items s
      have hawaiting := commitBatch_awaiting t fp ing items s
      have hevaluations : evaluations py t fp (commitBatch ing items s) = evaluations py t fp s := rfl
      omega
  | schedule i =>
    obtain ⟨hperm, hdb, hevaluated, -⟩ := scheduleEvaluation_pending hs
    refine ⟨hdb ▸ h.standing, fun e he => h.inScope e (hperm.mem_iff.mp he), fun fp => ?_⟩
    rw [hdb, evaluations, hevaluated, awaiting, hperm.countP_eq]
    exact h.account fp
  | take =>
    obtain ⟨hperm, hdb, hevaluated, -⟩ := takeNext_pending hs
    refine ⟨hdb ▸ h.standing, fun e he => h.inScope e (hperm.mem_iff.mp he), fun fp => ?_⟩
    rw [hdb, evaluations, hevaluated, awaiting, hperm.countP_eq]
    exact h.account fp
  | evaluate clock =>
    simp only [Alerts.step, evaluateCurrent] at hs
    split at hs
    · rename_i ev projectId hcurrent
      cases hs
      have hpending : s.pending = s.scheduling.flatten ++ s.queue ++ [(ev, projectId)] := by
        simp [Worker.pending, hcurrent]
      refine ⟨h.standing.evaluateEvent, fun e he => ?_, fun fp => ?_⟩
      · apply h.inScope e
        rw [hpending]
        apply List.mem_append_left
        simpa [Worker.pending] using he
      · have haccount := h.account fp
        have hexceptions := evaluateEvent_exceptions py backend clock net ev projectId s.db
        rw [awaiting, hpending, List.countP_append] at haccount
        simp only [ownRows, hexceptions, evaluations, awaiting, Worker.pending, List.countP_append,
          Option.toList_none, List.append_nil] at haccount ⊢
        omega
    · cases hs

theorem OnTrack.step (hr : NewEventRule net rule) (hbooks : Books py k t rule s) (h : OnTrack py k t s)
    (hkeeps : KeepsFirst py t s a) (hs : step py backend net s a = some s') : OnTrack py k t s' := by
  intro fp hfp
  obtain ⟨hnever, honce⟩ := h fp hfp
  have hle := ownRows_le t fp s.db
  have haccount := hbooks.account fp
  rcases counts_step hr hbooks hfp hs with ⟨ing, items, rfl, hown, hcount, heval, hdelivered⟩ |
    ⟨-, hexceptions, hcase⟩
  · rw [hdelivered, heval, hown, hcount]
    refine ⟨fun hzero => ⟨(hnever hzero).1, fun hpos => ?_⟩, honce⟩
    have hone := (hnever hzero).2
    by_cases hn : 0 < inBatch fp (committedEvents ing items)
    · rcases hkeeps fp hfp hn with hev | ⟨hp, hfresh, hsingle⟩ | ⟨hp, hnull⟩
      · omega
      · rw [if_pos (.inr hp), hfresh, hsingle]
      · rw [if_neg hp] at hpos
        by_cases ht : t = none
        · have hown0 := hnull ht
          omega
        · rw [if_neg (not_or.mpr ⟨ht, hp⟩)]
          exact hone hpos
    · have hn0 : inBatch fp (committedEvents ing items) = 0 := by omega
      rw [hn0] at hpos ⊢
      simp only [ite_self, Nat.add_zero] at hpos ⊢
      exact hone hpos
  · have hown : ownRows t fp s'.db = ownRows t fp s.db := by rw [ownRows, hexceptions, ownRows]
    have hcount : fingerprintRowCount fp t s'.db = fingerprintRowCount fp t s.db :=
      fingerprintRowCount_congr hexceptions fp t
    rw [hown, hcount]
    rcases hcase with ⟨heval, hdelivered⟩ | ⟨hawaiting, heval, hdelivered⟩
    · rw [heval, hdelivered]
      exact ⟨hnever, honce⟩
    · rw [heval, hdelivered]
      refine ⟨fun hzero => by omega, fun _ => ?_⟩
      by_cases hev : evaluations py t fp s = 0
      · obtain ⟨hnone, hone⟩ := hnever hev
        have hcount1 : fingerprintRowCount fp t s.db = 1 := hone (by omega)
        rw [if_pos (by omega), hnone]
      · rw [if_neg (by omega), honce (by omega)]

theorem Missed.of_slip (hr : NewEventRule net rule) (hbooks : Books py k t rule s) (h : OnTrack py k t s)
    (hslip : ¬ KeepsFirst py t s a) (hs : step py backend net s a = some s') : Missed k t s' := by
  cases a with
  | schedule i => exact absurd trivial hslip
  | take => exact absurd trivial hslip
  | evaluate clock => exact absurd trivial hslip
  | ingest ing items =>
    simp only [KeepsFirst, not_forall, not_or] at hslip
    obtain ⟨fp, hfp, hn, hev, hown, hforeign⟩ := hslip
    have hzero : evaluations py t fp s = 0 := by omega
    obtain ⟨hnone, -⟩ := (h fp hfp).1 hzero
    have hle := ownRows_le t fp s.db
    rcases counts_step hr hbooks hfp hs with ⟨ing', items', heq, hown', hcount', -, hdelivered⟩ | ⟨hno, -⟩
    · cases heq
      refine ⟨fp, hfp, ?_⟩
      rw [hdelivered, hown', hcount']
      by_cases hp : ing.projectId = t
      · rw [if_pos hp, if_pos (.inr hp)]
        have hmany : ¬ (fingerprintRowCount fp t s.db = 0 ∧ inBatch fp (committedEvents ing items) = 1) :=
          fun hboth => hown ⟨hp, hboth⟩
        exact ⟨by omega, by omega, hnone⟩
      · have hboth : t = none ∧ ownRows t fp s.db ≠ 0 := by
          by_contra hno
          exact hforeign ⟨hp, fun ht => by_contra fun hne => hno ⟨ht, hne⟩⟩
        rw [if_neg hp, if_pos (.inl hboth.1)]
        exact ⟨by omega, by omega, hnone⟩
    · exact absurd rfl (hno ing items)

theorem Missed.step (hr : NewEventRule net rule) (hbooks : Books py k t rule s) (h : Missed k t s)
    (hs : step py backend net s a = some s') : Missed k t s' := by
  obtain ⟨fp, hfp, hown, hcount, hnone⟩ := h
  refine ⟨fp, hfp, ?_⟩
  rcases counts_step hr hbooks hfp hs with ⟨ing, items, -, hown', hcount', -, hdelivered⟩ |
    ⟨-, hexceptions, hcase⟩
  · rw [hdelivered, hown', hcount']
    exact ⟨by omega, by omega, hnone⟩
  · rw [fingerprintRowCount_congr hexceptions, ownRows, hexceptions]
    refine ⟨hown, hcount, ?_⟩
    rcases hcase with ⟨-, hdelivered⟩ | ⟨-, -, hdelivered⟩
    · rw [hdelivered, hnone]
    · rw [hdelivered, hnone, if_neg (by omega)]

/-- For a rule of the tenant that stands before its first event arrives: once nothing
waits, each fingerprint of the tenant was delivered exactly once if and only if every
batch of the run kept the first events alone until they were evaluated. -/
theorem delivered_exactly_once_iff {row : ConfigEntityRow} {db : Db} {labels : List (Label py)}
    (hrow : (k, row) ∈ db.configEntities.rows) (hclause : configClause "alert_rules" t false row = true)
    (hr : NewEventRule net (configToDict row)) (hfirst : ∀ r ∈ db.exceptions.rows, r.2.projectId ≠ t)
    (hcovers : ∀ a ∈ labels, Covers (configToDict row) t a)
    (hrun : run (step py backend net) (.start db) labels = some s) (hquiet : Quiescent s) :
    ExactlyOnce k t s ↔ AllSteps (step py backend net) (KeepsFirst py t) (.start db) labels := by
  have hnoRows (fp : String) : ownRows t fp db = 0 := by
    by_contra hne
    obtain ⟨r, hmem, hp, -⟩ := ownRows_pos.mp (Nat.pos_of_ne_zero hne)
    exact hfirst r hmem hp
  have hbooks : Books py k t (configToDict row) (.start db) := by
    refine ⟨⟨row, hrow, hclause, fun _ _ => rfl⟩, fun e he => ?_, fun fp => hnoRows fp⟩
    cases he
  have htrack : OnTrack py k t (.start db) := by
    intro fp _
    refine ⟨fun _ => ⟨rfl, fun hpos => ?_⟩, fun hpos => absurd hpos (Nat.lt_irrefl 0)⟩
    have hzero := hnoRows fp
    change 0 < ownRows t fp db at hpos
    omega
  have hboth := run_dichotomy (I := fun s => Books py k t (configToDict row) s ∧ OnTrack py k t s)
    (B := fun s => Books py k t (configToDict row) s ∧ Missed k t s)
    (fun s a ha s' h hkeeps hs => ⟨h.1.step (hcovers a ha) hs, h.2.step hr h.1 hkeeps hs⟩)
    (fun s a ha s' h hslip hs => ⟨h.1.step (hcovers a ha) hs, Missed.of_slip hr h.1 h.2 hslip hs⟩)
    (fun s a ha s' h hs => ⟨h.1.step (hcovers a ha) hs, h.2.step hr h.1 hs⟩)
    ⟨hbooks, htrack⟩ hrun
  rcases hboth with ⟨hall, hbooks', htrack'⟩ | ⟨hnot, -, fp, hfp, hown, -, hnone⟩
  · refine iff_of_true (fun r hmem hp hfp => ?_) hall
    have hpos : 0 < ownRows t r.2.fingerprint s.db := ownRows_pos.mpr ⟨r, hmem, hp, rfl⟩
    have haccount := hbooks'.account r.2.fingerprint
    have hidle : awaiting py t r.2.fingerprint s = 0 := by
      rw [awaiting, hquiet, List.countP_nil]
    exact (htrack' r.2.fingerprint hfp).2 (by omega)
  · refine iff_of_false (fun honce => ?_) hnot
    obtain ⟨r, hmem, hp, rfl⟩ := ownRows_pos.mp hown
    have hone := honce r hmem hp hfp
    omega

def openNetwork : Network := ⟨fun _ => .ok true, fun _ _ => some 200⟩

def firstSeenRow : ConfigEntityRow :=
  configRow Python.literal 0 "r1" "alert_rules" firstSeenRule (some "acme")

theorem firstSeenRow_newEvent : NewEventRule openNetwork (configToDict firstSeenRow) :=
  ⟨rfl, rfl, fun _ => rfl⟩

def firstSeenStore : Db := { Db.empty with configEntities := Table.empty.insert firstSeenRow }

def acmeIngestion : Ingestion Python.literal := ⟨⟨[], []⟩, Backend.sqlite, 0, some "acme", .none⟩

def burst : List (Label Python.literal) :=
  [.ingest acmeIngestion [.obj boomEvent, .obj boomEvent], .schedule 0, .schedule 0, .take, .evaluate 0,
    .take, .evaluate 0]

theorem burst_delivers_nothing :
    ∃ s, run (step Python.literal Backend.sqlite openNetwork) (.start firstSeenStore) burst = some s ∧
      Quiescent s ∧ s.delivered = [] ∧ ¬ ExactlyOnce 1 (some "acme") s := by
  refine ⟨_, rfl, rfl, rfl, ?_⟩
  intro h
  exact absurd (h _ (List.mem_cons_self) rfl (by decide)) (by decide)

def spread : List (Label Python.literal) :=
  [.ingest acmeIngestion [.obj boomEvent], .schedule 0, .take, .evaluate 0,
    .ingest acmeIngestion [.obj boomEvent], .schedule 1, .take, .evaluate 60]

theorem spread_delivers_once_iff :
    ∃ s, run (step Python.literal Backend.sqlite openNetwork) (.start firstSeenStore) spread = some s ∧
      Quiescent s ∧
      (ExactlyOnce 1 (some "acme") s ↔ AllSteps (step Python.literal Backend.sqlite openNetwork)
        (KeepsFirst Python.literal (some "acme")) (.start firstSeenStore) spread) := by
  refine ⟨_, rfl, rfl, ?_⟩
  refine delivered_exactly_once_iff (List.mem_singleton_self _) rfl firstSeenRow_newEvent ?_ ?_ rfl ?_
  · intro r hr
    cases hr
  · intro a ha
    simp only [spread, List.mem_cons, List.not_mem_nil, or_false] at ha
    rcases ha with rfl | rfl | rfl | rfl | rfl | rfl | rfl | rfl
    · exact fun _ _ _ => rfl
    · trivial
    · trivial
    · trivial
    · exact fun _ _ _ => rfl
    · trivial
    · trivial
    · trivial
  · rfl

end JvmScout.Alerts
