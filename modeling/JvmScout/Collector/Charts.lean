import JvmScout.Collector.Queries
import JvmScout.Lib.Histogram
import Mathlib.Tactic.Linarith
import Mathlib.Tactic.FieldSimp

namespace JvmScout.Storage

open Relational

def windowRows (clock : ℚ) (hours : ℕ) (environment projectId : Option String) (db : Db) : List ExceptionRow :=
  db.exceptions.values.filter fun row =>
    ⌊windowFrom clock hours⌋ ≤ (row.receivedAt : ℤ) ∧ filtered envClause environment row ∧ inScope projectId row

def bucketOf (clock : ℚ) (hours buckets second : ℕ) : ℕ :=
  min (buckets - 1) ⌊(second - windowFrom clock hours) / bucketSeconds hours buckets⌋.toNat

def chartBucket (clock : ℚ) (hours buckets : ℕ) (row : ExceptionRow) : ℕ :=
  bucketIndex (windowFrom clock hours) (bucketSeconds hours buckets) buckets
    (groupSecond (bucketSeconds hours buckets) row.receivedAt)

def rowsIn (clock : ℚ) (hours buckets i : ℕ) (rows : List ExceptionRow) : List ExceptionRow :=
  rows.filter fun row => chartBucket clock hours buckets row = i

def rowsOf (fingerprint : String) (rows : List ExceptionRow) : List ExceptionRow :=
  rows.filter fun row => row.fingerprint = fingerprint

theorem select_windowClause (clock : ℚ) (hours : ℕ) (environment projectId : Option String) (db : Db) :
    (db.exceptions.select (windowClause (windowFrom clock hours) environment projectId)).map Prod.snd =
      windowRows clock hours environment projectId db := by
  rw [windowRows, Table.values, List.filter_map, Table.select]
  congr 1
  apply List.filter_congr
  intro r _
  simp only [windowClause, receivedFrom, Function.comp_apply, Bool.decide_and, Bool.decide_coe, Bool.and_assoc]

theorem one_le_bucketSeconds (hours buckets : ℕ) : 1 ≤ bucketSeconds hours buckets := le_max_left _ _

theorem bucketIndex_eq (start bucket : ℚ) {buckets : ℕ} (hb : 0 < buckets) (second : ℕ) :
    bucketIndex start bucket buckets second = min (buckets - 1) ⌊(second - start) / bucket⌋.toNat := by
  rw [bucketIndex]
  generalize ((second : ℚ) - start) / bucket = q
  by_cases hq : 0 ≤ q
  · have hfloor := Int.floor_nonneg.mpr hq
    have htrunc : Python.truncate q = ⌊q⌋ := if_pos hq
    simp only [htrunc]
    split_ifs <;> omega
  · have hneg : ⌊q⌋ < 0 := Int.floor_lt.mpr (by simpa using hq)
    have htrunc : Python.truncate q ≤ 0 := by
      rw [Python.truncate, if_neg hq]
      exact Int.ceil_le.mpr (by simpa using (not_le.mp hq).le)
    split_ifs <;> omega

theorem chartBucket_lt (clock : ℚ) (hours : ℕ) {buckets : ℕ} (hb : 0 < buckets) (row : ExceptionRow) :
    chartBucket clock hours buckets row < buckets := by
  rw [chartBucket, bucketIndex_eq _ _ hb]
  omega

theorem groupSecond_near (bucket : ℚ) (hbucket : 0 < bucket) (second : ℕ) :
    (groupSecond bucket second : ℚ) ≤ second ∧ (second : ℚ) < groupSecond bucket second + bucket := by
  rw [groupSecond]
  split
  · exact ⟨le_refl _, by linarith⟩
  · rename_i hminute
    have hle : second / 60 * 60 ≤ second := by omega
    have hlt : second < second / 60 * 60 + 60 := by omega
    have hlt' : (second : ℚ) < (second / 60 * 60 : ℕ) + 60 := by exact_mod_cast hlt
    exact ⟨by exact_mod_cast hle, by linarith [not_lt.mp hminute]⟩

theorem chartBucket_near (clock : ℚ) (hours : ℕ) {buckets : ℕ} (hb : 0 < buckets) (row : ExceptionRow) :
    chartBucket clock hours buckets row = bucketOf clock hours buckets row.receivedAt ∨
      chartBucket clock hours buckets row + 1 = bucketOf clock hours buckets row.receivedAt := by
  have hpos : 0 < bucketSeconds hours buckets := lt_of_lt_of_le one_pos (one_le_bucketSeconds hours buckets)
  obtain ⟨hle, hlt⟩ := groupSecond_near _ hpos row.receivedAt
  rw [chartBucket, bucketIndex_eq _ _ hb, bucketOf]
  generalize bucketSeconds hours buckets = bucket at *
  generalize windowFrom clock hours = start
  generalize groupSecond bucket row.receivedAt = second at *
  have hfloor : ⌊((second : ℚ) - start) / bucket⌋ ≤ ⌊((row.receivedAt : ℚ) - start) / bucket⌋ := by
    apply Int.floor_le_floor
    gcongr
  have hnext : ⌊((row.receivedAt : ℚ) - start) / bucket⌋ ≤ ⌊((second : ℚ) - start) / bucket⌋ + 1 := by
    rw [← Int.floor_add_one]
    apply Int.floor_le_floor
    rw [div_add_one hpos.ne']
    gcongr
    linarith
  omega

theorem sumOcc_append (l l' : List ExceptionRow) : sumOcc (l ++ l') = sumOcc l + sumOcc l' := by
  simp [sumOcc]

theorem sumOcc_perm {l l' : List ExceptionRow} (h : l.Perm l') : sumOcc l = sumOcc l' := (h.map occ).sum_eq

theorem sumOcc_flatMap {α : Type*} (f : α → List ExceptionRow) (l : List α) :
    sumOcc (l.flatMap f) = (l.map fun x => sumOcc (f x)).sum := by
  induction l with
  | nil => rfl
  | cons x l ih => rw [List.flatMap_cons, sumOcc_append, ih, List.map_cons, List.sum_cons]

theorem sumOcc_groupBy {κ : Type*} [DecidableEq κ] (key : ExceptionRow → κ) (p : κ → Bool)
    (rows : List ExceptionRow) :
    sumOcc (((groupBy key rows).filter fun g => p g.1).flatMap Prod.snd) =
      sumOcc (rows.filter fun row => p (key row)) :=
  sumOcc_perm (groupBy_rows key p rows)

theorem sumOcc_groupBy_filter {κ : Type*} [DecidableEq κ] (key : ExceptionRow → κ) (p q : κ → Bool)
    (rows : List ExceptionRow) :
    sumOcc ((((groupBy key rows).filter fun g => p g.1).filter fun g => q g.1).flatMap Prod.snd) =
      sumOcc ((rows.filter fun row => p (key row)).filter fun row => q (key row)) := by
  rw [List.filter_filter, List.filter_filter]
  exact sumOcc_groupBy key (fun k => q k && p k) rows

theorem sum_sumOcc_filter {κ : Type*} [DecidableEq κ] (key : ExceptionRow → κ) {ks : List κ} (hks : ks.Nodup)
    (rows : List ExceptionRow) :
    (ks.map fun k => sumOcc (rows.filter fun row => key row = k)).sum =
      sumOcc (rows.filter fun row => key row ∈ ks) := by
  rw [← sumOcc_flatMap fun k => rows.filter fun row => key row = k]
  exact sumOcc_perm (perm_flatMap_filter key hks rows)

theorem sumOcc_filter_add (p : ExceptionRow → Bool) (rows : List ExceptionRow) :
    sumOcc (rows.filter p) + sumOcc (rows.filter fun row => !p row) = sumOcc rows := by
  rw [← sumOcc_append]
  exact sumOcc_perm (List.filter_append_perm p rows)

theorem sum_sumOcc_rowsIn (clock : ℚ) (hours : ℕ) {buckets : ℕ} (hb : 0 < buckets) (rows : List ExceptionRow) :
    ((List.range buckets).map fun i => sumOcc (rowsIn clock hours buckets i rows)).sum = sumOcc rows := by
  have hall : (rows.filter fun row => chartBucket clock hours buckets row ∈ List.range buckets) = rows := by
    apply List.filter_eq_self.mpr
    intro row _
    simpa using chartBucket_lt clock hours hb row
  simp only [rowsIn]
  rw [sum_sumOcc_filter _ List.nodup_range, hall]

theorem foldl_slotAdd {κ : Type*} (caught : κ → Option Bool) (groups : List (κ × List ExceptionRow)) (s : Slot) :
    groups.foldl (fun s g => Slot.add (caught g.1) (sumOcc g.2) s) s =
      ⟨s.t, s.caught + sumOcc ((groups.filter fun g => caught g.1 = some true).flatMap Prod.snd),
        s.uncaught + sumOcc ((groups.filter fun g => !decide (caught g.1 = some true)).flatMap Prod.snd)⟩ := by
  induction groups generalizing s with
  | nil => simp [sumOcc]
  | cons g groups ih =>
    rw [List.foldl_cons, ih, List.filter_cons, List.filter_cons]
    by_cases hg : caught g.1 = some true
    · simp [Slot.add, hg, sumOcc_append, add_assoc]
    · simp [Slot.add, hg, sumOcc_append, add_assoc]

theorem timeseriesSlots_eq (clock : ℚ) (hours buckets : ℕ) (environment projectId : Option String) (db : Db) :
    timeseriesSlots clock hours buckets environment projectId db =
      (List.range buckets).map fun i =>
        let rows := rowsIn clock hours buckets i (windowRows clock hours environment projectId db)
        ⟨millis (windowFrom clock hours + i * bucketSeconds hours buckets),
          sumOcc (rows.filter fun row => row.caught = some true),
          sumOcc (rows.filter fun row => !decide (row.caught = some true))⟩ := by
  simp only [timeseriesSlots, select_windowClause]
  apply List.ext_getElem?
  intro i
  rw [List.getElem?_foldl_modify (fun g : (ℕ × Option Bool) × List ExceptionRow =>
    bucketIndex (windowFrom clock hours) (bucketSeconds hours buckets) buckets g.1.1)
    (fun g => Slot.add g.1.2 (sumOcc g.2)), List.getElem?_map, List.getElem?_map, Option.map_map]
  rcases lt_or_ge i buckets with hi | hi
  · rw [List.getElem?_range hi, Option.map_some, Option.map_some, Function.comp_apply,
      foldl_slotAdd (fun key : ℕ × Option Bool => key.2), zero_add, zero_add]
    congr 2
    · exact sumOcc_groupBy_filter _ (fun key : ℕ × Option Bool => decide (bucketIndex _ _ _ key.1 = i))
        (fun key => decide (key.2 = some true)) _
    · exact sumOcc_groupBy_filter _ (fun key : ℕ × Option Bool => decide (bucketIndex _ _ _ key.1 = i))
        (fun key => !decide (key.2 = some true)) _
  · rw [List.getElem?_eq_none (by simpa using hi)]
    rfl

theorem foldl_eventAdd {κ : Type*} (idx : κ → ℕ) (groups : List (κ × List ExceptionRow)) (e : EventCounts) :
    groups.foldl (fun e g => EventCounts.add (idx g.1) (sumOcc g.2) e) e =
      ⟨e.total + sumOcc (groups.flatMap Prod.snd),
        groups.foldl (fun bs g => bs.modify (idx g.1) (· + sumOcc g.2)) e.buckets⟩ := by
  induction groups generalizing e with
  | nil => simp [sumOcc]
  | cons g groups ih =>
    rw [List.foldl_cons, ih]
    simp [EventCounts.add, sumOcc_append, add_assoc]

theorem foldl_add_sumOcc {κ : Type*} (groups : List (κ × List ExceptionRow)) (n : ℤ) :
    groups.foldl (fun n g => n + sumOcc g.2) n = n + sumOcc (groups.flatMap Prod.snd) := by
  induction groups generalizing n with
  | nil => simp [sumOcc]
  | cons g groups ih => simp [ih, sumOcc_append, add_assoc]

theorem eventCounts_eq_tally (clock : ℚ) (hours buckets : ℕ) (environment projectId : Option String) (db : Db) :
    eventCounts clock hours buckets environment projectId db =
      Assoc.tally (fun g => g.1.1)
        (fun g => EventCounts.add
          (bucketIndex (windowFrom clock hours) (bucketSeconds hours buckets) buckets g.1.2) (sumOcc g.2))
        ⟨0, List.replicate buckets 0⟩
        ((groupBy (fun row => (row.fingerprint, groupSecond (bucketSeconds hours buckets) row.receivedAt))
          (windowRows clock hours environment projectId db)).filter fun g => !decide (g.1.1 = "")) [] := by
  simp only [eventCounts, select_windowClause, Assoc.tally, List.foldl_filter]
  congr 1
  funext series g
  by_cases hg : g.1.1 = ""
  · simp [hg]
  · simp [hg]

theorem nodup_keys_eventCounts (clock : ℚ) (hours buckets : ℕ) (environment projectId : Option String) (db : Db) :
    (Assoc.keys (eventCounts clock hours buckets environment projectId db)).Nodup := by
  rw [eventCounts_eq_tally]
  exact Assoc.nodup_tally _ _ _ _ List.nodup_nil

theorem mem_keys_eventCounts (clock : ℚ) (hours buckets : ℕ) (environment projectId : Option String) (db : Db)
    (fingerprint : String) :
    fingerprint ∈ Assoc.keys (eventCounts clock hours buckets environment projectId db) ↔
      fingerprint ≠ "" ∧ ∃ row ∈ windowRows clock hours environment projectId db, row.fingerprint = fingerprint := by
  rw [eventCounts_eq_tally, Assoc.mem_keys_tally]
  constructor
  · rintro (hnil | ⟨g, hg, rfl⟩)
    · cases hnil
    · obtain ⟨hg, hne⟩ := List.mem_filter.mp hg
      obtain ⟨row, hrow, hkey⟩ := key_of_mem_groupBy _ hg
      exact ⟨by simpa using hne, row, hrow, congrArg Prod.fst hkey⟩
  · rintro ⟨hne, row, hrow, rfl⟩
    obtain ⟨g, hg, hkey⟩ := mem_groupBy_of_mem
      (fun row => (row.fingerprint, groupSecond (bucketSeconds hours buckets) row.receivedAt)) hrow
    have hfst := congrArg Prod.fst hkey
    exact Or.inr ⟨g, List.mem_filter.mpr ⟨hg, by simpa [hfst] using hne⟩, hfst⟩

theorem eventCounts_entry (clock : ℚ) (hours buckets : ℕ) (environment projectId : Option String) (db : Db)
    {e : String × EventCounts} (he : e ∈ eventCounts clock hours buckets environment projectId db) :
    let rows := rowsOf e.1 (windowRows clock hours environment projectId db)
    e.2 = ⟨sumOcc rows, (List.range buckets).map fun i => sumOcc (rowsIn clock hours buckets i rows)⟩ := by
  have hne := ((mem_keys_eventCounts clock hours buckets environment projectId db e.1).mp
    (List.mem_map_of_mem he)).1
  have hget := Assoc.get?_of_mem (nodup_keys_eventCounts clock hours buckets environment projectId db) he
  have hentry := Assoc.get?_tally (fun g : (String × ℕ) × List ExceptionRow => g.1.1)
    (fun g => EventCounts.add
      (bucketIndex (windowFrom clock hours) (bucketSeconds hours buckets) buckets g.1.2) (sumOcc g.2))
    ⟨0, List.replicate buckets 0⟩
    ((groupBy (fun row => (row.fingerprint, groupSecond (bucketSeconds hours buckets) row.receivedAt))
      (windowRows clock hours environment projectId db)).filter fun g => !decide (g.1.1 = "")) [] e.1
  have hgroups (g : (String × ℕ) × List ExceptionRow) :
      (decide (g.1.1 = e.1) && !decide (g.1.1 = "")) = decide (g.1.1 = e.1) := by
    by_cases hg : g.1.1 = e.1
    · simp [hg, hne]
    · simp [hg]
  rw [← eventCounts_eq_tally, hget, Assoc.get?_nil, Option.getD_some, Option.getD_none,
    List.filter_filter, List.filter_congr fun g _ => hgroups g, foldl_eventAdd (fun key : String × ℕ =>
      bucketIndex (windowFrom clock hours) (bucketSeconds hours buckets) buckets key.2), zero_add] at hentry
  intro rows
  rw [hentry]
  congr 1
  · exact sumOcc_groupBy _ (fun key : String × ℕ => decide (key.1 = e.1)) _
  · apply List.ext_getElem?
    intro i
    rw [List.getElem?_foldl_modify (fun g : (String × ℕ) × List ExceptionRow =>
      bucketIndex (windowFrom clock hours) (bucketSeconds hours buckets) buckets g.1.2)
      (fun g n => n + sumOcc g.2), List.getElem?_map, List.getElem?_replicate]
    split
    · rename_i hi
      rw [List.getElem?_range hi, Option.map_some, Option.map_some, foldl_add_sumOcc, zero_add]
      congr 1
      exact sumOcc_groupBy_filter _ (fun key : String × ℕ => decide (key.1 = e.1))
        (fun key => decide (bucketIndex _ _ _ key.2 = i)) _
    · rename_i hi
      rw [List.getElem?_eq_none (by simpa using hi)]
      rfl

def Slot.count (s : Slot) : ℤ := s.caught + s.uncaught

theorem rowsIn_rowsOf (clock : ℚ) (hours buckets i : ℕ) (fingerprint : String) (rows : List ExceptionRow) :
    rowsIn clock hours buckets i (rowsOf fingerprint rows) = rowsOf fingerprint (rowsIn clock hours buckets i rows) :=
  List.filter_comm _ _ _

theorem slot_count_eq (clock : ℚ) (hours buckets : ℕ) (environment projectId : Option String) (db : Db) {i : ℕ}
    (hi : i < buckets) :
    ((timeseriesSlots clock hours buckets environment projectId db)[i]?.map Slot.count) =
      some (sumOcc (rowsIn clock hours buckets i (windowRows clock hours environment projectId db))) := by
  rw [timeseriesSlots_eq, List.getElem?_map, List.getElem?_range hi, Option.map_some, Option.map_some]
  exact congrArg some (sumOcc_filter_add _ _)

structure ChartsAgree (clock : ℚ) (hours buckets : ℕ) (rows : List ExceptionRow) (slots : List Slot)
    (events : List (String × EventCounts)) : Prop where
  slots_length : slots.length = buckets
  conserved : (slots.map Slot.count).sum = sumOcc rows
  fingerprints : ∀ fingerprint, fingerprint ∈ Assoc.keys events ↔
    fingerprint ≠ "" ∧ ∃ row ∈ rows, row.fingerprint = fingerprint
  events_length : ∀ e ∈ events, e.2.buckets.length = buckets
  totals : ∀ e ∈ events, e.2.total = e.2.buckets.sum
  agree : ∀ i < buckets, slots[i]?.map Slot.count = some
    ((events.map fun e => e.2.buckets.getD i 0).sum + sumOcc (rowsIn clock hours buckets i (rowsOf "" rows)))
  slot_rows : ∀ i < buckets, slots[i]?.map Slot.count = some (sumOcc (rowsIn clock hours buckets i rows))
  event_rows : ∀ e ∈ events, ∀ i < buckets,
    e.2.buckets[i]? = some (sumOcc (rowsIn clock hours buckets i (rowsOf e.1 rows)))
  near : ∀ row ∈ rows, chartBucket clock hours buckets row = bucketOf clock hours buckets row.receivedAt ∨
    chartBucket clock hours buckets row + 1 = bucketOf clock hours buckets row.receivedAt

theorem sum_event_buckets (clock : ℚ) (hours buckets : ℕ) (environment projectId : Option String) (db : Db) {i : ℕ}
    (hi : i < buckets) :
    let rows := windowRows clock hours environment projectId db
    ((eventCounts clock hours buckets environment projectId db).map fun e => e.2.buckets.getD i 0).sum +
        sumOcc (rowsIn clock hours buckets i (rowsOf "" rows)) =
      sumOcc (rowsIn clock hours buckets i rows) := by
  intro rows
  have hentry : ((eventCounts clock hours buckets environment projectId db).map fun e => e.2.buckets.getD i 0) =
      (Assoc.keys (eventCounts clock hours buckets environment projectId db)).map fun fingerprint =>
        sumOcc ((rowsIn clock hours buckets i rows).filter fun row => row.fingerprint = fingerprint) := by
    rw [Assoc.keys, List.map_map]
    apply List.map_congr_left
    intro e he
    rw [eventCounts_entry clock hours buckets environment projectId db he]
    simp only [List.getD_eq_getElem?_getD, List.getElem?_map, List.getElem?_range hi, Option.map_some,
      Option.getD_some, rowsIn_rowsOf, Function.comp_apply]
    rfl
  have hkeys : ((rowsIn clock hours buckets i rows).filter fun row =>
      row.fingerprint ∈ Assoc.keys (eventCounts clock hours buckets environment projectId db)) =
      (rowsIn clock hours buckets i rows).filter fun row => !decide (row.fingerprint = "") := by
    apply List.filter_congr
    intro row hrow
    have hmem : row ∈ rows := (List.mem_filter.mp hrow).1
    have := mem_keys_eventCounts clock hours buckets environment projectId db row.fingerprint
    rw [← decide_not]
    apply decide_eq_decide.mpr
    rw [this]
    exact and_iff_left ⟨row, hmem, rfl⟩
  rw [hentry, sum_sumOcc_filter ExceptionRow.fingerprint
    (nodup_keys_eventCounts clock hours buckets environment projectId db), hkeys, rowsIn_rowsOf, add_comm]
  exact sumOcc_filter_add _ _

/-- Both charts of a window are histograms of the same rows, and none puts a row more than one bucket early. -/
theorem charts_conserve_and_agree (clock : ℚ) (hours : ℕ) {buckets : ℕ} (hb : 0 < buckets)
    (environment projectId : Option String) (db : Db) :
    ChartsAgree clock hours buckets (windowRows clock hours environment projectId db)
      (timeseriesSlots clock hours buckets environment projectId db)
      (eventCounts clock hours buckets environment projectId db) where
  slots_length := by rw [timeseriesSlots_eq, List.length_map, List.length_range]
  conserved := by
    rw [timeseriesSlots_eq, List.map_map, ← sum_sumOcc_rowsIn clock hours hb]
    apply congrArg List.sum
    apply List.map_congr_left
    intro i _
    exact sumOcc_filter_add _ _
  fingerprints := mem_keys_eventCounts clock hours buckets environment projectId db
  events_length := by
    intro e he
    rw [eventCounts_entry clock hours buckets environment projectId db he, List.length_map, List.length_range]
  totals := by
    intro e he
    rw [eventCounts_entry clock hours buckets environment projectId db he]
    exact (sum_sumOcc_rowsIn clock hours hb _).symm
  agree := by
    intro i hi
    rw [sum_event_buckets clock hours buckets environment projectId db hi]
    exact slot_count_eq clock hours buckets environment projectId db hi
  slot_rows := fun i hi => slot_count_eq clock hours buckets environment projectId db hi
  event_rows := by
    intro e he i hi
    rw [eventCounts_entry clock hours buckets environment projectId db he, List.getElem?_map,
      List.getElem?_range hi, Option.map_some]
  near := fun row _ => chartBucket_near clock hours hb row

def earlyStore : Db := { Db.empty with exceptions := Table.empty.insert (countedRow 1700000000 "f1" 1 none none) }

def spreadStore : Db :=
  { Db.empty with
    exceptions := (Table.empty.insertAll [countedRow 1700000000 "f1" 1 none none, countedRow 1700001000 "f2" 3 none none,
      countedRow 1700002500 "f1" 2 none none]).1 }

theorem charts_conserve_and_agree_spread : 0 < 2 ∧
    (eventCounts (3400007201 / 2) 1 2 none none spreadStore).map (fun e => (e.1, e.2.buckets)) =
      [("f1", [1, 2]), ("f2", [3, 0])] ∧
    ChartsAgree (3400007201 / 2) 1 2 (windowRows (3400007201 / 2) 1 none none spreadStore)
      (timeseriesSlots (3400007201 / 2) 1 2 none none spreadStore)
      (eventCounts (3400007201 / 2) 1 2 none none spreadStore) :=
  ⟨by decide, by decide +kernel, charts_conserve_and_agree (3400007201 / 2) 1 (by decide) none none spreadStore⟩

theorem row_before_start_counted : ¬ ∀ (clock : ℚ) (hours buckets : ℕ) (environment projectId : Option String)
    (db : Db), 0 < hours → hours ≤ 2160 → 0 < buckets → buckets ≤ 200 →
      ((timeseriesSlots clock hours buckets environment projectId db).map Slot.count).sum =
        sumOcc (db.exceptions.values.filter fun row => windowFrom clock hours ≤ row.receivedAt ∧
          filtered envClause environment row ∧ inScope projectId row) := by
  intro h
  have hone := h (3400007201 / 2) 1 1 none none earlyStore (by decide) (by decide) (by decide) (by decide)
  revert hone
  decide +kernel

end JvmScout.Storage
