import JvmScout.Dashboard.Events
import JvmScout.Lib.OffsetPages

namespace JvmScout.Dashboard

open OffsetPages Relational Storage

def pageLimit : ℕ := 500

def ttlMs : ℤ := 4000

structure ExcCache where
  stamp : ℤ
  rows : List ExceptionListRow

abbrev PageServer := ℕ → ℕ → List ExceptionListRow × ℕ

def fetchPages (serve : PageServer) (cap request offset : ℕ) (out : List ExceptionListRow) :
    List ExceptionListRow :=
  let res := serve request offset
  if res.1.length < pageLimit ∨ cap ≤ (out ++ res.1).length ∨ res.2 ≤ offset + res.1.length then out ++ res.1
  else fetchPages serve cap (request + 1) (offset + res.1.length) (out ++ res.1)
termination_by cap - out.length
-- a page that is not the last one is full, and the cap is not reached yet
decreasing_by
  rename_i hmore
  simp only [not_or, not_lt, not_le] at hmore
  obtain ⟨hfull, hroom, -⟩ := hmore
  change 500 ≤ res.1.length at hfull
  change cap - (out ++ res.1).length < cap - out.length
  rw [List.length_append] at hroom ⊢
  omega

def fetchAllExceptions (cache : Option ExcCache) (started finished : ℤ) (serve : PageServer) (cap : ℕ) :
    List ExceptionListRow × Option ExcCache :=
  match cache.filter fun c => decide (started - c.stamp < ttlMs) with
  | some c => (c.rows, cache)
  | none => (fetchPages serve cap 0 0 [], some ⟨finished, fetchPages serve cap 0 0 []⟩)

def noFilter : ExceptionFilter := ⟨none, none, none, none, none⟩

def arrive (rows : List ExceptionRow) (db : Db) : Db := { db with exceptions := (db.exceptions.insertAll rows).1 }

def dbAt (db : Db) (arrivals : ℕ → List ExceptionRow) : ℕ → Db
  | 0 => db
  | p + 1 => arrive (arrivals p) (dbAt db arrivals p)

def collector (projectId : Option String) (db : Db) (arrivals : ℕ → List ExceptionRow) : PageServer :=
  fun request offset =>
    let res := listExceptions pageLimit offset noFilter projectId (dbAt db arrivals request)
    (res.1.map readRow, res.2)

def visible (projectId : Option String) (db : Db) : List ExceptionListRow :=
  listed (db.exceptions.select (listClause noFilter projectId)).reverse

def Exact (projectId : Option String) (db : Db) (cap : ℕ) (out : List ExceptionListRow) : Prop :=
  (out.map ExceptionListRow.id).Nodup ∧ ∀ row ∈ (visible projectId db).take cap, row ∈ out

/-- Between the requests that a fetch of the starting rows takes, no row arrives that the caller sees. -/
def Undisturbed (projectId : Option String) (db : Db) (arrivals : ℕ → List ExceptionRow) (cap : ℕ) : Prop :=
  ∀ p, pageLimit * (p + 1) < cap → pageLimit * (p + 1) < (visible projectId db).length →
    ∀ row ∈ arrivals p, listClause noFilter projectId row = false

variable {projectId : Option String} {db : Db} {arrivals : ℕ → List ExceptionRow} {cap : ℕ}

def seen (projectId : Option String) (db : Db) (arrivals : ℕ → List ExceptionRow) (p : ℕ) : List ExceptionListRow :=
  visible projectId (dbAt db arrivals p)

theorem collector_eq (request offset : ℕ) :
    collector projectId db arrivals request offset =
      (((seen projectId db arrivals request).drop offset).take pageLimit, (seen projectId db arrivals request).length) := by
  simp only [collector, listExceptions, seen, visible, listed, List.map_drop, List.map_take, List.map_map,
    List.length_map, List.length_reverse, Table.count]
  rfl

theorem visible_arrive (projectId : Option String) (rows : List ExceptionRow) (db : Db) :
    ∃ new, visible projectId (arrive rows db) = new ++ visible projectId db ∧
      new.length = rows.countP (listClause noFilter projectId) := by
  obtain ⟨added, hrows, hvalues⟩ := db.exceptions.rows_insertAll rows
  refine ⟨listed (added.filter fun r => listClause noFilter projectId r.2).reverse, ?_, ?_⟩
  · simp only [visible, arrive, Table.select, hrows, List.filter_append, List.reverse_append, listed, List.map_append]
  · rw [listed, List.length_map, List.length_reverse, ← hvalues, List.countP_map, List.countP_eq_length_filter]
    rfl

theorem nodup_ids_visible (projectId : Option String) (db : Db) :
    ((visible projectId db).map ExceptionListRow.id).Nodup := by
  have hids : (visible projectId db).map ExceptionListRow.id =
      (((db.exceptions.select (listClause noFilter projectId)).map Prod.fst).map fun k : ℕ => (k : ℤ)).reverse := by
    rw [visible, listed, List.map_map, List.map_map, ← List.map_reverse]
    rfl
  rw [hids, List.nodup_reverse]
  apply List.Nodup.map (fun a b h => Int.ofNat_inj.mp h)
  exact db.exceptions.keys_nodup.sublist (List.filter_sublist.map Prod.fst)

def arrived (projectId : Option String) (arrivals : ℕ → List ExceptionRow) : ℕ → ℕ
  | 0 => 0
  | p + 1 => (arrivals p).countP (listClause noFilter projectId) + arrived projectId arrivals p

theorem grown_seen (projectId : Option String) (db : Db) (arrivals : ℕ → List ExceptionRow) :
    Grown (seen projectId db arrivals) (visible projectId db) (arrived projectId arrivals) := by
  refine ⟨fun p => ?_, fun p => (nodup_ids_visible projectId (dbAt db arrivals p)).of_map _⟩
  induction p with
  | zero => exact ⟨[], rfl, rfl⟩
  | succ p ih =>
    obtain ⟨before, hseen, hbefore⟩ := ih
    obtain ⟨new, harrive, hnew⟩ := visible_arrive projectId (arrivals p) (dbAt db arrivals p)
    refine ⟨new ++ before, ?_, by rw [List.length_append, hnew, hbefore, arrived]⟩
    rw [seen, dbAt, harrive, List.append_assoc, ← hseen]
    rfl

def More (V : ℕ → List ExceptionListRow) (cap p : ℕ) : Prop :=
  pageLimit ≤ (page pageLimit V p).length ∧ pageLimit * (p + 1) < cap ∧ pageLimit * (p + 1) < (V p).length

theorem fetchPages_eq (cap : ℕ) {V : ℕ → List ExceptionListRow} {serve : PageServer}
    (hserve : ∀ request offset, serve request offset = (((V request).drop offset).take pageLimit, (V request).length))
    (p : ℕ) (hlen : (pages pageLimit V p).length = pageLimit * p) :
    ∃ m, p ≤ m ∧ fetchPages serve cap p (pageLimit * p) (pages pageLimit V p) = pages pageLimit V (m + 1) ∧
      (∀ q, p ≤ q → q < m → More V cap q) ∧ ¬ More V cap m := by
  induction hk : cap - pageLimit * p using Nat.strong_induction_on generalizing p with
  | _ k ih =>
    have hpage : (serve p (pageLimit * p)).1 = page pageLimit V p := by
      rw [hserve]
      rfl
    have htotal : (serve p (pageLimit * p)).2 = (V p).length := by
      rw [hserve]
    have hle : (page pageLimit V p).length ≤ pageLimit := length_page_le p
    have hsucc : pageLimit * (p + 1) = pageLimit * p + pageLimit := Nat.mul_succ pageLimit p
    have hnext : (pages pageLimit V (p + 1)).length = pageLimit * p + (page pageLimit V p).length := by
      rw [pages_succ, List.length_append, hlen]
    rw [fetchPages]
    simp only [hpage, htotal, ← pages_succ, hnext]
    by_cases hmore : More V cap p
    · obtain ⟨hfull, hroom, hbelow⟩ := hmore
      have hexact : (page pageLimit V p).length = pageLimit := le_antisymm hle hfull
      rw [if_neg (by omega), hexact, ← hsucc]
      have hlimit : 0 < pageLimit := by decide
      obtain ⟨m, hpm, heq, hbefore, hstop⟩ := ih (cap - pageLimit * (p + 1)) (by omega) (p + 1) (by omega) rfl
      refine ⟨m, by omega, heq, fun q hq hqm => ?_, hstop⟩
      rcases Nat.eq_or_lt_of_le hq with rfl | hq
      · exact ⟨hfull, hroom, hbelow⟩
      · exact hbefore q hq hqm
    · refine ⟨p, le_rfl, ?_, fun q hq hqp => absurd hqp (Nat.not_lt.mpr hq), hmore⟩
      rw [if_pos]
      unfold More at hmore
      omega

theorem fetchAllExceptions_eq {cache : Option ExcCache} {started : ℤ} (finished : ℤ)
    (hstale : cache.filter (fun c => decide (started - c.stamp < ttlMs)) = none) :
    ∃ m, (fetchAllExceptions cache started finished (collector projectId db arrivals) cap).1 =
        pages pageLimit (seen projectId db arrivals) (m + 1) ∧
      (∀ q < m, More (seen projectId db arrivals) cap q) ∧ ¬ More (seen projectId db arrivals) cap m := by
  obtain ⟨m, -, heq, hbefore, hstop⟩ := fetchPages_eq cap collector_eq 0 rfl
  rw [fetchAllExceptions, hstale]
  exact ⟨m, heq, fun q hq => hbefore q (Nat.zero_le q) hq, hstop⟩

theorem arrived_eq_of_undisturbed {p : ℕ}
    (h : ∀ q < p, ∀ row ∈ arrivals q, listClause noFilter projectId row = false) : arrived projectId arrivals p = 0 := by
  induction p with
  | zero => rfl
  | succ p ih =>
    have hnone : (arrivals p).countP (listClause noFilter projectId) = 0 := by
      apply List.countP_eq_zero.mpr
      exact fun row hrow hclause => Bool.false_ne_true ((h p (Nat.lt_succ_self p) row hrow).symm.trans hclause)
    rw [arrived, hnone, ih fun q hq => h q (Nat.lt_succ_of_lt hq)]

theorem seen_eq_of_arrived {p : ℕ} (h : arrived projectId arrivals p = 0) :
    seen projectId db arrivals p = visible projectId db := by
  obtain ⟨new, hseen, hnew⟩ := (grown_seen projectId db arrivals).split p
  rw [hseen, List.length_eq_zero_iff.mp (hnew.trans h), List.nil_append]

theorem exact_of_undisturbed {m : ℕ} (h : Undisturbed projectId db arrivals cap)
    (hbefore : ∀ q < m, More (seen projectId db arrivals) cap q) (hstop : ¬ More (seen projectId db arrivals) cap m) :
    Exact projectId db cap (pages pageLimit (seen projectId db arrivals) (m + 1)) := by
  have hnone (p : ℕ) (hp : p ≤ m) : ∀ q < p, ∀ row ∈ arrivals q, listClause noFilter projectId row = false := by
    induction p with
    | zero => exact fun q hq => absurd hq (Nat.not_lt_zero q)
    | succ p ih =>
      have hearlier := ih (by omega)
      intro q hq
      rcases Nat.eq_or_lt_of_le (Nat.lt_succ_iff.mp hq) with rfl | hq
      · obtain ⟨-, hroom, hbelow⟩ := hbefore q (by omega)
        rw [seen_eq_of_arrived (arrived_eq_of_undisturbed hearlier)] at hbelow
        exact h q hroom hbelow
      · exact hearlier q hq
  have hstill (p : ℕ) (hp : p < m + 1) : seen projectId db arrivals p = visible projectId db :=
    seen_eq_of_arrived (arrived_eq_of_undisturbed (hnone p (Nat.lt_succ_iff.mp hp)))
  rw [pages_of_still hstill]
  constructor
  · exact (nodup_ids_visible projectId db).sublist ((List.take_sublist _ _).map _)
  · intro row hrow
    have hsucc : pageLimit * (m + 1) = pageLimit * m + pageLimit := Nat.mul_succ pageLimit m
    rw [More, length_page, hstill m (Nat.lt_succ_self m)] at hstop
    by_cases hcap : cap ≤ pageLimit * (m + 1)
    · exact List.take_subset_take_left _ hcap hrow
    · rw [List.take_of_length_le (by omega)]
      exact List.mem_of_mem_take hrow

theorem not_exact_of_disturbed {m : ℕ} (h : ¬ Undisturbed projectId db arrivals cap)
    (hstop : ¬ More (seen projectId db arrivals) cap m) :
    ¬ Exact projectId db cap (pages pageLimit (seen projectId db arrivals) (m + 1)) := by
  simp only [Undisturbed, not_forall] at h
  classical
  obtain ⟨hroom, hbelow, row, hrow, hclause⟩ := Nat.find_spec h
  have hfirst := fun q (hq : q < Nat.find h) => Nat.find_min h hq
  generalize Nat.find h = p at hroom hbelow hrow hfirst
  have hearlier (q : ℕ) (hq : q < p) : ∀ row ∈ arrivals q, listClause noFilter projectId row = false := by
    have hle : pageLimit * (q + 1) ≤ pageLimit * (p + 1) := Nat.mul_le_mul_left pageLimit (by omega)
    intro row hrow
    by_contra hclause
    exact hfirst q hq ⟨by omega, by omega, row, hrow, hclause⟩
  have hstill (q : ℕ) (hq : q ≤ p) : arrived projectId arrivals q = 0 :=
    arrived_eq_of_undisturbed fun q' hq' => hearlier q' (by omega)
  have hgrow : 1 ≤ arrived projectId arrivals (p + 1) := by
    have hpos : 0 < (arrivals p).countP (listClause noFilter projectId) :=
      List.countP_pos_iff.mpr ⟨row, hrow, Bool.of_not_eq_false hclause⟩
    rw [arrived]
    omega
  -- the pages up to the disturbed one are those of the start, and the loop goes on after each
  have hfetched : p + 1 ≤ m := by
    by_contra hshort
    have hle : pageLimit * (m + 1) ≤ pageLimit * (p + 1) := Nat.mul_le_mul_left pageLimit (by omega)
    have hsucc : pageLimit * (m + 1) = pageLimit * m + pageLimit := Nat.mul_succ pageLimit m
    apply hstop
    rw [More, length_page, seen_eq_of_arrived (hstill m (by omega))]
    omega
  rintro ⟨hnodup, hall⟩
  apply (grown_seen projectId db arrivals).not_exact (by decide) hfetched hbelow hstill hgrow
  · intro q
    rw [arrived]
    omega
  · refine ⟨hnodup.of_map _, hall _ ?_⟩
    rw [List.mem_take_iff_getElem]
    exact ⟨pageLimit * (p + 1), by omega, rfl⟩

theorem fetch_not_exact {cache : Option ExcCache} {started finished : ℤ}
    (hstale : cache.filter (fun c => decide (started - c.stamp < ttlMs)) = none)
    (h : ¬ Undisturbed projectId db arrivals cap) :
    ¬ Exact projectId db cap
      (fetchAllExceptions cache started finished (collector projectId db arrivals) cap).1 := by
  obtain ⟨m, heq, -, hstop⟩ := fetchAllExceptions_eq finished hstale
  rw [heq]
  exact not_exact_of_disturbed h hstop

/-- A call that asks the collector returns every row of its start once, up to the cap, exactly when
no row that the caller sees arrives between the requests that these rows take. -/
theorem fetch_exact_iff {cache : Option ExcCache} {started finished : ℤ} (projectId : Option String) (db : Db)
    (arrivals : ℕ → List ExceptionRow) (cap : ℕ)
    (hstale : cache.filter (fun c => decide (started - c.stamp < ttlMs)) = none) :
    Exact projectId db cap
        (fetchAllExceptions cache started finished (collector projectId db arrivals) cap).1 ↔
      Undisturbed projectId db arrivals cap := by
  constructor
  · intro hexact
    by_contra h
    exact fetch_not_exact hstale h hexact
  · intro h
    obtain ⟨m, heq, hbefore, hstop⟩ := fetchAllExceptions_eq finished hstale
    rw [heq]
    exact exact_of_undisturbed h hbefore hstop

def stored (n : ℕ) : Db := arrive (List.replicate n (reportRow "f" 1)) .empty

def ownRow (projectId fingerprint : String) : ExceptionRow := countedRow 0 fingerprint 1 none (some projectId)

def foreignThenOwn : ℕ → List ExceptionRow
  | 0 => [ownRow "globex" "g"]
  | 1 => [ownRow "acme" "f"]
  | _ => []

theorem fetch_exact_of_foreign :
    Exact (some "acme") (arrive (List.replicate 501 (ownRow "acme" "f")) .empty) 2000
      (fetchAllExceptions none 0 0 (collector (some "acme")
        (arrive (List.replicate 501 (ownRow "acme" "f")) .empty) foreignThenOwn) 2000).1 := by
  obtain ⟨new, hvisible, hnew⟩ := visible_arrive (some "acme") (List.replicate 501 (ownRow "acme" "f")) .empty
  have hlength : (visible (some "acme") (arrive (List.replicate 501 (ownRow "acme" "f")) .empty)).length = 501 := by
    rw [hvisible, List.length_append, hnew, List.countP_replicate]
    rfl
  apply (fetch_exact_iff (some "acme") _ foreignThenOwn 2000 rfl).mpr
  intro p _ hbelow row hrow
  rw [hlength] at hbelow
  cases p with
  | zero =>
    rw [List.mem_singleton.mp hrow]
    decide
  | succ p =>
    exfalso
    rw [pageLimit] at hbelow
    omega

def oneArrival : ℕ → List ExceptionRow
  | 0 => [reportRow "f" 2]
  | _ => []

theorem fetch_not_exact_after_arrival :
    ¬ Exact none (stored 501) 2000 (fetchAllExceptions none 0 0 (collector none (stored 501) oneArrival) 2000).1 := by
  obtain ⟨new, hvisible, hnew⟩ := visible_arrive none (List.replicate 501 (reportRow "f" 1)) .empty
  have hlength : (visible none (stored 501)).length = 501 := by
    rw [stored, hvisible, List.length_append, hnew, List.countP_replicate]
    rfl
  apply fetch_not_exact rfl
  intro hundisturbed
  have hclause := hundisturbed 0 (by decide) (by rw [hlength]; decide) _ List.mem_cons_self
  cases hclause

end JvmScout.Dashboard
