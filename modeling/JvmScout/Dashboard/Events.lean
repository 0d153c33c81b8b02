import JvmScout.Collector.Charts
import JvmScout.Lib.Utf16

namespace JvmScout.Dashboard

open Storage

structure ExceptionListRow where
  id : ℤ
  receivedAt : String
  timestamp : Option String
  fingerprint : String
  hitCount : ℤ
  deploymentId : Option String
  exceptionType : Option String
  caught : Option Bool
  className : Option String
  methodName : Option String
  lineNumber : Option ℤ

def textOf : Json → Option String
  | .str s => some s
  | _ => none

def intOf : Json → Option ℤ
  | .int n => some n
  | _ => none

def boolOf : Json → Option Bool
  | .bool b => some b
  | _ => none

def readRow (d : Dict) : ExceptionListRow where
  id := (intOf (Dict.get d "id")).getD 0
  receivedAt := (textOf (Dict.get d "received_at")).getD ""
  timestamp := textOf (Dict.get d "timestamp")
  fingerprint := (textOf (Dict.get d "fingerprint")).getD ""
  hitCount := (intOf (Dict.get d "hit_count")).getD 0
  deploymentId := textOf (Dict.get d "deployment_id")
  exceptionType := textOf (Dict.get d "exception_type")
  caught := boolOf (Dict.get d "caught")
  className := textOf (Dict.get d "class_name")
  methodName := textOf (Dict.get d "method_name")
  lineNumber := intOf (Dict.get d "line_number")

inductive EventType where
  | uncaughtException
  | caughtException
  | loggedError
  | loggedWarning
  | httpError
deriving DecidableEq

inductive Severity where
  | critical
  | error
  | warning
  | info
deriving DecidableEq

inductive Status where
  | active
  | resolved
  | hidden
deriving DecidableEq

structure EventRow where
  id : String
  type : EventType
  name : String
  location : String
  firstSeen : Option String
  lastSeen : Option String
  status : Status
  severity : Severity
  hitCount : ℤ
  applicationId : String
  introducedByDeploymentId : Option String
deriving DecidableEq

def unknownApp : String := "unknown"

def criticalName (s : String) : Bool :=
  decide ("Error".toList <:+ s.toList) || decide ("OutOfMemory".toList <:+: s.toList) ||
    decide ("StackOverflow".toList <:+: s.toList)

def severityFor (row : ExceptionListRow) : Severity :=
  if row.caught = some false then
    if criticalName (row.exceptionType.getD "") then .critical else .error
  else .warning

def locationFor (row : ExceptionListRow) : String :=
  let line := row.lineNumber.elim "" fun n => if n = 0 then "" else ":" ++ toString n
  row.className.getD "?" ++ "." ++ row.methodName.getD "?" ++ line

def tsOf (row : ExceptionListRow) : String := row.timestamp.getD row.receivedAt

def textLe (a b : String) : Bool :=
  !List.lex (Utf16.encode b.toList) (Utf16.encode a.toList) fun x y => decide (x < y)

def idKey (id : ℤ) : String := "id:" ++ toString id

def eventKey (row : ExceptionListRow) : String := if row.fingerprint = "" then idKey row.id else row.fingerprint

def groupRows (rows : List ExceptionListRow) : List (String × List ExceptionListRow) :=
  Assoc.tally eventKey (fun row group => group ++ [row]) [] rows []

def eventOf (fp : String) : List ExceptionListRow → Option EventRow
  | [] => none
  | rep :: rest =>
    let times := ((rep :: rest).map tsOf).mergeSort textLe
    some
      { id := fp
        type := if rep.caught = some false then .uncaughtException else .caughtException
        name := rep.exceptionType.getD "java.lang.Throwable"
        location := locationFor rep
        firstSeen := times.head?
        lastSeen := times.getLast?
        status := .active
        severity := severityFor rep
        hitCount := (rep :: rest).foldl (fun sum row => sum + orOne row.hitCount) 0
        applicationId := rep.deploymentId.getD unknownApp
        introducedByDeploymentId := none }

def deriveEvents (rows : List ExceptionListRow) : List EventRow :=
  (groupRows rows).filterMap fun g => eventOf g.1 g.2

def listed (rows : List (ℕ × ExceptionRow)) : List ExceptionListRow := rows.map fun r => readRow (exceptionColumns r)

def CountsThrows (rows : List (ℕ × ExceptionRow)) : Prop :=
  ∀ fp, fp ≠ "" → (∃ r ∈ rows, r.2.fingerprint = fp) →
    ∃ e ∈ deriveEvents (listed rows), e.id = fp ∧ e.hitCount = sumOcc (rowsOf fp (rows.map Prod.snd))

def surplus (fp : String) (r : ℕ × ExceptionRow) : ℤ :=
  if r.2.fingerprint = fp then orOne r.2.hitCount - occ r.2
  else if r.2.fingerprint = "" ∧ idKey r.1 = fp then orOne r.2.hitCount
  else 0

theorem foldl_push (rows group : List ExceptionListRow) :
    rows.foldl (fun group row => group ++ [row]) group = group ++ rows := by
  induction rows generalizing group with
  | nil => simp
  | cons row rows ih => rw [List.foldl_cons, ih, List.append_assoc, List.singleton_append]

theorem mem_groupRows {rows : List ExceptionListRow} {g : String × List ExceptionListRow} (hg : g ∈ groupRows rows) :
    g.2 = rows.filter fun row => eventKey row = g.1 := by
  have hnodup : (Assoc.keys (groupRows rows)).Nodup := Assoc.nodup_tally _ _ _ _ List.nodup_nil
  have hget := Assoc.get?_of_mem hnodup hg
  have hgroup := Assoc.get?_tally eventKey (fun row group => group ++ [row]) [] rows [] g.1
  rw [← groupRows, hget, foldl_push] at hgroup
  exact hgroup

theorem key_mem_groupRows {rows : List ExceptionListRow} {row : ExceptionListRow} (hr : row ∈ rows) :
    (eventKey row, rows.filter fun row' => eventKey row' = eventKey row) ∈ groupRows rows := by
  have hkey : eventKey row ∈ Assoc.keys (groupRows rows) :=
    (Assoc.mem_keys_tally _ _ _ _ _ _).mpr (.inr ⟨row, hr, rfl⟩)
  obtain ⟨g, hg, heq⟩ := List.mem_map.mp hkey
  rw [← heq, ← mem_groupRows hg]
  exact hg

theorem foldl_hitCount (rows : List ExceptionListRow) (n : ℤ) :
    rows.foldl (fun sum row => sum + orOne row.hitCount) n = n + (rows.map fun row => orOne row.hitCount).sum := by
  induction rows generalizing n with
  | nil => simp
  | cons row rows ih => rw [List.foldl_cons, ih, List.map_cons, List.sum_cons, Int.add_assoc]

theorem eventOf_eq {fp : String} {group : List ExceptionListRow} {e : EventRow} (h : eventOf fp group = some e) :
    e.id = fp ∧ e.hitCount = (group.map fun row => orOne row.hitCount).sum := by
  cases group with
  | nil => cases h
  | cons rep rest =>
    cases h
    refine ⟨rfl, ?_⟩
    exact (foldl_hitCount (rep :: rest) 0).trans (Int.zero_add _)

theorem mem_deriveEvents {rows : List ExceptionListRow} {e : EventRow} (he : e ∈ deriveEvents rows) :
    e.hitCount = ((rows.filter fun row => eventKey row = e.id).map fun row => orOne row.hitCount).sum := by
  obtain ⟨g, hg, hevent⟩ := List.mem_filterMap.mp he
  obtain ⟨hid, hcount⟩ := eventOf_eq hevent
  rw [hcount, mem_groupRows hg, hid]

theorem exists_event {rows : List ExceptionListRow} {row : ExceptionListRow} (hr : row ∈ rows) :
    ∃ e ∈ deriveEvents rows, e.id = eventKey row := by
  have hgroup := key_mem_groupRows hr
  obtain ⟨rep, rest, heq⟩ : ∃ rep rest,
      (rows.filter fun row' => eventKey row' = eventKey row) = rep :: rest := by
    apply List.exists_cons_of_ne_nil
    apply List.ne_nil_of_mem (a := row)
    exact List.mem_filter.mpr ⟨hr, decide_eq_true rfl⟩
  rw [heq] at hgroup
  have hevent : (eventOf (eventKey row) (rep :: rest)).isSome = true := rfl
  obtain ⟨e, he⟩ := Option.isSome_iff_exists.mp hevent
  exact ⟨e, List.mem_filterMap.mpr ⟨_, hgroup, he⟩, (eventOf_eq he).1⟩

theorem eventKey_listed (r : ℕ × ExceptionRow) :
    eventKey (readRow (exceptionColumns r)) = if r.2.fingerprint = "" then idKey r.1 else r.2.fingerprint := rfl

theorem hitCount_listed (r : ℕ × ExceptionRow) : (readRow (exceptionColumns r)).hitCount = r.2.hitCount := rfl

theorem sum_surplus {fp : String} (hfp : fp ≠ "") (rows : List (ℕ × ExceptionRow)) :
    (((listed rows).filter fun row => eventKey row = fp).map fun row => orOne row.hitCount).sum =
      sumOcc (rowsOf fp (rows.map Prod.snd)) + (rows.map (surplus fp)).sum := by
  induction rows with
  | nil => rfl
  | cons r rows ih =>
    simp only [listed, rowsOf, sumOcc, List.map_cons, List.filter_cons, List.sum_cons, eventKey_listed] at ih ⊢
    by_cases hsame : r.2.fingerprint = fp
    · simp only [hsame, if_neg hfp, decide_true, if_true, List.map_cons, List.sum_cons, hitCount_listed, surplus, ih]
      omega
    · by_cases hempty : r.2.fingerprint = ""
      · by_cases hid : idKey r.1 = fp
        · simp only [hempty, hid, hfp.symm, decide_true, decide_false, if_true, if_false, and_self,
            Bool.false_eq_true, List.map_cons, List.sum_cons, hitCount_listed, surplus, ih]
          omega
        · simp only [hempty, hid, hfp.symm, decide_false, if_true, if_false, and_false, Bool.false_eq_true, surplus, ih]
          omega
      · simp only [hempty, hsame, decide_false, if_false, false_and, Bool.false_eq_true, surplus, ih]
        omega

theorem countsThrows_iff_surplus (rows : List (ℕ × ExceptionRow)) :
    CountsThrows rows ↔
      ∀ fp, fp ≠ "" → (∃ r ∈ rows, r.2.fingerprint = fp) → (rows.map (surplus fp)).sum = 0 := by
  constructor
  · intro h fp hfp hrow
    obtain ⟨e, he, rfl, hcount⟩ := h fp hfp hrow
    have hsum := sum_surplus hfp rows
    rw [← mem_deriveEvents he, hcount] at hsum
    omega
  · rintro h fp hfp ⟨r, hr, hsame⟩
    have hkey : eventKey (readRow (exceptionColumns r)) = fp := by
      rw [eventKey_listed, hsame, if_neg hfp]
    have hmem : readRow (exceptionColumns r) ∈ listed rows := List.mem_map_of_mem hr
    obtain ⟨e, he, hid⟩ := exists_event hmem
    rw [hkey] at hid
    subst hid
    have hsum := sum_surplus hfp rows
    rw [← mem_deriveEvents he, h _ hfp ⟨r, hr, hsame⟩] at hsum
    exact ⟨e, he, rfl, by omega⟩

theorem sum_eq_zero_iff {ι : Type} (f : ι → ℤ) (xs : List ι) (h : ∀ x ∈ xs, 0 ≤ f x) :
    0 ≤ (xs.map f).sum ∧ ((xs.map f).sum = 0 ↔ ∀ x ∈ xs, f x = 0) := by
  induction xs with
  | nil => simp
  | cons x xs ih =>
    obtain ⟨hpos, hzero⟩ := ih fun y hy => h y (List.mem_cons_of_mem x hy)
    have hx := h x List.mem_cons_self
    rw [List.map_cons, List.sum_cons, List.forall_mem_cons, ← hzero]
    omega

def CoversOwnThrows (row : ExceptionRow) : Prop := 1 ≤ occ row ∧ occ row ≤ row.hitCount

theorem surplus_covered {fp : String} {r : ℕ × ExceptionRow} (h : CoversOwnThrows r.2) :
    0 ≤ surplus fp r ∧
      (surplus fp r = 0 ↔
        (r.2.fingerprint = fp → r.2.hitCount = occ r.2) ∧
          (r.2.fingerprint ≠ fp → r.2.fingerprint = "" → idKey r.1 ≠ fp)) := by
  obtain ⟨hone, hcovers⟩ := h
  have hcount : orOne r.2.hitCount = r.2.hitCount := if_neg (by omega)
  unfold surplus
  rw [hcount]
  by_cases hsame : r.2.fingerprint = fp
  · rw [if_pos hsame]
    refine ⟨by omega, fun h => ⟨fun _ => by omega, fun hne => absurd hsame hne⟩, fun h => ?_⟩
    have heq := h.1 hsame
    omega
  · rw [if_neg hsame]
    by_cases hid : r.2.fingerprint = "" ∧ idKey r.1 = fp
    · rw [if_pos hid]
      refine ⟨by omega, fun h => by omega, fun h => ?_⟩
      exact absurd hid.2 (h.2 hsame hid.1)
    · rw [if_neg hid]
      refine ⟨le_rfl, fun _ => ⟨fun h => absurd h hsame, fun _ hempty heq => hid ⟨hempty, heq⟩⟩, fun _ => rfl⟩

/-- The counts are the throws exactly when no fingerprint has a surplus; for rows as agents
report them, whose counters cover their own throws, when every counter is the row's own throws. -/
theorem countsThrows_iff (rows : List (ℕ × ExceptionRow)) :
    (CountsThrows rows ↔
      ∀ fp, fp ≠ "" → (∃ r ∈ rows, r.2.fingerprint = fp) → (rows.map (surplus fp)).sum = 0) ∧
    ((∀ r ∈ rows, CoversOwnThrows r.2) →
      (CountsThrows rows ↔
        ∀ r ∈ rows, r.2.fingerprint ≠ "" → r.2.hitCount = occ r.2 ∧
          ∀ r' ∈ rows, r'.2.fingerprint = "" → idKey r'.1 ≠ r.2.fingerprint)) := by
  refine ⟨countsThrows_iff_surplus rows, fun hcovers => ?_⟩
  have hsum (fp : String) := (sum_eq_zero_iff (surplus fp) rows fun r hr => (surplus_covered (hcovers r hr)).1).2
  rw [countsThrows_iff_surplus]
  constructor
  · intro h r hr hfp
    have hzero := (hsum r.2.fingerprint).mp (h _ hfp ⟨r, hr, rfl⟩)
    refine ⟨((surplus_covered (hcovers r hr)).2.mp (hzero r hr)).1 rfl, fun r' hr' hempty => ?_⟩
    apply ((surplus_covered (hcovers r' hr')).2.mp (hzero r' hr')).2 _ hempty
    exact fun h => hfp (h.symm.trans hempty)
  · rintro h fp hfp ⟨r, hr, rfl⟩
    apply (hsum _).mpr
    intro r' hr'
    apply (surplus_covered (hcovers r' hr')).2.mpr
    constructor
    · intro hsame
      exact (h r' hr' (by rw [hsame]; exact hfp)).1
    · exact fun _ hempty => (h r hr hfp).2 r' hr' hempty

def reportRow (fingerprint : String) (hitCount : ℤ) : ExceptionRow :=
  { countedRow 0 fingerprint 1 none none with hitCount := hitCount }

theorem countsThrows_two_fingerprints : CountsThrows [(2, reportRow "f" 1), (1, reportRow "g" 1)] := by
  have hrow : ∀ r ∈ [(2, reportRow "f" 1), (1, reportRow "g" 1)],
      r.2.fingerprint ≠ "" ∧ r.2.hitCount = 1 ∧ occ r.2 = 1 := by
    decide
  apply ((countsThrows_iff _).2 fun r hr => ?_).mpr
  · intro r hr _
    obtain ⟨-, hcount, hocc⟩ := hrow r hr
    exact ⟨hcount.trans hocc.symm, fun r' hr' hempty => absurd hempty (hrow r' hr').1⟩
  · obtain ⟨-, hcount, hocc⟩ := hrow r hr
    rw [CoversOwnThrows, hcount, hocc]
    omega

theorem two_throws_counted_three :
    ¬ CountsThrows [(2, reportRow "f" 2), (1, reportRow "f" 1)] ∧
      (deriveEvents (listed [(2, reportRow "f" 2), (1, reportRow "f" 1)])).map (fun e => (e.id, e.hitCount)) = [("f", 3)] := by
  constructor
  · intro h
    have hzero := (countsThrows_iff_surplus _).mp h "f" (by decide) ⟨_, List.mem_cons_self, rfl⟩
    revert hzero
    decide
  · decide

end JvmScout.Dashboard
