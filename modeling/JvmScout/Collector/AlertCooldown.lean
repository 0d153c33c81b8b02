import JvmScout.Collector.AlertDebounce

namespace JvmScout.Alerts.Debounce

open Storage Relational Runs

variable {py : Python}

def StampedAfter (t : Option String) (s : Worker) (f : Firing) : Prop :=
  ∃ r ∈ ruleRows t s.db, r.2.entityId = f.ruleId ∧ ∃ n : ℕ,
    Dict.get (configToDict r.2) "last_triggered_at" = .str (Python.isoFormat n) ∧
      f.checkedAt < n + 1 ∧ (n : ℚ) ≤ s.wall

structure History (py : Python) (t : Option String) (db₀ : Db) (s : Worker) : Prop where
  wall : 0 ≤ s.wall
  past : ∀ f ∈ s.delivered, f.checkedAt ≤ s.wall
  begun : ∀ turn, s.stage.turn = some turn → turn.checkedAt ≤ s.wall
  kept : ∀ f ∈ s.delivered, f.projectId = t → StampedAfter t s f ∨
    ∃ turn, s.stage = .recording turn ∧ turn.projectId = t ∧ ruleId py turn.rule = f.ruleId
  clear : ∀ turn, s.stage.turn = some turn → turn.projectId = t → RateBased turn.rule →
    ∀ f ∈ s.delivered, f.projectId = t → f.ruleId = ruleId py turn.rule →
      Spaced py turn.rule f.checkedAt turn.checkedAt
  gaps : ∀ r₀ ∈ ruleRows t db₀, RateBased (configToDict r₀.2) →
    (firedAt t r₀.2.entityId s).Pairwise (Spaced py (configToDict r₀.2))

def ReadsBack (py : Python) (wall : ℚ) : Prop :=
  ∀ n : ℕ, (n : ℚ) ≤ wall → py.parseIso (Python.isoFormat n) = some (n : ℤ)

theorem isoFormat_ne_empty (n : ℕ) : Python.isoFormat n ≠ "" := by
  intro h
  have hlength := congrArg String.length h
  simp [Python.isoFormat] at hlength

theorem firstSeen_of_rateBased {rule : Dict} (h : RateBased rule) : firstSeenTrigger rule = false := by
  rcases h with h | h <;> rw [firstSeenTrigger, h] <;> decide

theorem spaced_of_passes {rule ev : Dict} {clock earlier : ℚ} {n : ℕ} (hrate : RateBased rule)
    (hlast : Dict.get rule "last_triggered_at" = .str (Python.isoFormat n))
    (hparse : py.parseIso (Python.isoFormat n) = some (n : ℤ)) (hearlier : earlier < n + 1)
    (h : passes py clock rule ev = true) : Spaced py rule earlier clock := by
  have hread : parseIso py (.str (Python.isoFormat n)) = some (n : ℤ) := by
    rw [parseIso, if_neg (isoFormat_ne_empty n), hparse]
  simp only [passes, Bool.and_eq_true] at h
  have hdebounced := h.2
  rw [debounced, if_neg (by simp [firstSeen_of_rateBased hrate]), hlast, hread] at hdebounced
  cases hcfg : ruleConfig rule with
  | error e => simp [hcfg, bind, Except.bind] at hdebounced
  | ok cfg =>
    cases hminutes : py.toFloat ((Dict.get cfg "windowMinutes").orElse (.int 0)) with
    | error e => simp [hcfg, hminutes, bind, Except.bind] at hdebounced
    | ok minutes =>
      refine ⟨minutes, by simp [windowMinutes, hcfg, hminutes, bind, Except.bind], ?_⟩
      simp only [hcfg, hminutes, bind, Except.bind, pure, Except.pure, Bool.not_eq_true', decide_eq_false_iff_not,
        not_lt, minRefire, Int.cast_natCast] at hdebounced
      rw [mul_comm]
      linarith

section Steps

variable {backend : Backend} {ttl : ℚ} {t : Option String} {db₀ : Db} {s s' : Worker}

theorem history_start (py : Python) (t : Option String) (db : Db) {wall : ℚ} (hwall : 0 ≤ wall) :
    History py t db (.start db wall) := by
  refine ⟨hwall, fun f hf => ?_, fun turn h => ?_, fun f hf => ?_, fun turn h => ?_, fun r _ _ => ?_⟩
  · cases hf
  · cases h
  · cases hf
  · cases h
  · exact List.Pairwise.nil

theorem StampedAfter.later {f : Firing} {u : Worker} (h : StampedAfter t s f)
    (hrows : ruleRows t u.db = ruleRows t s.db) (hwall : s.wall ≤ u.wall) : StampedAfter t u f := by
  obtain ⟨r, hr, hid, n, hlast, hlater, hn⟩ := h
  refine ⟨r, ?_, hid, n, hlast, hlater, hn.trans hwall⟩
  rw [hrows]
  exact hr

theorem History.idle {u : Worker} (h : History py t db₀ s) (hdelivered : u.delivered = s.delivered)
    (hrows : ruleRows t u.db = ruleRows t s.db) (hwall : s.wall ≤ u.wall)
    (hturn : u.stage.turn = none ∨ u.stage.turn = s.stage.turn)
    (hrecording : ∀ turn, s.stage = .recording turn → u.stage = .recording turn) : History py t db₀ u := by
  have hsome {turn : Turn} (heq : u.stage.turn = some turn) : s.stage.turn = some turn := by
    rcases hturn with hnone | hsame
    · rw [hnone] at heq
      cases heq
    · rw [← hsame, heq]
  refine ⟨h.wall.trans hwall, ?_, ?_, ?_, ?_, ?_⟩
  · rw [hdelivered]
    exact fun f hf => (h.past f hf).trans hwall
  · exact fun turn heq => (h.begun turn (hsome heq)).trans hwall
  · rw [hdelivered]
    intro f hf hp
    rcases h.kept f hf hp with hstamped | ⟨turn, hstage, hrule⟩
    · exact .inl (hstamped.later hrows hwall)
    · exact .inr ⟨turn, hrecording turn hstage, hrule⟩
  · rw [hdelivered]
    exact fun turn heq => h.clear turn (hsome heq)
  · intro r hr hrate
    rw [firedAt, hdelivered]
    exact h.gaps r hr hrate

theorem History.check (hsound : Sound py t db₀ s) (h : History py t db₀ s) (hreads : ReadsBack py s.wall)
    (hs : check py s = some s') : History py t db₀ s' := by
  unfold Debounce.check at hs
  split at hs
  · rename_i ev projectId rule rest hstage
    have hnever (turn : Turn) : s.stage ≠ .recording turn := by
      rw [hstage]
      simp
    split at hs <;> cases hs
    · rename_i hpasses
      refine ⟨h.wall, h.past, fun turn heq => ?_, fun f hf hp => ?_, fun turn heq hp hrate f hf hfp hid => ?_,
        h.gaps⟩
      · cases heq
        exact le_rfl
      · rcases h.kept f hf hp with hstamped | ⟨turn, hrecording, -⟩
        · exact .inl hstamped
        · exact absurd hrecording (hnever turn)
      · cases heq
        rcases h.kept f hf hfp with ⟨r, hr, hrid, n, hlast, hlater, hn⟩ | ⟨turn, hrecording, -⟩
        · have hahead := hsound.ahead
          rw [hstage, Stage.ahead, if_pos hp] at hahead
          obtain ⟨r', hr', hrule⟩ := hahead.2 rule List.mem_cons_self
          -- the row that keeps the stamp of `f` is the row that the rule was read from
          have hrow : r = r' := by
            apply row_unique hsound.ids hr hr'
            rw [hrid, hid, ← hrule, ruleId_configToDict]
          rw [hrow, hrule] at hlast
          exact spaced_of_passes hrate hlast (hreads n hn) hlater hpasses
        · exact absurd hrecording (hnever turn)
    · exact h.idle rfl rfl le_rfl (.inl rfl) fun turn hrecording => absurd hrecording (hnever turn)
  · rename_i hstage
    cases hs
    refine h.idle rfl rfl le_rfl (.inl rfl) fun turn hrecording => ?_
    rw [hstage] at hrecording
    cases hrecording
  · cases hs

theorem Spaced.congr {rule rule' : Dict} {t₁ t₂ : ℚ} (hsame : SameRule rule rule')
    (h : Spaced py rule' t₁ t₂) : Spaced py rule t₁ t₂ := by
  obtain ⟨minutes, hminutes, hgap⟩ := h
  refine ⟨minutes, ?_, hgap⟩
  rw [windowMinutes, ruleConfig, hsame "config" (by decide)]
  exact hminutes

theorem RateBased.congr {rule rule' : Dict} (hsame : SameRule rule rule') (h : RateBased rule) :
    RateBased rule' := by
  rw [RateBased, ← hsame "trigger_type" (by decide)]
  exact h

theorem mem_firedAt {entityId : String} {q : ℚ} (h : q ∈ firedAt t entityId s) :
    ∃ f ∈ s.delivered, f.projectId = t ∧ f.ruleId = entityId ∧ f.checkedAt = q := by
  obtain ⟨f, hf, rfl⟩ := List.mem_map.mp h
  obtain ⟨hmem, hkeep⟩ := List.mem_filter.mp hf
  simp only [Bool.and_eq_true, beq_iff_eq] at hkeep
  exact ⟨f, hmem, hkeep.1, hkeep.2, rfl⟩

theorem gaps_delivered {turn : Turn} (hsound : Sound py t db₀ s) (h : History py t db₀ s)
    (hturn : s.stage.turn = some turn) (hahead : turn.projectId = t → turn.rule ∈ s.stage.ahead t) :
    ∀ r₀ ∈ ruleRows t db₀, RateBased (configToDict r₀.2) →
      (firedAt t r₀.2.entityId { s with delivered := s.delivered ++ [turn.firing py] }).Pairwise
        (Spaced py (configToDict r₀.2)) := by
  intro r₀ hr₀ hrate
  have hold := h.gaps r₀ hr₀ hrate
  rw [firedAt, List.filter_append, List.map_append]
  by_cases hown : turn.projectId = t ∧ ruleId py turn.rule = r₀.2.entityId
  · obtain ⟨hp, hid⟩ := hown
    obtain ⟨r, hr, hrule⟩ := hsound.ahead.2 turn.rule (hahead hp)
    have hrid : r.2.entityId = r₀.2.entityId := by
      rw [← hid, ← hrule, ruleId_configToDict]
    have hsame : SameRule (configToDict r₀.2) turn.rule := by
      rw [← hrule]
      exact hsound.same r hr r₀ hr₀ hrid
    have hnew : (List.filter (fun f => f.projectId == t && f.ruleId == r₀.2.entityId) [turn.firing py]).map
        Firing.checkedAt = [turn.checkedAt] := by
      simp [Turn.firing, hp, hid]
    rw [hnew]
    refine List.pairwise_append.mpr ⟨hold, List.pairwise_singleton _ _, fun q hq q' hq' => ?_⟩
    rw [List.mem_singleton.mp hq']
    obtain ⟨f, hf, hfp, hfid, rfl⟩ := mem_firedAt hq
    exact (h.clear turn hturn hp (hrate.congr hsame) f hf hfp (by rw [hfid, hid])).congr hsame
  · have hnone : List.filter (fun f => f.projectId == t && f.ruleId == r₀.2.entityId) [turn.firing py] = [] := by
      simp only [Turn.firing, List.filter_cons, List.filter_nil]
      rw [if_neg (by simpa using hown)]
    rw [hnone, List.map_nil, List.append_nil]
    exact hold

theorem History.send {net : Network} (hsound : Sound py t db₀ s) (h : History py t db₀ s)
    (hs : send py net s = some s') : History py t db₀ s' := by
  unfold Debounce.send at hs
  split at hs
  · rename_i turn payload hstage
    have hturn : s.stage.turn = some turn := by rw [hstage, Stage.turn]
    split at hs <;> cases hs
    · have hgaps := gaps_delivered hsound h hturn fun hp => by
        rw [hstage, Stage.ahead, if_pos hp]
        exact List.mem_cons_self
      refine ⟨h.wall, fun f hf => ?_, fun turn' heq => ?_, fun f hf hp => ?_, fun turn' heq => ?_, hgaps⟩
      · rcases List.mem_append.mp hf with hf | hf
        · exact h.past f hf
        · rw [List.mem_singleton.mp hf]
          exact h.begun turn hturn
      · cases heq
      · rcases List.mem_append.mp hf with hf | hf
        · rcases h.kept f hf hp with hstamped | ⟨turn', hrecording, -⟩
          · exact .inl hstamped
          · rw [hstage] at hrecording
            cases hrecording
        · rw [List.mem_singleton.mp hf] at hp ⊢
          exact .inr ⟨turn, rfl, hp, rfl⟩
      · cases heq
    · refine h.idle rfl rfl le_rfl (.inl rfl) fun turn' hrecording => ?_
      rw [hstage] at hrecording
      cases hrecording
  · cases hs

theorem History.record (hsound : Sound py t db₀ s) (h : History py t db₀ s)
    (hs : record py s = some s') : History py t db₀ s' := by
  obtain ⟨turn, hstage, rfl, hrows⟩ := record_rows hsound hs
  refine ⟨h.wall, h.past, fun turn' heq => (by cases heq), fun f hf hp => .inl ?_,
    fun turn' heq => (by cases heq), h.gaps⟩
  rcases hrows with ⟨hforeign, hrows⟩ | ⟨hown, hpending, hrows⟩
  · rcases h.kept f hf hp with hstamped | ⟨turn', hrecording, hp', -⟩
    · exact hstamped.later hrows le_rfl
    · rw [hstage] at hrecording
      cases hrecording
      exact absurd hp' hforeign
  · by_cases hid : f.ruleId = ruleId py turn.rule
    · obtain ⟨r, hr, hrule⟩ := hpending.2 turn.rule List.mem_cons_self
      have hrid : r.2.entityId = ruleId py turn.rule := by rw [← hrule, ruleId_configToDict]
      have hfloor : (0 : ℤ) ≤ ⌊s.wall⌋ := Int.floor_nonneg.mpr h.wall
      have hcast : ((⌊s.wall⌋.toNat : ℕ) : ℚ) = ⌊s.wall⌋ := by
        rw [← Int.cast_natCast, Int.toNat_of_nonneg hfloor]
      refine ⟨(r.1, stamp (ruleId py turn.rule) (.str (nowIso s.wall)) r.2), ?_, ?_, ⌊s.wall⌋.toNat, ?_, ?_, ?_⟩
      · rw [hrows]
        exact List.mem_map_of_mem hr
      · rw [stamp_entityId, hrid, hid]
      · rw [stamp, if_pos hrid, configToDict_get _ (by decide) (by decide) (by decide)]
        exact Dict.get_set_self _ _ _
      · rw [hcast]
        exact (h.past f hf).trans_lt (Int.lt_floor_add_one s.wall)
      · rw [hcast]
        exact Int.floor_le s.wall
    · rcases h.kept f hf hp with ⟨r, hr, hrid, hstamp⟩ | ⟨turn', hrecording, -, hid'⟩
      · refine ⟨r, ?_, hrid, hstamp⟩
        rw [hrows]
        refine List.mem_map.mpr ⟨r, hr, ?_⟩
        rw [stamp, if_neg]
        rw [hrid]
        exact hid
      · rw [hstage] at hrecording
        cases hrecording
        exact absurd hid'.symm hid

theorem History.step {l : Label} (hsound : Sound py t db₀ s) (h : History py t db₀ s)
    (hl : RulesStand t s l) (hreads : ReadsBack py s.wall) (hs : step py backend ttl s l = some s') :
    History py t db₀ s' := by
  rcases step_cases hs with ⟨m, w, hw, rfl⟩ | ⟨db, rfl, rfl⟩ | ⟨c, stage, rfl, hturn, hrecording⟩ |
    hcheck | ⟨net, hsend⟩ | hrecord
  · exact h.idle rfl rfl hw (.inr rfl) fun _ heq => heq
  · exact h.idle rfl (hl db rfl) le_rfl (.inr rfl) fun _ heq => heq
  · exact h.idle rfl rfl le_rfl hturn hrecording
  · exact h.check hsound hreads hcheck
  · exact h.send hsound hsend
  · exact h.record hsound hrecord

end Steps

/-- Two deliveries of a rate-based rule whose checks the worker passed are a cool-down apart, less
the second that the stamp drops, and nothing but a delivery changes a stamp. -/
theorem debounce {backend : Backend} {ttl : ℚ} {t : Option String} {db : Db} {wall : ℚ} {labels : List Label}
    {s : Worker} (hids : UniqueIds t db) (hwall : 0 ≤ wall)
    (hr : run (step py backend ttl) (.start db wall) labels = some s)
    (hstand : AllSteps (step py backend ttl) (RulesStand t) (.start db wall) labels)
    (hreads : ReadsBack py s.wall) :
    (∀ r ∈ ruleRows t db, RateBased (configToDict r.2) →
      (firedAt t r.2.entityId s).Pairwise (Spaced py (configToDict r.2))) ∧
    AllSteps (step py backend ttl) (ChangesByDelivery py (step py backend ttl) t) (.start db wall) labels := by
  have hsound := sound_start py hids wall
  constructor
  · -- the stamps are read back at the times of the run only
    have hboth : Sound py t db s ∧ (s.wall ≤ s.wall → History py t db s) := by
      refine run_guarded (I := fun u => Sound py t db u ∧ (u.wall ≤ s.wall → History py t db u))
        (fun u l u' hi hl hs => ⟨hi.1.step hl hs, fun hle => ?_⟩) ⟨hsound, fun _ => history_start py t db hwall⟩
        hstand hr
      have hearlier : u.wall ≤ s.wall := (step_frame hs).2.trans hle
      exact (hi.2 hearlier).step hi.1 hl (fun n hn => hreads n (hn.trans hearlier)) hs
    exact (hboth.2 le_rfl).gaps
  · exact allSteps_of_invariant (fun _ _ _ hi hl hs => hi.step hl hs) (fun _ _ hi hl => hi.changes hl) hsound hstand

def twoDigits (a b : Char) : ℤ := 10 * ((a.toNat : ℤ) - 48) + ((b.toNat : ℤ) - 48)

def firstHour : Python :=
  { Python.literal with
    parseIso := fun s =>
      match s.toList.drop 14 with
      | [a, b, _, c, d, _] =>
        if Python.startsWith "1970-01-01T00:" s then some (60 * twoDigits a b + twoDigits c d) else none
      | _ => none }

def reoccurrenceRule : ConfigEntityRow where
  table := "alert_rules"
  entityId := "r1"
  projectId := none
  createdAt := ""
  jsonData := [("enabled", .bool true), ("trigger_type", .str "event_reoccurs"),
    ("config", .obj [("eventName", .str "Timeout")]), ("channel", .str "webhook"), ("target", .str "https://h")]

def oneRule : Db := { Db.empty with configEntities := Table.empty.insert reoccurrenceRule }

def reached : Network := ⟨fun _ => .ok true, fun _ _ => some 200⟩

def timeout : Label :=
  .begin [("exceptionType", .str "TimeoutError"), ("fingerprint", .str "f1")] none

def evaluated : List Label := [.query, .resume, .check, .condition, .deliver reached, .record, .check]

def threeTimeouts : List Label :=
  (timeout :: evaluated) ++ [.tick 30 30, timeout, .query, .resume, .check, .check, .tick 30 30] ++
    (timeout :: evaluated)

theorem debounce_three_timeouts :
    ∃ s, run (step firstHour .sqlite 5) (.start oneRule (1 / 2)) threeTimeouts = some s ∧
      firedAt none "r1" s = [1 / 2, 121 / 2] ∧
      (firedAt none "r1" s).Pairwise (Spaced firstHour (configToDict reoccurrenceRule)) ∧
      AllSteps (step firstHour .sqlite 5) (ChangesByDelivery firstHour (step firstHour .sqlite 5) none)
        (.start oneRule (1 / 2)) threeTimeouts := by
  have hend : (run (step firstHour .sqlite 5) (.start oneRule (1 / 2)) threeTimeouts).map
      (fun s => (firedAt none "r1" s, s.wall)) = some ([1 / 2, 121 / 2], 121 / 2) := by
    decide +kernel
  obtain ⟨s, hs, heq⟩ := Option.map_eq_some_iff.mp hend
  obtain ⟨hfired, hwall⟩ := Prod.mk.inj heq
  have hstand : AllSteps (step firstHour .sqlite 5) (RulesStand none) (.start oneRule (1 / 2)) threeTimeouts := by
    apply allSteps_of_forall
    intro l hl u db hwrite
    subst hwrite
    simp [threeTimeouts, evaluated, timeout] at hl
  have hreads : ReadsBack firstHour s.wall := by
    intro n hn
    rw [hwall] at hn
    have hsecond : n < 61 := by
      by_contra hlate
      have hcast : (61 : ℚ) ≤ n := by exact_mod_cast Nat.le_of_not_lt hlate
      linarith
    have hall : ∀ m < 61, firstHour.parseIso (Python.isoFormat m) = some (m : ℤ) := by decide +kernel
    exact hall n hsecond
  have hids : UniqueIds none oneRule := by
    unfold UniqueIds
    decide +kernel
  obtain ⟨hgaps, hchanges⟩ := debounce hids (by norm_num) hs hstand hreads
  refine ⟨s, hs, hfired, ?_, hchanges⟩
  exact hgaps (1, reoccurrenceRule) List.mem_cons_self (.inr rfl)

end JvmScout.Alerts.Debounce
