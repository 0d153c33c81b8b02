import JvmScout.Lib.Table

namespace Relational

namespace Table

variable {ρ : Type*} {p : ρ → Bool}

theorem agree_insert (t : Table ρ) {v : ρ} (hv : p v = false) : Agree p t (t.insert v) := by
  intro r hr
  have hne : r ≠ (t.nextKey, v) := by
    rintro rfl
    simp [hv] at hr
  simp [hne]

theorem agree_insertAll (t : Table ρ) {vs : List ρ} (hv : ∀ v ∈ vs, p v = false) :
    Agree p t (t.insertAll vs).1 := by
  induction vs generalizing t with
  | nil => exact Agree.refl p t
  | cons v vs ih =>
    exact (t.agree_insert (hv v (by simp))).trans
      (ih (t.insert v) fun w hw => hv w (List.mem_cons_of_mem _ hw))

theorem agree_mapRows (t : Table ρ) {f : ℕ → ρ → ρ}
    (hf : ∀ r ∈ t.rows, f r.1 r.2 = r.2 ∨ (p r.2 = false ∧ p (f r.1 r.2) = false)) :
    Agree p t (t.mapRows f) := by
  rintro ⟨k, v⟩ hv
  simp only [rows_mapRows, List.mem_map, Prod.mk.injEq]
  constructor
  · intro hm
    rcases hf _ hm with hf | ⟨hp, -⟩
    · exact ⟨(k, v), hm, rfl, hf⟩
    · simp [hp] at hv
  · rintro ⟨⟨k', w⟩, hm, rfl, rfl⟩
    rcases hf _ hm with hf | ⟨-, hp⟩
    · simpa only [hf] using hm
    · simp [hp] at hv

theorem agree_mapRows_iff (t : Table ρ) {f : ℕ → ρ → ρ} (hp : ∀ k v, p (f k v) = p v) :
    Agree p t (t.mapRows f) ↔ ∀ r ∈ t.rows, p r.2 = true → f r.1 r.2 = r.2 := by
  constructor
  · rintro h ⟨k, v⟩ hm hv
    have hm' : (k, v) ∈ (t.mapRows f).rows := (h _ hv).mp hm
    simp only [rows_mapRows, List.mem_map, Prod.mk.injEq] at hm'
    obtain ⟨⟨k', w⟩, hw, rfl, rfl⟩ := hm'
    have hfix : w = f k' w := t.key_unique hw hm
    change f k' (f k' w) = f k' w
    rw [← hfix]
    exact hfix.symm
  · intro h
    apply t.agree_mapRows
    intro r hr
    cases hv : p r.2 with
    | true => exact .inl (h r hr hv)
    | false => exact .inr ⟨rfl, by rw [hp, hv]⟩

theorem agree_filterRows (t : Table ρ) {keep : ℕ → ρ → Bool}
    (hk : ∀ r ∈ t.rows, p r.2 = true → keep r.1 r.2 = true) : Agree p t (t.filterRows keep) := by
  intro r hr
  simp only [rows_filterRows, List.mem_filter]
  exact ⟨fun hm => ⟨hm, hk r hm hr⟩, And.left⟩

theorem agree_delete (t : Table ρ) {q : ρ → Bool} (hq : ∀ v, p v = true → q v = false) :
    Agree p t (t.delete q) := by
  apply t.agree_filterRows
  intro r _ hr
  simp [hq r.2 hr]

theorem agree_set (t : Table ρ) {k : ℕ} {v : ρ} (hv : p v = false)
    (hk : ∀ w, (k, w) ∈ t.rows → p w = false) : Agree p t (t.set k v) := by
  apply t.agree_mapRows
  rintro ⟨k', w⟩ hm
  by_cases h : k' = k
  · subst h
    exact .inr ⟨hk w hm, by simpa using hv⟩
  · exact .inl (by simp [h])

theorem agree_erase (t : Table ρ) {k : ℕ} (hk : ∀ w, (k, w) ∈ t.rows → p w = false) :
    Agree p t (t.erase k) := by
  apply t.agree_filterRows
  rintro ⟨k', w⟩ hm hp
  have hne : k' ≠ k := by
    rintro rfl
    simp [hk w hm] at hp
  simpa using hne

theorem rows_split (t : Table ρ) {k : ℕ} {v : ρ} (h : (k, v) ∈ t.rows) :
    ∃ before after, t.rows = before ++ (k, v) :: after ∧ (∀ r ∈ before ++ after, r.1 ≠ k) ∧
      (∀ w, (t.set k w).rows = before ++ (k, w) :: after) ∧ (t.erase k).rows = before ++ after := by
  obtain ⟨before, after, hrows⟩ := List.append_of_mem h
  have ho := t.ordered
  rw [hrows, List.pairwise_append, List.pairwise_cons] at ho
  obtain ⟨-, ⟨hafter, -⟩, hbefore⟩ := ho
  have hne : ∀ r ∈ before ++ after, r.1 ≠ k := by
    intro r hr
    rcases List.mem_append.mp hr with hr | hr
    · exact Nat.ne_of_lt (hbefore r hr (k, v) (by simp))
    · exact (Nat.ne_of_lt (hafter r hr)).symm
  have hkeep (w : ρ) (rs : List (ℕ × ρ)) (hrs : ∀ r ∈ rs, r.1 ≠ k) :
      rs.map (fun r => (r.1, if r.1 = k then w else r.2)) = rs := by
    conv_rhs => rw [← List.map_id rs]
    apply List.map_congr_left
    intro r hr
    simp [hrs r hr]
  have hstay (rs : List (ℕ × ρ)) (hrs : ∀ r ∈ rs, r.1 ≠ k) : rs.filter (fun r => r.1 != k) = rs := by
    rw [List.filter_eq_self]
    intro r hr
    simpa using hrs r hr
  have hb : ∀ r ∈ before, r.1 ≠ k := fun r hr => hne r (List.mem_append_left _ hr)
  have ha : ∀ r ∈ after, r.1 ≠ k := fun r hr => hne r (List.mem_append_right _ hr)
  refine ⟨before, after, hrows, hne, fun w => ?_, ?_⟩
  · simp only [set, rows_mapRows, hrows, List.map_append, List.map_cons, if_true, hkeep w before hb,
      hkeep w after ha]
  · simp [erase, hrows, hstay before hb, hstay after ha]

theorem mem_set (t : Table ρ) {k : ℕ} {v : ρ} {r : ℕ × ρ} :
    r ∈ (t.set k v).rows ↔ ∃ w, (r.1, w) ∈ t.rows ∧ r.2 = if r.1 = k then v else w := by
  simp only [set, rows_mapRows, List.mem_map]
  constructor
  · rintro ⟨⟨k', w⟩, hw, rfl⟩
    exact ⟨w, hw, rfl⟩
  · rintro ⟨w, hw, hr⟩
    exact ⟨(r.1, w), hw, Prod.ext rfl hr.symm⟩

theorem select_set (t : Table ρ) {k : ℕ} {v : ρ} (hv : p v = true) (hk : ∀ w, (k, w) ∈ t.rows → p w = true) :
    (t.set k v).select p = (t.select p).map fun r => (r.1, if r.1 = k then v else r.2) := by
  rw [select, set, rows_mapRows, List.filter_map, select]
  congr 1
  apply List.filter_congr
  rintro ⟨k', w⟩ hm
  rw [Function.comp_apply]
  dsimp only
  split
  · rename_i heq
    subst heq
    rw [hv, hk w hm]
  · rfl

theorem mem_update (t : Table ρ) {f : ρ → ρ} {r : ℕ × ρ} :
    r ∈ (t.update p f).rows ↔ ∃ w, (r.1, w) ∈ t.rows ∧ r.2 = if p w then f w else w := by
  simp only [update, rows_mapRows, List.mem_map]
  constructor
  · rintro ⟨⟨k, w⟩, hw, rfl⟩
    exact ⟨w, hw, rfl⟩
  · rintro ⟨w, hw, hr⟩
    exact ⟨(r.1, w), hw, Prod.ext rfl hr.symm⟩

theorem mem_erase (t : Table ρ) {k : ℕ} {r : ℕ × ρ} : r ∈ (t.erase k).rows ↔ r ∈ t.rows ∧ r.1 ≠ k := by
  simp [erase]

theorem values_insertAll (t : Table ρ) (vs : List ρ) : (t.insertAll vs).1.values = t.values ++ vs := by
  induction vs generalizing t with
  | nil => simp [insertAll]
  | cons v vs ih =>
    rw [insertAll, ih]
    simp [values]

theorem nextKey_insert (t : Table ρ) (v : ρ) : (t.insert v).nextKey = t.nextKey + 1 := by
  rw [nextKey, rows_insert, List.getLast?_concat]
  rfl

theorem nextKey_le_insertAll (t : Table ρ) (vs : List ρ) :
    ∃ added : List (ℕ × ρ), (t.insertAll vs).1.rows = t.rows ++ added ∧ added.map Prod.snd = vs ∧
      ∀ r ∈ added, t.nextKey ≤ r.1 := by
  induction vs generalizing t with
  | nil => exact ⟨[], (List.append_nil t.rows).symm, rfl, fun r hr => absurd hr List.not_mem_nil⟩
  | cons v vs ih =>
    obtain ⟨added, hrows, hvalues, hkeys⟩ := ih (t.insert v)
    refine ⟨(t.nextKey, v) :: added, ?_, by rw [List.map_cons, hvalues], fun r hr => ?_⟩
    · rw [insertAll, hrows, rows_insert, List.append_assoc, List.singleton_append]
    · rcases List.mem_cons.mp hr with rfl | hr
      · exact Nat.le_refl _
      · have hkey := hkeys r hr
        rw [nextKey_insert] at hkey
        omega

theorem rows_insertAll (t : Table ρ) (vs : List ρ) :
    ∃ added : List (ℕ × ρ), (t.insertAll vs).1.rows = t.rows ++ added ∧ added.map Prod.snd = vs := by
  obtain ⟨added, hrows, hvalues, -⟩ := t.nextKey_le_insertAll vs
  exact ⟨added, hrows, hvalues⟩

theorem length_insertAll (t : Table ρ) (vs : List ρ) : (t.insertAll vs).2.length = vs.length := by
  induction vs generalizing t with
  | nil => rfl
  | cons v vs ih => rw [insertAll, List.length_cons, List.length_cons, ih]

def added (t u : Table ρ) : List ρ := (u.rows.filter fun r => decide (t.nextKey ≤ r.1)).map Prod.snd

theorem added_self (t : Table ρ) : t.added t = [] := by
  rw [added, List.map_eq_nil_iff, List.filter_eq_nil_iff]
  intro r hr
  have hkey := t.lt_nextKey hr
  simpa using hkey

theorem added_insertAll (t : Table ρ) (vs : List ρ) : t.added (t.insertAll vs).1 = vs := by
  obtain ⟨rows, hrows, hvalues, hkeys⟩ := t.nextKey_le_insertAll vs
  have hnew : rows.filter (fun r => decide (t.nextKey ≤ r.1)) = rows := by
    rw [List.filter_eq_self]
    intro r hr
    exact decide_eq_true (hkeys r hr)
  have hold : t.rows.filter (fun r => decide (t.nextKey ≤ r.1)) = [] := List.map_eq_nil_iff.mp t.added_self
  rw [added, hrows, List.filter_append, hold, hnew, List.nil_append, hvalues]

theorem count_eq_countP (t : Table ρ) : t.count p = t.values.countP p := by
  rw [count, select, values, List.countP_map, List.countP_eq_length_filter]
  rfl

theorem count_insertAll (t : Table ρ) (vs : List ρ) :
    (t.insertAll vs).1.count p = t.count p + vs.countP p := by
  rw [count_eq_countP, count_eq_countP, values_insertAll, List.countP_append]

end Table

structure UniqueTable (ρ : Type*) {κ : Type*} (column : ρ → κ) extends Table ρ where
  unique : (rows.map fun r => column r.2).Nodup

namespace UniqueTable

variable {ρ κ : Type*} {column : ρ → κ}

def empty : UniqueTable ρ column := ⟨Table.empty, List.nodup_nil⟩

def insert (t : UniqueTable ρ column) (v : ρ) (fresh : ∀ r ∈ t.rows, column r.2 ≠ column v) :
    UniqueTable ρ column :=
  ⟨t.toTable.insert v, by
    rw [Table.rows_insert, List.map_append, List.nodup_append]
    refine ⟨t.unique, by simp, ?_⟩
    simp only [List.mem_map, List.map_cons, List.map_nil, List.mem_singleton]
    rintro _ ⟨r, hr, rfl⟩ _ rfl
    exact fresh r hr⟩

def update (t : UniqueTable ρ column) (q : ρ → Bool) (f : ρ → ρ)
    (hf : ∀ v, column (f v) = column v) : UniqueTable ρ column :=
  ⟨t.toTable.update q f, by
    have h : ((t.toTable.update q f).rows.map fun r => column r.2) = t.rows.map fun r => column r.2 := by
      simp only [Table.update, Table.rows_mapRows, List.map_map]
      apply List.map_congr_left
      intro r _
      simp only [Function.comp_apply]
      split
      · exact hf r.2
      · rfl
    rw [h]
    exact t.unique⟩

def delete (t : UniqueTable ρ column) (q : ρ → Bool) : UniqueTable ρ column :=
  ⟨t.toTable.delete q, t.unique.sublist (List.filter_sublist.map _)⟩

theorem column_unique (t : UniqueTable ρ column) {r r' : ℕ × ρ} (hr : r ∈ t.rows) (hr' : r' ∈ t.rows)
    (h : column r.2 = column r'.2) : r = r' :=
  List.inj_on_of_nodup_map t.unique hr hr' h

def lookup [DecidableEq κ] (t : UniqueTable ρ column) (c : κ) : Option (ℕ × ρ) :=
  t.rows.find? fun r => column r.2 == c

theorem lookup_eq_some [DecidableEq κ] (t : UniqueTable ρ column) {c : κ} {r : ℕ × ρ} :
    t.lookup c = some r ↔ r ∈ t.rows ∧ column r.2 = c := by
  constructor
  · intro h
    exact ⟨List.mem_of_find?_eq_some h, by simpa using List.find?_some h⟩
  · rintro ⟨hr, hc⟩
    cases hf : t.lookup c with
    | none => simpa [hc] using List.find?_eq_none.mp hf r hr
    | some r' =>
      have hr' : r' ∈ t.rows := List.mem_of_find?_eq_some hf
      have hc' : column r'.2 = c := by simpa using List.find?_some hf
      rw [t.column_unique hr hr' (hc.trans hc'.symm)]

theorem lookup_filter [DecidableEq κ] {t u : UniqueTable ρ column} {p : ρ → Bool}
    (h : Table.Agree p t.toTable u.toTable) (c : κ) :
    (t.lookup c).filter (fun r => p r.2) = (u.lookup c).filter fun r => p r.2 := by
  apply Option.ext
  intro r
  simp only [Option.filter_eq_some_iff, lookup_eq_some]
  constructor
  · rintro ⟨⟨hr, hc⟩, hp⟩
    exact ⟨⟨(h r hp).mp hr, hc⟩, hp⟩
  · rintro ⟨⟨hr, hc⟩, hp⟩
    exact ⟨⟨(h r hp).mpr hr, hc⟩, hp⟩

end UniqueTable

end Relational
