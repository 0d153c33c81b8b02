import JvmScout.Agent.Filters
import JvmScout.Agent.SourceCache
import JvmScout.Collector.Decompiler
import JvmScout.Collector.SourceClassStores
import JvmScout.Wire.Shipments

/-!
Class files from the JVMs that load them to the collector that reads them back: the load hook
and the frames of full captures in any number of processes, and the collector's writes of what
it receives, which may arrive late, twice or never.
-/

namespace JvmScout.Wire.ClassFiles

open Runs Agent Redaction Storage SourceClassStores

/-! ### The process -/

def classFileLoadHook (settings : AgentSettings) (name data : Option Bytes) (cache : SourceCache) : SourceCache :=
  if settings.bci = false ∧ settings.source = false then cache
  else
    match name with
    | none => cache
    | some name => if (locationFilter settings).accept name then cache.store name data else cache

def toSlash (name : Bytes) : Bytes := name.map fun c => if c = UInt8.ofNat '.'.toNat then UInt8.ofNat '/'.toNat else c

def shipClass (cfg : AgentConfig) (fr : StackFrame Bytes) (cache : SourceCache) : Option String × SourceCache :=
  if fr.appCode = false ∨ fr.className = [] then (none, cache)
  else
    let slash := toSlash fr.className
    let (b64, cache) := cache.takeUnshipped slash
    if b64 = [] then (none, cache) else (some (ExceptionHandler.sourceClassText cfg slash b64), cache)

/-! ### The system -/

structure Process where
  settings : AgentSettings
  project : Option String

variable {ι : Type} {py : Python}

structure State (ι : Type) where
  cache : ι → SourceCache
  sent : ι → List String
  collector : Stores

def start (db : Db) : State ι := ⟨fun _ => .empty, fun _ => [], .start db⟩

/-- The collector comes to a text of a process in request `k`, commits what it has found to write
there, or loses it. -/
inductive Label (ι : Type) (py : Python) where
  | load (i : ι) (name data : Option Bytes)
  | frame (i : ι) (fr : StackFrame Bytes)
  | receive (k : ℕ) (i : ι) (rules : CompiledRules py.Pattern) (text : String)
  | commit (k now : ℕ)
  | fail (k : ℕ)

def step [DecidableEq ι] (processes : ι → Process) (s : State ι) : Label ι py → Option (State ι)
  | .load i name data =>
    some { s with cache := Function.update s.cache i (classFileLoadHook (processes i).settings name data (s.cache i)) }
  | .frame i fr =>
    let (text, cache) := shipClass (processes i).settings.toAgentConfig fr (s.cache i)
    some { s with
      cache := Function.update s.cache i cache
      sent := Function.update s.sent i (s.sent i ++ text.toList) }
  | .receive k i rules text =>
    if text ∈ s.sent i then
      match (JsonText.parse text).map (Routes.readItem rules) with
      | some (.ok (.sourceClass (.str className) (.str bytecodeB64))) =>
        (SourceClassStores.storeStep s.collector (.call k ⟨(processes i).project, className, bytecodeB64⟩)).map fun c =>
          { s with collector := c }
      | _ => some s
    else none
  | .commit k now => (SourceClassStores.storeStep s.collector (.commit k now)).map fun c => { s with collector := c }
  | .fail k => some { s with collector := { s.collector with pending := Function.update s.collector.pending k none } }

/-! ### The text of a class file -/

def b64Text (d : Bytes) : String := String.ofList ((base64Encode d).map fun b => Char.ofNat b.toNat)

theorem standardSymbol_ascii :
    ∀ n < 64, 0 < (Base64.standardSymbol n).toNat ∧ (Base64.standardSymbol n).toNat < 0x80 := by
  decide

theorem base64Encode_ascii (d : Bytes) : ∀ b ∈ base64Encode d, 0 < b.toNat ∧ b.toNat < 0x80 := by
  intro b hb
  rw [base64Encode_eq, Base64.encode] at hb
  rcases List.mem_append.mp hb with hdigit | hpad
  · obtain ⟨g, hg, rfl⟩ := List.mem_map.mp hdigit
    exact standardSymbol_ascii _ (Base64.ofBits_lt_of_mem d g hg)
  · rw [List.eq_of_mem_replicate hpad]
    decide

theorem toNat_char {b : UInt8} : (Char.ofNat b.toNat).toNat = b.toNat := by
  have hb := b.toNat_lt
  have hvalid : b.toNat.isValidChar := .inl (by omega)
  rw [Char.ofNat, dif_pos hvalid]
  rfl

theorem b64Text_chars (d : Bytes) : ∀ c ∈ (b64Text d).toList, Utf16.Ascii c := by
  intro c hc
  rw [b64Text, String.toList_ofList] at hc
  obtain ⟨b, hb, rfl⟩ := List.mem_map.mp hc
  unfold Utf16.Ascii
  rw [toNat_char]
  exact base64Encode_ascii d b hb

theorem b64Text_bytes (d : Bytes) : (b64Text d).toList.map (fun c => UInt8.ofNat c.toNat) = base64Encode d := by
  rw [b64Text, String.toList_ofList, List.map_map]
  conv => rhs; rw [← List.map_id (base64Encode d)]
  apply List.map_congr_left
  intro b _
  rw [Function.comp_apply, toNat_char, UInt8.ofNat_toNat, id_eq]

theorem modifiedUtf8_b64Text (d : Bytes) : Utf16.modifiedUtf8 (b64Text d) = base64Encode d := by
  rw [Utf16.modifiedUtf8_ascii (b64Text_chars d), b64Text_bytes]

theorem b64decode_b64Text (d : Bytes) : Decompiler.b64decode (b64Text d) = some d := by
  have hascii : ((b64Text d).toList.all fun c => decide (c.toNat < 128)) = true := by
    rw [List.all_eq_true]
    intro c hc
    exact decide_eq_true (b64Text_chars d c hc).2
  rw [Decompiler.b64decode, if_pos hascii, b64Text_bytes, base64Encode_eq, Decompiler.a2bBase64_encode]

theorem toSlash_text (name : String) :
    toSlash (Utf16.modifiedUtf8 name) = Utf16.modifiedUtf8 (Python.replaceChar '.' '/' name) := by
  have hreplace := Utf16.modifiedUtf8_replace (a := '.') (b := '/') (by decide) (by decide) name
  exact hreplace.symm

/-! ### What holds in every run -/

def Cached (s : State ι) (i : ι) (name d : Bytes) : Prop := Assoc.get? (s.cache i).bytes name = some d

def Genuine (processes : ι → Process) (s : State ι) (p : Option String) (name b : String) : Prop :=
  ∃ i d, ((processes i).project = p ∨ (processes i).project = none) ∧ Cached s i (Utf16.modifiedUtf8 name) d ∧
    b = b64Text d

def LabelOfText : Label ι py → Prop
  | .frame _ fr => OfText fr.className
  | _ => True

structure Sound (processes : ι → Process) (s : State ι) : Prop where
  sent : ∀ i, ∀ text ∈ s.sent i, ∃ instanceId deployment slash d,
    Cached s i (Utf16.modifiedUtf8 slash) d ∧
      JsonText.Reads text (.obj (sourceClassFields instanceId deployment slash (b64Text d)))
  pending : ∀ k c found, s.collector.pending k = some (c, found) →
    Genuine processes s c.projectId c.className c.bytecodeB64 ∧
      ∀ key existing, found = some (key, existing) → Found s.collector.db c key existing
  rows : ∀ r ∈ s.collector.db.sourceClasses.rows, Genuine processes s r.2.projectId r.2.className r.2.bytecodeB64
  kept : ∀ p name b, s.collector.stored (some p) name = some b →
    ∃ r ∈ s.collector.db.sourceClasses.rows, r.2.projectId = some p ∧ r.2.className = name

def Grows (s t : State ι) : Prop := ∀ i name d, Cached s i name d → Cached t i name d

section Steps

variable {processes : ι → Process} {s t : State ι}

theorem Genuine.mono (h : Grows s t) {p : Option String} {name b : String} (hg : Genuine processes s p name b) :
    Genuine processes t p name b := by
  obtain ⟨i, d, hproject, hcached, hb⟩ := hg
  exact ⟨i, d, hproject, h i _ d hcached, hb⟩

theorem get?_store_old {name x d : Bytes} {data : Option Bytes} {cache : SourceCache}
    (h : Assoc.get? cache.bytes x = some d) : Assoc.get? (cache.store name data).bytes x = some d := by
  rcases cache.store_cases name data with hsame | ⟨d', rfl, hnew, -, -, -, hstore⟩
  · rwa [hsame]
  · have hne : name ≠ x := by
      rintro rfl
      rw [hnew] at h
      cases h
    rw [hstore]
    dsimp only
    rw [← Assoc.set_new hnew d', Assoc.get?_set_ne _ _ hne, h]

theorem get?_store_cases {name x d : Bytes} {data : Option Bytes} {cache : SourceCache}
    (h : Assoc.get? (cache.store name data).bytes x = some d) :
    Assoc.get? cache.bytes x = some d ∨ x = name ∧ data = some d := by
  rcases cache.store_cases name data with hsame | ⟨d', rfl, hnew, -, -, -, hstore⟩
  · rw [hsame] at h
    exact .inl h
  · rw [hstore] at h
    dsimp only at h
    rw [← Assoc.set_new hnew d', Assoc.get?_set] at h
    split at h
    · rename_i hx
      exact .inr ⟨hx.symm, h⟩
    · exact .inl h

theorem classFileLoadHook_cases (settings : AgentSettings) (name data : Option Bytes) (cache : SourceCache) :
    classFileLoadHook settings name data cache = cache ∨
      ∃ x, name = some x ∧ (locationFilter settings).accept x = true ∧
        classFileLoadHook settings name data cache = cache.store x data := by
  unfold classFileLoadHook
  split
  · exact .inl rfl
  · cases name with
    | none => exact .inl rfl
    | some x =>
      dsimp only
      split
      · rename_i haccept
        exact .inr ⟨x, rfl, haccept, rfl⟩
      · exact .inl rfl

theorem shipClass_cases (cfg : AgentConfig) (fr : StackFrame Bytes) (cache : SourceCache) :
    (∃ cache', shipClass cfg fr cache = (none, cache') ∧ cache'.bytes = cache.bytes) ∨
      ∃ d cache', Assoc.get? cache.bytes (toSlash fr.className) = some d ∧ cache'.bytes = cache.bytes ∧
        shipClass cfg fr cache =
          (some (ExceptionHandler.sourceClassText cfg (toSlash fr.className) (base64Encode d)), cache') := by
  unfold shipClass
  split
  · exact .inl ⟨cache, rfl, rfl⟩
  · dsimp only
    rcases cache.takeUnshipped_cases (toSlash fr.className) with hnone | ⟨d, hget, -, htake⟩
    · rw [hnone]
      exact .inl ⟨cache, rfl, rfl⟩
    · rw [htake]
      dsimp only
      split
      · exact .inl ⟨_, rfl, rfl⟩
      · exact .inr ⟨d, { cache with shipped := Assoc.set cache.shipped (toSlash fr.className) true }, hget, rfl, rfl⟩

def Shipped (s : State ι) (i : ι) (text : String) : Prop :=
  ∃ instanceId deployment slash d, Cached s i (Utf16.modifiedUtf8 slash) d ∧
    JsonText.Reads text (.obj (sourceClassFields instanceId deployment slash (b64Text d)))

theorem Sound.grow (hs : Sound processes s) (hgrows : Grows s t) (hcollector : t.collector = s.collector)
    (hsent : ∀ i, ∀ text ∈ t.sent i, text ∈ s.sent i ∨ Shipped s i text) : Sound processes t where
  sent i text ht := by
    have hshipped : Shipped s i text := (hsent i text ht).elim (hs.sent i text) id
    obtain ⟨instanceId, deployment, slash, d, hslash, hreads⟩ := hshipped
    exact ⟨instanceId, deployment, slash, d, hgrows i _ d hslash, hreads⟩
  pending k c found hk := by
    rw [hcollector] at hk ⊢
    obtain ⟨hgenuine, hfound⟩ := hs.pending k c found hk
    exact ⟨hgenuine.mono hgrows, hfound⟩
  rows r hr := by
    rw [hcollector] at hr
    exact (hs.rows r hr).mono hgrows
  kept := hcollector ▸ hs.kept

theorem Sound.call (hs : Sound processes s) {k : ℕ} {c : SourceClassStores.StoreCall} {u : Stores}
    (hgenuine : Genuine processes s c.projectId c.className c.bytecodeB64)
    (h : SourceClassStores.storeStep s.collector (.call k c) = some u) :
    Sound processes { s with collector := u } := by
  rcases call_inv h with rfl | rfl
  · exact hs
  · refine ⟨hs.sent, fun j c' found hj => ?_, hs.rows, hs.kept⟩
    dsimp only at hj ⊢
    by_cases hjk : j = k
    · subst hjk
      rw [Function.update_self, Option.some.injEq, Prod.mk.injEq] at hj
      obtain ⟨rfl, rfl⟩ := hj
      exact ⟨hgenuine, fun key existing hfound => find_found hfound⟩
    · rw [Function.update_of_ne hjk] at hj
      exact hs.pending j c' found hj

theorem Sound.commit (hs : Sound processes s) {k now : ℕ} {u : Stores}
    (h : SourceClassStores.storeStep s.collector (.commit k now) = some u) :
    Sound processes { s with collector := u } := by
  obtain ⟨c, found, hk, rfl⟩ := commit_inv h
  obtain ⟨hgenuine, hfound⟩ := hs.pending k c found hk
  refine ⟨hs.sent, fun j c' found' hj => ?_, fun r hr => ?_, fun p name b hb => ?_⟩
  · dsimp only at hj ⊢
    by_cases hjk : j = k
    · subst hjk
      rw [Function.update_self] at hj
      cases hj
    · rw [Function.update_of_ne hjk] at hj
      obtain ⟨hgenuine', hfound'⟩ := hs.pending j c' found' hj
      exact ⟨hgenuine', fun key existing heq => (hfound' key existing heq).write⟩
  · dsimp only at hr
    cases found with
    | none =>
      rcases mem_write_none.mp hr with hold | rfl
      · exact hs.rows r hold
      · exact hgenuine
    | some x =>
      obtain ⟨key, existing⟩ := x
      obtain ⟨row, hrow, heq⟩ := mem_write_some.mp hr
      obtain ⟨⟨row', hrow', hproject, hname⟩, howner, -⟩ := hfound key existing rfl
      rw [heq]
      split
      · rename_i hkey
        rw [hkey] at hrow
        cases s.collector.db.sourceClasses.key_unique hrow hrow'
        unfold SourceClassStores.StoreCall.refresh
        dsimp only
        split
        · exact hs.rows _ hrow
        · obtain ⟨i, d, hi, hcached, hbytes⟩ := hgenuine
          rw [hname]
          refine ⟨i, d, ?_, hcached, hbytes⟩
          rcases howner with hnone | hsame
          · rw [hnone] at hi
            exact .inr (hi.elim id id)
          · rw [hproject, hsame]
            exact hi
      · exact hs.rows _ hrow
  · dsimp only at hb ⊢
    rcases record_cases hb with ⟨hp, rfl, -⟩ | ⟨-, hold⟩
    · cases found with
      | none => exact ⟨_, mem_write_none.mpr (.inr rfl), hp.symm, rfl⟩
      | some x =>
        obtain ⟨key, existing⟩ := x
        obtain ⟨⟨row, hrow, hproject, hname⟩, howner, -⟩ := hfound key existing rfl
        obtain ⟨row', hrow', hproject', hname', -⟩ := mem_write_some_new c now key existing hrow
        refine ⟨(key, row'), hrow', ?_, hname'.trans hname⟩
        rcases howner with hnone | hsame
        · rw [hnone] at hp
          cases hp
        · exact hproject'.trans (hproject.trans (hsame.trans hp.symm))
    · obtain ⟨r, hr, hproject, hname⟩ := hs.kept p name b hold
      cases found with
      | none => exact ⟨r, mem_write_none.mpr (.inl hr), hproject, hname⟩
      | some x =>
        obtain ⟨row', hrow', hproject', hname', -⟩ := mem_write_some_new c now x.1 x.2 hr
        exact ⟨(r.1, row'), hrow', hproject'.trans hproject, hname'.trans hname⟩

theorem Sound.fail (hs : Sound processes s) (k : ℕ) :
    Sound processes
      { s with collector := { s.collector with pending := Function.update s.collector.pending k none } } := by
  refine ⟨hs.sent, fun j c found hj => ?_, hs.rows, hs.kept⟩
  dsimp only at hj ⊢
  by_cases hjk : j = k
  · subst hjk
    rw [Function.update_self] at hj
    cases hj
  · rw [Function.update_of_ne hjk] at hj
    exact hs.pending j c found hj

variable [DecidableEq ι]

theorem cached_update {i : ι} {cache : SourceCache} (hbytes : cache.bytes = (s.cache i).bytes) (j : ι) :
    (Function.update s.cache i cache j).bytes = (s.cache j).bytes := by
  by_cases hj : j = i
  · subst hj
    rw [Function.update_self, hbytes]
  · rw [Function.update_of_ne hj]

theorem shipClass_bytes {cfg : AgentConfig} {fr : StackFrame Bytes} {cache cache' : SourceCache} {text : Option String}
    (h : shipClass cfg fr cache = (text, cache')) : cache'.bytes = cache.bytes := by
  rcases shipClass_cases cfg fr cache with ⟨c, heq, hsame⟩ | ⟨d, c, -, hsame, heq⟩
  · rw [h] at heq
    cases heq
    exact hsame
  · rw [h] at heq
    cases heq
    exact hsame

theorem grows_step {l : Label ι py} (h : step processes s l = some t) : Grows s t := by
  intro j x d hcached
  unfold Cached at hcached ⊢
  cases l with
  | load i name data =>
    cases h
    dsimp only
    by_cases hj : j = i
    · subst hj
      rw [Function.update_self]
      rcases classFileLoadHook_cases (processes j).settings name data (s.cache j) with
        hsame | ⟨y, rfl, -, hstore⟩
      · rwa [hsame]
      · rw [hstore]
        exact get?_store_old hcached
    · rwa [Function.update_of_ne hj]
  | frame i fr =>
    cases h
    dsimp only
    rwa [cached_update (shipClass_bytes rfl)]
  | receive k i rules text =>
    rw [ClassFiles.step] at h
    split at h
    · split at h
      · obtain ⟨u, -, rfl⟩ := Option.map_eq_some_iff.mp h
        exact hcached
      · cases h
        exact hcached
    · cases h
  | commit k now =>
    obtain ⟨u, -, rfl⟩ := Option.map_eq_some_iff.mp h
    exact hcached
  | fail k =>
    cases h
    exact hcached

theorem cached_step_cases {l : Label ι py} (h : step processes s l = some t) {i : ι} {name d : Bytes}
    (hcached : Cached t i name d) : Cached s i name d ∨
      (locationFilter (processes i).settings).accept name = true ∧ l = .load i (some name) (some d) := by
  unfold Cached at hcached ⊢
  cases l with
  | load j name' data =>
    cases h
    dsimp only at hcached
    by_cases hj : i = j
    · subst hj
      rw [Function.update_self] at hcached
      rcases classFileLoadHook_cases (processes i).settings name' data (s.cache i) with
        hsame | ⟨y, rfl, haccept, hstore⟩
      · rw [hsame] at hcached
        exact .inl hcached
      · rw [hstore] at hcached
        rcases get?_store_cases hcached with hold | ⟨rfl, rfl⟩
        · exact .inl hold
        · exact .inr ⟨haccept, rfl⟩
    · rw [Function.update_of_ne hj] at hcached
      exact .inl hcached
  | frame j fr =>
    cases h
    dsimp only at hcached
    rw [cached_update (shipClass_bytes rfl)] at hcached
    exact .inl hcached
  | receive k j rules text =>
    rw [ClassFiles.step] at h
    split at h
    · split at h
      · obtain ⟨u, -, rfl⟩ := Option.map_eq_some_iff.mp h
        exact .inl hcached
      · cases h
        exact .inl hcached
    · cases h
  | commit k now =>
    obtain ⟨u, -, rfl⟩ := Option.map_eq_some_iff.mp h
    exact .inl hcached
  | fail k =>
    cases h
    exact .inl hcached

theorem Sound.frame (hcfg : ∀ i, ConfigOfText (processes i).settings.toAgentConfig) (hs : Sound processes s)
    {i : ι} {fr : StackFrame Bytes} (hfr : OfText fr.className)
    (h : step processes s (.frame i fr : Label ι py) = some t) : Sound processes t := by
  have hgrows : Grows s t := grows_step h
  obtain ⟨text, cache, hship⟩ : ∃ text cache,
      shipClass (processes i).settings.toAgentConfig fr (s.cache i) = (text, cache) := ⟨_, _, rfl⟩
  rw [ClassFiles.step, hship] at h
  cases h
  refine hs.grow hgrows rfl fun j y hy => ?_
  dsimp only at hy
  by_cases hj : j = i
  · subst hj
    rw [Function.update_self] at hy
    rcases List.mem_append.mp hy with hold | hnew
    · exact .inl hold
    · rcases shipClass_cases (processes j).settings.toAgentConfig fr (s.cache j) with
        ⟨c, heq, -⟩ | ⟨d, c, hget, -, heq⟩
      · rw [hship] at heq
        cases heq
        cases hnew
      · rw [hship] at heq
        cases heq
        rw [Option.toList_some, List.mem_singleton] at hnew
        obtain ⟨name, hname⟩ := hfr
        obtain ⟨instanceId, hinstanceId⟩ := (hcfg j).instanceId
        obtain ⟨deployment, hdeployment⟩ := (hcfg j).deployment
        rw [← hname, toSlash_text] at hget hnew
        rw [← modifiedUtf8_b64Text] at hnew
        refine .inr ⟨instanceId, deployment, _, d, hget, ?_⟩
        rw [hnew]
        exact reads_sourceClass hinstanceId hdeployment _ _
  · rw [Function.update_of_ne hj] at hy
    exact .inl hy

theorem readItem_sourceClass (rules : CompiledRules py.Pattern) (instanceId deployment slash b64 : String) :
    Routes.readItem rules (.obj (sourceClassFields instanceId deployment slash b64)) =
      .ok (.sourceClass (.str slash) (.str b64)) := by
  have htext (x : String) : (Json.str x).orElse (.str "") = .str x := by
    unfold Json.orElse
    split
    · rfl
    · rename_i hfalsy
      have hempty : x = "" := by simpa [Json.truthy] using hfalsy
      rw [hempty]
  simp [Routes.readItem, Dict.get, sourceClassFields, Assoc.get?_cons, pure, Except.pure, htext]

theorem Sound.step (hcfg : ∀ i, ConfigOfText (processes i).settings.toAgentConfig) (hs : Sound processes s)
    {l : Label ι py} (htext : LabelOfText l) (h : step processes s l = some t) :
    Sound processes t := by
  cases l with
  | load i name data =>
    have hgrows : Grows s t := grows_step h
    cases h
    exact hs.grow hgrows rfl fun j text ht => .inl ht
  | frame i fr => exact hs.frame hcfg htext h
  | receive k i rules text =>
    rw [ClassFiles.step] at h
    split at h
    · rename_i hsent
      obtain ⟨instanceId, deployment, slash, d, hslash, hreads⟩ := hs.sent i text hsent
      rw [JsonText.parse_of_reads hreads, Option.map_some, readItem_sourceClass] at h
      obtain ⟨u, hu, rfl⟩ := Option.map_eq_some_iff.mp h
      apply hs.call _ hu
      exact ⟨i, d, .inl rfl, hslash, rfl⟩
    · cases h
  | commit k now =>
    obtain ⟨u, hu, rfl⟩ := Option.map_eq_some_iff.mp h
    exact hs.commit hu
  | fail k =>
    cases h
    exact hs.fail k

end Steps

theorem sound_start {processes : ι → Process} {db : Db}
    (hempty : db.sourceClasses.rows = []) : Sound processes (start db) where
  sent _ _ h := by cases h
  pending _ _ _ h := by cases h
  rows r hr := by
    rw [start, Stores.start, hempty] at hr
    cases hr
  kept _ _ _ h := by cases h

/-- The process loads the class file when it has none under the name. -/
def LoadedFirst [DecidableEq ι] (processes : ι → Process) (db : Db) (ls : List (Label ι py)) (i : ι) (name d : Bytes) :
    Prop :=
  ∃ before after t, ls = before ++ .load i (some name) (some d) :: after ∧
    run (step processes) (start db) before = some t ∧ ∀ d', ¬ Cached t i name d'

theorem loadedFirst_of_cached [DecidableEq ι] {processes : ι → Process} {db : Db} {ls : List (Label ι py)}
    {s : State ι} (h : run (step processes) (start db) ls = some s) {i : ι} {name d : Bytes}
    (hcached : Cached s i name d) :
    (locationFilter (processes i).settings).accept name = true ∧ LoadedFirst processes db ls i name d := by
  have hstart : ¬ Cached (start db) i name d := fun hnone => by cases hnone
  obtain ⟨before, l, after, t, u, rfl, hrun, hbefore, hstep, hafter⟩ := run_cause (B := fun s => Cached s i name d) hstart hcached h
  rcases cached_step_cases hstep hafter with hold | ⟨haccept, rfl⟩
  · exact absurd hold hbefore
  · refine ⟨haccept, before, after, t, rfl, hrun, fun d' hd' => hbefore ?_⟩
    have hkept := grows_step hstep i name d' hd'
    unfold Cached at hkept hafter hd' ⊢
    rw [hafter] at hkept
    cases hkept
    exact hd'

/-- What a project reads of a class is the class file that one of its processes, or one of none,
loaded first; and once a process's text was stored, the project reads one. -/
theorem classes_read_as_loaded [DecidableEq ι] {processes : ι → Process} {db : Db} {ls : List (Label ι py)}
    {s : State ι} (hcfg : ∀ i, ConfigOfText (processes i).settings.toAgentConfig) (htext : ∀ l ∈ ls, LabelOfText l)
    (hempty : db.sourceClasses.rows = []) (h : run (step processes) (start db) ls = some s) (p name : String) :
    (∀ b, getSourceClass name (some p) s.collector.db = some b →
      ∃ i d, ((processes i).project = some p ∨ (processes i).project = none) ∧
        (locationFilter (processes i).settings).accept (Utf16.modifiedUtf8 name) = true ∧
        LoadedFirst processes db ls i (Utf16.modifiedUtf8 name) d ∧ Cached s i (Utf16.modifiedUtf8 name) d ∧
        Decompiler.b64decode b = some d) ∧
      ((s.collector.stored (some p) name).isSome → (getSourceClass name (some p) s.collector.db).isSome) := by
  have hs : Sound processes s :=
    run_invariant (fun _ l hl _ hs hstep => hs.step hcfg (htext l hl) hstep) (sound_start hempty) h
  constructor
  · intro b hb
    obtain ⟨r, hr, rfl⟩ := Option.map_eq_some_iff.mp hb
    obtain ⟨hmem, hclause, -⟩ := Relational.Table.head?_select.mp hr
    obtain ⟨hname, hproject⟩ := classClause_iff.mp hclause
    obtain ⟨i, d, hi, hcached, hbytes⟩ := hs.rows r hmem
    rw [hname] at hcached
    rw [hproject.resolve_left (Option.some_ne_none p)] at hi
    obtain ⟨haccept, hload⟩ := loadedFirst_of_cached h hcached
    refine ⟨i, d, hi, haccept, hload, hcached, ?_⟩
    rw [hbytes, b64decode_b64Text]
  · intro hstored
    obtain ⟨b, hb⟩ := Option.isSome_iff_exists.mp hstored
    obtain ⟨r, hr, hproject, hname⟩ := hs.kept p name b hb
    have hmem := Relational.Table.mem_select.mpr ⟨hr, classClause_iff.mpr ⟨hname, .inr hproject⟩⟩
    rw [getSourceClass, Option.isSome_map, List.isSome_head?]
    exact List.ne_nil_of_mem hmem

def demoProcess : Process := ⟨{ defaultSettings with source := true }, some "acme"⟩

def demoFrame : StackFrame Bytes := ⟨0, Utf16.modifiedUtf8 "demo.A", [], -1, [], true, []⟩

def demoText : String :=
  ExceptionHandler.sourceClassText demoProcess.settings.toAgentConfig (Utf16.modifiedUtf8 "demo/A")
    (base64Encode [0xCA, 0xFE])

def demoRun : List (Label Unit Python.literal) :=
  [.load () (some (Utf16.modifiedUtf8 "demo/A")) (some [0xCA, 0xFE]), .frame () demoFrame,
    .receive 7 () ⟨[], []⟩ demoText, .commit 7 1700000000]

theorem demoText_reads :
    JsonText.Reads demoText (.obj (sourceClassFields "" "" "demo/A" (b64Text [0xCA, 0xFE]))) := by
  rw [demoText, ← modifiedUtf8_b64Text]
  exact reads_sourceClass rfl rfl _ _

theorem classes_read_as_loaded_demo :
    ∃ s b, run (step fun _ => demoProcess) (start Db.empty) demoRun = some s ∧
      getSourceClass "demo/A" (some "acme") s.collector.db = some b ∧ Decompiler.b64decode b = some [0xCA, 0xFE] := by
  let cached : SourceCache := ⟨[(Utf16.modifiedUtf8 "demo/A", [0xCA, 0xFE])], [], 2⟩
  let shipped : SourceCache := { cached with shipped := [(Utf16.modifiedUtf8 "demo/A", true)] }
  let call : SourceClassStores.StoreCall := ⟨some "acme", "demo/A", b64Text [0xCA, 0xFE]⟩
  let found : Stores :=
    { Stores.start Db.empty with pending := Function.update (Stores.start Db.empty).pending 7 (some (call, none)) }
  have haccept : (locationFilter demoProcess.settings).accept (Utf16.modifiedUtf8 "demo/A") = true := by decide
  have hload : classFileLoadHook demoProcess.settings (some (Utf16.modifiedUtf8 "demo/A")) (some [0xCA, 0xFE])
      .empty = cached := by
    rw [classFileLoadHook, if_neg (by decide)]
    simp only [haccept, if_true]
    rfl
  have hname : toSlash demoFrame.className = Utf16.modifiedUtf8 "demo/A" := by decide
  have hship : shipClass demoProcess.settings.toAgentConfig demoFrame cached = (some demoText, shipped) := by
    rw [shipClass, if_neg (by decide), hname]
    rfl
  have hcall : SourceClassStores.storeStep (Stores.start Db.empty) (.call 7 call) = some found := by
    have hempty : b64Text [0xCA, 0xFE] ≠ "" := by decide
    simp [SourceClassStores.storeStep, Stores.start, call, found, hempty]
    rfl
  have hunit {α : Type} (f : Unit → α) (v : α) : Function.update f () v = fun _ => v := by
    funext u
    exact Function.update_self () v f
  have hpending : Function.update found.pending 7 none = fun _ => none := by
    funext k
    by_cases hk : k = 7
    · rw [hk, Function.update_self]
    · rw [Function.update_of_ne hk]
      exact Function.update_of_ne hk _ _
  have hrun : run (step fun _ => demoProcess) (start Db.empty) demoRun = some
      ⟨fun _ => shipped, fun _ => [demoText],
        ⟨call.write 1700000000 none Db.empty, fun _ => none, record call fun _ _ => none⟩⟩ := by
    refine run_cons.mpr ⟨⟨fun _ => cached, fun _ => [], .start Db.empty⟩, ?_, ?_⟩
    · rw [step, hunit]
      exact congrArg (fun c => some (State.mk (fun _ => c) (fun _ => []) (.start Db.empty))) hload
    refine run_cons.mpr ⟨⟨fun _ => shipped, fun _ => [demoText], .start Db.empty⟩, ?_, ?_⟩
    · rw [step, hship]
      dsimp only
      rw [hunit, hunit]
      rfl
    refine run_cons.mpr ⟨⟨fun _ => shipped, fun _ => [demoText], found⟩, ?_, run_cons.mpr ⟨_, ?_, run_nil _⟩⟩
    · have hmem : demoText ∈ [demoText] := List.mem_singleton_self _
      rw [step, if_pos hmem, JsonText.parse_of_reads demoText_reads, Option.map_some, readItem_sourceClass]
      exact congrArg (Option.map fun c => State.mk (fun _ : Unit => shipped) (fun _ => [demoText]) c) hcall
    · have hcommit : SourceClassStores.storeStep found (.commit 7 1700000000) =
          some ⟨call.write 1700000000 none Db.empty, fun _ => none, record call fun _ _ => none⟩ := by
        rw [← hpending]
        rfl
      exact congrArg (Option.map fun c => State.mk (fun _ : Unit => shipped) (fun _ => [demoText]) c) hcommit
  have htext : ∀ l ∈ demoRun, LabelOfText l := by
    intro l hl
    simp only [demoRun, List.mem_cons, List.not_mem_nil, or_false] at hl
    rcases hl with rfl | rfl | rfl | rfl
    · trivial
    · exact ⟨"demo.A", rfl⟩
    · trivial
    · trivial
  obtain ⟨hread, hreadable⟩ :=
    classes_read_as_loaded (fun _ => ⟨⟨"", rfl⟩, ⟨"", rfl⟩, ⟨"", rfl⟩⟩) htext rfl hrun "acme" "demo/A"
  obtain ⟨b, hb⟩ := Option.isSome_iff_exists.mp (hreadable rfl)
  obtain ⟨_, d, -, -, -, hcached, hdecode⟩ := hread b hb
  refine ⟨_, b, hrun, hb, ?_⟩
  have hd : Assoc.get? cached.bytes (Utf16.modifiedUtf8 "demo/A") = some d := hcached
  rw [hdecode, ← hd]
  rfl

end JvmScout.Wire.ClassFiles
