import JvmScout.Collector.Security
import JvmScout.Lib.Traverse

namespace JvmScout.Security

open Storage Traverse

def Readable (h : HashKey) : Prop := ∃ s, h = .text s ∧ isAscii s = true

def Reaches (c : String) : TokenMap → Prop
  | [] => False
  | (h, _) :: rest => h = .text c ∨ (Readable h ∧ Reaches c rest)

def lastEntry (h : HashKey) : TokenMap → Option TokenEntry
  | [] => none
  | (h', e) :: rest => (lastEntry h rest).or (if h' = h then some e else none)

theorem compareDigest_ok {c : String} (hc : isAscii c = true) {h : HashKey} {b : Bool} :
    compareDigest c h = .ok b ↔ Readable h ∧ (b = true ↔ h = .text c) := by
  cases h with
  | text s =>
    by_cases hs : isAscii s = true
    · have hread : Readable (.text s) := ⟨s, rfl, hs⟩
      simp only [compareDigest, hc, hs, Bool.and_self, if_true, Except.ok.injEq, hread, true_and,
        HashKey.text.injEq]
      by_cases hcs : c = s <;> cases b <;> simp [hcs, Ne.symm]
    · have hread : ¬ Readable (.text s) := by
        rintro ⟨_, ⟨⟩, h⟩
        exact hs h
      simp [compareDigest, hs, hread]
  | number q => simp [compareDigest, Readable]
  | none => simp [compareDigest, Readable]

theorem findToken_iff {c : String} (hc : isAscii c = true) {d : TokenMap} {e : TokenEntry} :
    findToken c d = .ok (some e) ↔ Reaches c d ∧ Assoc.get? d (.text c) = some e := by
  induction d with
  | nil => simp [findToken, Reaches]
  | cons x rest ih =>
    obtain ⟨h, e'⟩ := x
    simp only [findToken, bind_eq_ok, compareDigest_ok hc, Assoc.get?_cons, Reaches]
    by_cases hh : h = .text c
    · subst hh
      have hread : Readable (.text c) := ⟨c, rfl, hc⟩
      simp only [hread, true_and, iff_true, true_or, if_true, Option.some.injEq]
      constructor
      · rintro ⟨b, rfl, hb⟩
        cases hb
        rfl
      · rintro rfl
        exact ⟨true, rfl, rfl⟩
    · simp only [hh, iff_false, Bool.not_eq_true, false_or, if_false]
      constructor
      · rintro ⟨b, ⟨hread, rfl⟩, hfind⟩
        obtain ⟨hreach, hget⟩ := ih.mp hfind
        exact ⟨⟨hread, hreach⟩, hget⟩
      · rintro ⟨⟨hread, hreach⟩, hget⟩
        exact ⟨false, ⟨hread, rfl⟩, ih.mpr ⟨hreach, hget⟩⟩

theorem reaches_append_skip {c : String} {h : HashKey} {e : TokenEntry} (hread : Readable h)
    (hne : h ≠ .text c) (xs ys : TokenMap) :
    Reaches c (xs ++ (h, e) :: ys) ↔ Reaches c (xs ++ ys) := by
  induction xs with
  | nil => simp [Reaches, hread, hne]
  | cons x xs ih => simp [Reaches, ih]

theorem reaches_set {c : String} (h : HashKey) (e : TokenEntry)
    (d rest : TokenMap) :
    Reaches c (Assoc.set d h e ++ rest) ↔ Reaches c (d ++ (h, e) :: rest) := by
  induction d with
  | nil => rfl
  | cons x d ih =>
    obtain ⟨h', e'⟩ := x
    unfold Assoc.set
    dsimp only
    split
    · rename_i heq
      subst heq
      simp only [List.cons_append, Reaches]
      by_cases hh : h' = .text c
      · simp [hh]
      · by_cases hread : Readable h'
        · simp [hh, hread, reaches_append_skip hread hh]
        · simp [hh, hread]
    · simp only [List.cons_append, Reaches, ih]

theorem reaches_foldl {c : String} (entries d : TokenMap) :
    Reaches c (entries.foldl (fun d e => Assoc.set d e.1 e.2) d) ↔ Reaches c (d ++ entries) := by
  induction entries generalizing d with
  | nil => simp
  | cons x entries ih =>
    rw [List.foldl_cons, ih, reaches_set]

theorem get?_foldl (h : HashKey) (entries d : TokenMap) :
    Assoc.get? (entries.foldl (fun d e => Assoc.set d e.1 e.2) d) h =
      (lastEntry h entries).or (Assoc.get? d h) := by
  induction entries generalizing d with
  | nil => simp [lastEntry]
  | cons x entries ih =>
    obtain ⟨h', e⟩ := x
    rw [List.foldl_cons, ih, Assoc.get?_set, lastEntry]
    cases lastEntry h entries with
    | some e' => simp
    | none => by_cases hh : h' = h <;> simp [hh]

theorem findToken_toMap {c : String} (hc : isAscii c = true) {entries : TokenMap} {e : TokenEntry} :
    findToken c (toMap entries) = .ok (some e) ↔
      Reaches c entries ∧ lastEntry (.text c) entries = some e := by
  rw [findToken_iff hc, toMap, reaches_foldl, get?_foldl]
  simp

def Loads (rows : List (ℕ × ConfigEntityRow)) : Prop := ∀ r ∈ rows, ∃ o, readToken r = .ok o

def tokenEntries (rows : List (ℕ × ConfigEntityRow)) : TokenMap :=
  rows.filterMap fun r => (readToken r).toOption.join

theorem loadTokens_iff {rows : List (ℕ × ConfigEntityRow)} {d : TokenMap} :
    loadTokens rows = .ok d ↔ Loads rows ∧ d = toMap (tokenEntries rows) := by
  have entries_eq {rows : List (ℕ × ConfigEntityRow)} {os : List (Option (HashKey × TokenEntry))}
      (h : List.Forall₂ (fun r o => readToken r = .ok o) rows os) :
      Loads rows ∧ os.filterMap id = tokenEntries rows := by
    induction h with
    | nil => exact ⟨by simp [Loads], rfl⟩
    | cons hr _ ih =>
      obtain ⟨hload, heq⟩ := ih
      refine ⟨?_, ?_⟩
      · rintro r (_ | ⟨_, hmem⟩)
        · exact ⟨_, hr⟩
        · exact hload r hmem
      · simp only [tokenEntries, List.filterMap_cons, hr, Except.toOption, Option.join_some] at heq ⊢
        rw [heq]
        rfl
  simp only [loadTokens, bind_eq_ok, except_mapM, pure_eq_ok]
  constructor
  · rintro ⟨os, hos, rfl⟩
    obtain ⟨hload, heq⟩ := entries_eq hos
    exact ⟨hload, by rw [heq]⟩
  · rintro ⟨hload, rfl⟩
    have hos : ∃ os, List.Forall₂ (fun r o => readToken r = .ok o) rows os := by
      clear entries_eq
      induction rows with
      | nil => exact ⟨[], .nil⟩
      | cons r rows ih =>
        obtain ⟨o, ho⟩ := hload r (by simp)
        obtain ⟨os, hos⟩ := ih fun r' hr' => hload r' (List.mem_cons_of_mem _ hr')
        exact ⟨o :: os, .cons ho hos⟩
    obtain ⟨os, hos⟩ := hos
    exact ⟨os, hos, by rw [(entries_eq hos).2]⟩

theorem readToken_entry {r : ℕ × ConfigEntityRow} {h : HashKey} {e : TokenEntry}
    (hr : readToken r = .ok (some (h, e))) :
    e.source = r.1 ∧ e.projectId = tokenProject (configToDict r.2) := by
  simp only [readToken] at hr
  split at hr
  · simp only [bind_eq_ok, pure_eq_ok, Option.some.injEq, Prod.mk.injEq] at hr
    obtain ⟨_, -, _, -, -, rfl⟩ := hr
    exact ⟨rfl, rfl⟩
  · cases hr

theorem tokenClause_iff {row : ConfigEntityRow} : tokenClause row = true ↔ row.table = "api_tokens" := by
  simp [tokenClause, configClause]

theorem mem_tokenEntries {rows : List (ℕ × ConfigEntityRow)} {x : HashKey × TokenEntry} :
    x ∈ tokenEntries rows ↔ ∃ r ∈ rows, readToken r = .ok (some x) := by
  simp only [tokenEntries, List.mem_filterMap]
  constructor
  · rintro ⟨r, hr, hx⟩
    refine ⟨r, hr, ?_⟩
    cases ho : readToken r with
    | error e => simp [ho, Except.toOption] at hx
    | ok o => simpa [ho, Except.toOption] using hx
  · rintro ⟨r, hr, hx⟩
    exact ⟨r, hr, by simp [hx, Except.toOption]⟩

theorem lastEntry_mem {h : HashKey} {entries : TokenMap} {e : TokenEntry}
    (he : lastEntry h entries = some e) : (h, e) ∈ entries := by
  induction entries with
  | nil => cases he
  | cons x entries ih =>
    obtain ⟨h', e'⟩ := x
    rw [lastEntry] at he
    cases hl : lastEntry h entries with
    | some e'' =>
      rw [hl, Option.some_or] at he
      exact List.mem_cons_of_mem _ (ih (hl.trans he))
    | none =>
      rw [hl, Option.none_or] at he
      split at he
      · rename_i hh
        cases he
        rw [hh]
        exact List.mem_cons_self
      · cases he

def lookupToken (db : Db) (provided : String) : Except PyError (Option TokenEntry) :=
  loadTokens (tokenRows db) >>= findToken (hashToken provided)

theorem lookupToken_iff {db : Db} {provided : String} {e : TokenEntry} :
    lookupToken db provided = .ok (some e) ↔
      Loads (tokenRows db) ∧ Reaches (hashToken provided) (tokenEntries (tokenRows db)) ∧
        lastEntry (.text (hashToken provided)) (tokenEntries (tokenRows db)) = some e := by
  simp only [lookupToken, bind_eq_ok, loadTokens_iff]
  constructor
  · rintro ⟨d, ⟨hload, rfl⟩, hfind⟩
    exact ⟨hload, (findToken_toMap (isAscii_hashToken provided)).mp hfind⟩
  · rintro ⟨hload, hfind⟩
    exact ⟨_, ⟨hload, rfl⟩, (findToken_toMap (isAscii_hashToken provided)).mpr hfind⟩

theorem resolvePrincipal_iff {apiKey provided : String} {db : Db} {who : Principal} :
    resolvePrincipal apiKey provided (loadTokens (tokenRows db)) = .ok (some who) ↔
      provided ≠ "" ∧
        ((compareDigest provided (.text apiKey) = .ok true ∧ who = ⟨none, defaultRole, true, .str "master"⟩) ∨
          (compareDigest provided (.text apiKey) = .ok false ∧
            ∃ e, lookupToken db provided = .ok (some e) ∧ who = e.principal)) := by
  unfold resolvePrincipal
  by_cases hp : provided = ""
  · simp [hp, pure_eq_ok]
  · simp only [hp, if_false, ne_eq, not_false_eq_true, true_and, bind_eq_ok]
    constructor
    · rintro ⟨b, hb, hr⟩
      cases b with
      | true =>
        simp only [if_true, pure_eq_ok, Option.some.injEq] at hr
        exact .inl ⟨hb, hr.symm⟩
      | false =>
        simp only [Bool.false_eq_true, if_false, bind_eq_ok, pure_eq_ok, Option.map_eq_some_iff] at hr
        obtain ⟨d, hd, found, hfound, e, rfl, rfl⟩ := hr
        exact .inr ⟨hb, e, by simp only [lookupToken, hd, bind, Except.bind, hfound], rfl⟩
    · rintro (⟨hb, rfl⟩ | ⟨hb, e, he, rfl⟩)
      · exact ⟨true, hb, rfl⟩
      · simp only [lookupToken, bind_eq_ok] at he
        obtain ⟨d, hd, hfind⟩ := he
        refine ⟨false, hb, ?_⟩
        simp only [Bool.false_eq_true, if_false, bind_eq_ok]
        exact ⟨d, hd, some e, hfind, rfl⟩

end JvmScout.Security
