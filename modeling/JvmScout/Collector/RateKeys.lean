import JvmScout.Collector.RateLimiter
import JvmScout.Collector.TokenCache

namespace JvmScout.Security

open Storage Routes RateLimiter

structure Peer where
  host : Option String
  plain : Python.startsWith "token:" (host.getD "unknown") = false

structure IngestRequest where
  provided : String
  peer : Peer
  time : ℚ

def clientKey (peer : Peer) : String := peer.host.getD "unknown"

def rateKey (py : Python) (peer : Peer) (who : Principal) : String :=
  if who.tokenId.truthy then "token:" ++ py.str who.tokenId else clientKey peer

structure ActiveToken (apiKey : String) (active : TokenMap) where
  raw : String
  entry : TokenEntry
  found : authenticatedBy apiKey raw active = some entry

section Requests

variable (py : Python) (apiKey : String) (active : TokenMap)

def ingestPrincipal (provided : String) : Option Principal :=
  (resolvePrincipal apiKey provided (.ok active)).toOption.join.filter Principal.canIngest

def bucket (request : IngestRequest) : Option String :=
  (ingestPrincipal apiKey active request.provided).map (rateKey py request.peer)

def limit (request : IngestRequest) (rl : RateLimiter) : Option Bool × RateLimiter :=
  match bucket py apiKey active request with
  | none => (none, rl)
  | some key => (some (rl.allow key request.time).1, (rl.allow key request.time).2)

def verdicts : List IngestRequest → RateLimiter → List (String × Option Bool)
  | [], _ => []
  | request :: requests, rl =>
    (request.provided, (limit py apiKey active request rl).1) ::
      verdicts requests (limit py apiKey active request rl).2

def verdictsOf (raw : String) (requests : List IngestRequest) (rl : RateLimiter) : List (Option Bool) :=
  ((verdicts py apiKey active requests rl).filter fun v => v.1 = raw).map Prod.snd

def Independent (perMinute : ℤ) (start : ℚ) (p q : String) : Prop :=
  ∀ requests : List IngestRequest, (requests.Pairwise fun a b => a.time ≤ b.time) →
    verdictsOf py apiKey active p requests (.new perMinute start) =
      verdictsOf py apiKey active p (requests.filter fun r => r.provided ≠ q) (.new perMinute start)

end Requests

def SeparateKeys (py : Python) (a b : TokenEntry) : Prop :=
  (a.tokenPrefix.truthy = true ∨ b.tokenPrefix.truthy = true) ∧
    (a.tokenPrefix.truthy = true → b.tokenPrefix.truthy = true → py.str a.tokenPrefix ≠ py.str b.tokenPrefix)

variable {py : Python} {apiKey : String} {active : TokenMap} {perMinute : ℤ}

@[simp] theorem TokenEntry.tokenId_principal (e : TokenEntry) : e.principal.tokenId = e.tokenPrefix := by
  unfold principal
  split <;> rfl

theorem ActiveToken.bucket_eq (p : ActiveToken apiKey active) {request : IngestRequest}
    (hp : request.provided = p.raw) :
    bucket py apiKey active request =
      if p.entry.principal.canIngest = true then some (rateKey py request.peer p.entry.principal) else none := by
  rw [bucket, ingestPrincipal, hp, resolvePrincipal_of_loaded p.found]
  simp only [Except.toOption, Option.join_some, Option.filter_some]
  split <;> rfl

theorem limit_none {request : IngestRequest} (h : bucket py apiKey active request = none) (rl : RateLimiter) :
    limit py apiKey active request rl = (none, rl) := by
  rw [limit, h]

theorem limit_some {request : IngestRequest} {key : String} (h : bucket py apiKey active request = some key)
    (rl : RateLimiter) :
    limit py apiKey active request rl = (some (rl.allow key request.time).1, (rl.allow key request.time).2) := by
  rw [limit, h]

theorem verdictsOf_cons (raw : String) (request : IngestRequest) (requests : List IngestRequest)
    (rl : RateLimiter) :
    verdictsOf py apiKey active raw (request :: requests) rl =
      (if request.provided = raw then [(limit py apiKey active request rl).1] else []) ++
        verdictsOf py apiKey active raw requests (limit py apiKey active request rl).2 := by
  rw [verdictsOf, verdicts, List.filter_cons]
  by_cases hraw : request.provided = raw
  · simp [hraw, verdictsOf]
  · simp [hraw, verdictsOf]

structure AgreeOff (K : String → Prop) (perMinute : ℤ) (now : ℚ) (log log' : List Verdict)
    (rl rl' : RateLimiter) : Prop where
  limit : rl.perMinute = perMinute
  limit' : rl'.perMinute = perMinute
  tracks : Tracks log now rl
  tracks' : Tracks log' now rl'
  same : ∀ c, ¬ K c → accepted c log = accepted c log'

namespace AgreeOff

variable {K : String → Prop} {now : ℚ} {log log' : List Verdict} {rl rl' : RateLimiter}

theorem later (h : AgreeOff K perMinute now log log' rl rl') {now' : ℚ} (hle : now ≤ now') :
    AgreeOff K perMinute now' log log' rl rl' :=
  ⟨h.limit, h.limit', h.tracks.later hle, h.tracks'.later hle, h.same⟩

theorem allow_left (h : AgreeOff K perMinute now log log' rl rl') (hper : 1 ≤ perMinute) {key : String}
    (hkey : K key) :
    AgreeOff K perMinute now (log ++ [⟨key, now, (rl.allow key now).1⟩]) log' (rl.allow key now).2 rl' := by
  obtain ⟨-, hlimit, htracks⟩ := allow_follows hper key now log rl h.limit h.tracks
  refine ⟨hlimit, h.limit', htracks, h.tracks', fun c hc => ?_⟩
  have hne : ¬ (key = c ∧ (rl.allow key now).1 = true) := by
    rintro ⟨rfl, -⟩
    exact hc hkey
  rw [accepted_concat, if_neg hne, List.append_nil]
  exact h.same c hc

theorem verdict_eq (h : AgreeOff K perMinute now log log' rl rl') (hper : 1 ≤ perMinute) {key : String}
    (hkey : ¬ K key) : (rl.allow key now).1 = (rl'.allow key now).1 := by
  rw [(allow_follows hper key now log rl h.limit h.tracks).1,
    (allow_follows hper key now log' rl' h.limit' h.tracks').1, recent_eq, recent_eq, h.same key hkey]

theorem allow_both (h : AgreeOff K perMinute now log log' rl rl') (hper : 1 ≤ perMinute) (key : String) :
    AgreeOff K perMinute now (log ++ [⟨key, now, (rl.allow key now).1⟩])
      (log' ++ [⟨key, now, (rl'.allow key now).1⟩]) (rl.allow key now).2 (rl'.allow key now).2 := by
  obtain ⟨-, hlimit, htracks⟩ := allow_follows hper key now log rl h.limit h.tracks
  obtain ⟨-, hlimit', htracks'⟩ := allow_follows hper key now log' rl' h.limit' h.tracks'
  refine ⟨hlimit, hlimit', htracks, htracks', fun c hc => ?_⟩
  rw [accepted_concat, accepted_concat, h.same c hc]
  by_cases hcase : key = c
  · subst hcase
    rw [h.verdict_eq hper hc]
  · simp [hcase]

end AgreeOff

theorem verdictsOf_agree {K : String → Prop} (hper : 1 ≤ perMinute) {p q : String} (hpq : p ≠ q)
    (requests : List IngestRequest) (hsorted : requests.Pairwise fun a b => a.time ≤ b.time)
    (hp : ∀ r ∈ requests, r.provided = p → ∀ key, bucket py apiKey active r = some key → ¬ K key)
    (hq : ∀ r ∈ requests, r.provided = q → ∀ key, bucket py apiKey active r = some key → K key)
    {now : ℚ} (hnow : ∀ r ∈ requests, now ≤ r.time) {log log' : List Verdict} {rl rl' : RateLimiter}
    (h : AgreeOff K perMinute now log log' rl rl') :
    verdictsOf py apiKey active p requests rl =
      verdictsOf py apiKey active p (requests.filter fun r => r.provided ≠ q) rl' := by
  induction requests generalizing now log log' rl rl' with
  | nil => rfl
  | cons r requests ih =>
    have hhead : r ∈ r :: requests := List.mem_cons_self
    have hfirst : AgreeOff K perMinute r.time log log' rl rl' := h.later (hnow r hhead)
    have hrest {log log' : List Verdict} {rl rl' : RateLimiter}
        (hnext : AgreeOff K perMinute r.time log log' rl rl') :
        verdictsOf py apiKey active p requests rl =
          verdictsOf py apiKey active p (requests.filter fun r => r.provided ≠ q) rl' := by
      apply ih (List.pairwise_cons.mp hsorted).2 _ _ _ hnext
      · exact fun r' hr' => hp r' (List.mem_cons_of_mem r hr')
      · exact fun r' hr' => hq r' (List.mem_cons_of_mem r hr')
      · exact (List.pairwise_cons.mp hsorted).1
    rw [verdictsOf_cons]
    by_cases hrq : r.provided = q
    · have hrp : r.provided ≠ p := fun heq => hpq (heq.symm.trans hrq)
      rw [if_neg hrp, List.filter_cons_of_neg (by simpa using hrq), List.nil_append]
      cases hb : bucket py apiKey active r with
      | none =>
        rw [limit_none hb]
        exact hrest hfirst
      | some key =>
        rw [limit_some hb]
        exact hrest (hfirst.allow_left hper (hq r hhead hrq key hb))
    · rw [List.filter_cons_of_pos (by simpa using hrq), verdictsOf_cons]
      cases hb : bucket py apiKey active r with
      | none => rw [limit_none hb, limit_none hb, hrest hfirst]
      | some key =>
        rw [limit_some hb, limit_some hb, hrest (hfirst.allow_both hper key)]
        split
        · rename_i hrp
          rw [hfirst.verdict_eq hper (hp r hhead hrp key hb)]
        · rfl

theorem verdictsOf_unlimited {p q : String} (hpq : p ≠ q) (requests : List IngestRequest) (rl rl' : RateLimiter)
    (hrl : rl.perMinute ≤ 0) (hrl' : rl'.perMinute ≤ 0) :
    verdictsOf py apiKey active p requests rl =
      verdictsOf py apiKey active p (requests.filter fun r => r.provided ≠ q) rl' := by
  have open_limit {rl : RateLimiter} (h : rl.perMinute ≤ 0) (r : IngestRequest) :
      limit py apiKey active r rl = ((bucket py apiKey active r).map fun _ => true, rl) := by
    cases hb : bucket py apiKey active r with
    | none => exact limit_none hb rl
    | some key => simp [limit_some hb, allow, h]
  induction requests with
  | nil => rfl
  | cons r requests ih =>
    rw [verdictsOf_cons, open_limit hrl, ih]
    by_cases hrq : r.provided = q
    · have hrp : r.provided ≠ p := fun heq => hpq (heq.symm.trans hrq)
      rw [List.filter_cons_of_neg (by simpa using hrq), if_neg hrp, List.nil_append]
    · rw [List.filter_cons_of_pos (by simpa using hrq), verdictsOf_cons, open_limit hrl']

theorem recent_concat_allowed (key : String) (now : ℚ) (log : List Verdict) :
    recent key now (log ++ [⟨key, now, true⟩]) = recent key now log + 1 := by
  simp [recent, List.countP_append]

theorem verdictsOf_starved (hper : 1 ≤ perMinute) {rp rq : IngestRequest} {key : String} {now : ℚ}
    (hp : bucket py apiKey active rp = some key) (hq : bucket py apiKey active rq = some key)
    (htp : rp.time = now) (htq : rq.time = now) (hpq : rq.provided ≠ rp.provided)
    (m : ℕ) {log : List Verdict} {rl : RateLimiter} (hrl : rl.perMinute = perMinute) (h : Tracks log now rl)
    (hm : (recent key now log + m : ℕ) = perMinute) :
    verdictsOf py apiKey active rp.provided (List.replicate m rq ++ [rp]) rl = [some false] := by
  induction m generalizing log rl with
  | zero =>
    have hverdict := (allow_follows hper key now log rl hrl h).1
    have hfull : ¬ ((recent key now log : ℕ) : ℤ) < perMinute := by omega
    rw [decide_eq_false hfull] at hverdict
    rw [List.replicate_zero, List.nil_append, verdictsOf_cons, if_pos rfl, limit_some hp, htp]
    simp [hverdict, verdictsOf, verdicts]
  | succ m ih =>
    obtain ⟨hverdict, hlimit, htracks⟩ := allow_follows hper key now log rl hrl h
    have hroom : ((recent key now log : ℕ) : ℤ) < perMinute := by omega
    rw [decide_eq_true hroom] at hverdict
    rw [hverdict] at htracks
    rw [List.replicate_succ, List.cons_append, verdictsOf_cons, if_neg hpq, List.nil_append, limit_some hq, htq]
    apply ih hlimit htracks
    rw [recent_concat_allowed]
    omega

theorem not_independent_of_shared (hper : 1 ≤ perMinute) (start : ℚ) {p q : String} (hpq : q ≠ p) {a b : Peer}
    {key : String} (hp : ∀ time, bucket py apiKey active ⟨p, a, time⟩ = some key)
    (hq : ∀ time, bucket py apiKey active ⟨q, b, time⟩ = some key) :
    ¬ Independent py apiKey active perMinute start p q := by
  intro h
  have hboth := h (List.replicate perMinute.toNat ⟨q, b, 0⟩ ++ [⟨p, a, 0⟩])
    (by simp [List.pairwise_append, List.pairwise_replicate])
  have hfirst := tracks_new perMinute start 0
  have halone : List.filter (fun r : IngestRequest => r.provided ≠ q)
      (List.replicate perMinute.toNat ⟨q, b, 0⟩ ++ [⟨p, a, 0⟩]) = [⟨p, a, 0⟩] := by
    simp [List.filter_append, hpq.symm]
  have hverdict := (allow_follows hper key 0 [] _ rfl hfirst).1
  rw [halone, verdictsOf_starved hper (hp 0) (hq 0) rfl rfl hpq _ rfl hfirst (by simp [recent]; omega),
    verdictsOf_cons, if_pos rfl, limit_some (hp 0)] at hboth
  simp only [hverdict, verdictsOf, verdicts, List.filter_nil, List.map_nil, List.append_nil,
    List.cons.injEq, Option.some.injEq, and_true] at hboth
  have hfree : ((recent key 0 [] : ℕ) : ℤ) < perMinute := by
    simp [recent]
    omega
  simp [hfree] at hboth

theorem startsWith_append (a s : String) : Python.startsWith a (a ++ s) = true := by
  simp [Python.startsWith, String.toList_append]

theorem rateKey_ne {a b : TokenEntry} (h : SeparateKeys py a b) (peer peer' : Peer) :
    rateKey py peer a.principal ≠ rateKey py peer' b.principal := by
  simp only [rateKey, TokenEntry.tokenId_principal]
  intro heq
  by_cases ha : a.tokenPrefix.truthy = true
  · by_cases hb : b.tokenPrefix.truthy = true
    · rw [if_pos ha, if_pos hb] at heq
      exact h.2 ha hb ((String.append_right_inj "token:").mp heq)
    · rw [if_pos ha, if_neg hb, clientKey] at heq
      have hplain := peer'.plain
      rw [← heq, startsWith_append] at hplain
      cases hplain
  · by_cases hb : b.tokenPrefix.truthy = true
    · rw [if_neg ha, if_pos hb, clientKey] at heq
      have hplain := peer.plain
      rw [heq, startsWith_append] at hplain
      cases hplain
    · exact h.1.elim ha hb

def unknownPeer : Peer := ⟨none, by decide⟩

theorem shared_key {a b : TokenEntry} (h : ¬ SeparateKeys py a b) :
    rateKey py unknownPeer a.principal = rateKey py unknownPeer b.principal := by
  simp only [rateKey, TokenEntry.tokenId_principal]
  by_cases ha : a.tokenPrefix.truthy = true
  · by_cases hb : b.tokenPrefix.truthy = true
    · rw [if_pos ha, if_pos hb]
      by_contra hne
      exact h ⟨.inl ha, fun _ _ heq => hne (by rw [heq])⟩
    · exact absurd ⟨.inl ha, fun _ hb' => absurd hb' hb⟩ h
  · by_cases hb : b.tokenPrefix.truthy = true
    · exact absurd ⟨.inr hb, fun ha' => absurd ha' ha⟩ h
    · rw [if_neg ha, if_neg hb]

theorem not_independent_of_not_separate (hper : 1 ≤ perMinute) (start : ℚ) (p q : ActiveToken apiKey active)
    (hraw : p.raw ≠ q.raw) (hp : p.entry.principal.canIngest = true) (hq : q.entry.principal.canIngest = true)
    (hkeys : ¬ SeparateKeys py p.entry q.entry) :
    ¬ Independent py apiKey active perMinute start p.raw q.raw := by
  have hfirst (time : ℚ) : bucket py apiKey active ⟨p.raw, unknownPeer, time⟩ =
      some (rateKey py unknownPeer p.entry.principal) := by
    rw [p.bucket_eq rfl, if_pos hp]
  have hsecond (time : ℚ) : bucket py apiKey active ⟨q.raw, unknownPeer, time⟩ =
      some (rateKey py unknownPeer p.entry.principal) := by
    rw [q.bucket_eq rfl, if_pos hq, shared_key hkeys]
  exact not_independent_of_shared hper start hraw.symm hfirst hsecond

/-- Two tokens have budgets of their own exactly when nothing is limited, one of them may
not ingest, or their stored prefixes give them different buckets. -/
theorem budgets_independent_iff (perMinute : ℤ) (start : ℚ) (p q : ActiveToken apiKey active)
    (hpq : hashToken p.raw ≠ hashToken q.raw) :
    Independent py apiKey active perMinute start p.raw q.raw ↔
      perMinute ≤ 0 ∨ p.entry.principal.canIngest = false ∨ q.entry.principal.canIngest = false ∨
        SeparateKeys py p.entry q.entry := by
  have hraw : p.raw ≠ q.raw := fun heq => hpq (by rw [heq])
  constructor
  · intro h
    by_contra hcond
    simp only [not_or, Bool.not_eq_false] at hcond
    obtain ⟨hper, hp, hq, hkeys⟩ := hcond
    exact not_independent_of_not_separate (by omega) start p q hraw hp hq hkeys h
  · intro hcond requests hsorted
    by_cases hper : perMinute ≤ 0
    · exact verdictsOf_unlimited hraw requests (.new perMinute start) (.new perMinute start) hper hper
    have hpos : 1 ≤ perMinute := by omega
    have agree (K : String → Prop)
        (hp : ∀ r : IngestRequest, r.provided = p.raw → ∀ key, bucket py apiKey active r = some key → ¬ K key)
        (hq : ∀ r : IngestRequest, r.provided = q.raw → ∀ key, bucket py apiKey active r = some key → K key) :
        verdictsOf py apiKey active p.raw requests (.new perMinute start) =
          verdictsOf py apiKey active p.raw (requests.filter fun r => r.provided ≠ q.raw) (.new perMinute start) := by
      cases requests with
      | nil => rfl
      | cons r requests =>
        have hnow : ∀ r' ∈ r :: requests, r.time ≤ r'.time := by
          intro r' hr'
          rcases List.mem_cons.mp hr' with rfl | hr'
          · exact le_rfl
          · exact (List.pairwise_cons.mp hsorted).1 r' hr'
        have hstart := tracks_new perMinute start r.time
        exact verdictsOf_agree hpos hraw _ hsorted (fun r _ => hp r) (fun r _ => hq r) hnow
          ⟨rfl, rfl, hstart, hstart, fun _ _ => rfl⟩
    rcases hcond with hcond | hp | hq | hkeys
    · exact absurd hcond hper
    · apply agree fun _ => True
      · intro r hr key hkey
        rw [p.bucket_eq hr, hp] at hkey
        cases hkey
      · exact fun _ _ _ _ => trivial
    · apply agree fun _ => False
      · exact fun _ _ _ _ => id
      · intro r hr key hkey
        rw [q.bucket_eq hr, hq] at hkey
        cases hkey
    · apply agree fun key => ∃ peer, rateKey py peer q.entry.principal = key
      · rintro r hr key hkey ⟨peer, hpeer⟩
        rw [p.bucket_eq hr] at hkey
        split at hkey
        · exact rateKey_ne hkeys r.peer peer ((Option.some.inj hkey).trans hpeer.symm)
        · cases hkey
      · intro r hr key hkey
        rw [q.bucket_eq hr] at hkey
        split at hkey
        · exact ⟨r.peer, Option.some.inj hkey⟩
        · cases hkey

def twoPrefixes : TokenMap :=
  [(.text (hashToken "stk_a"), ⟨"acme", .limited .ingest, .str "stk_a", 1⟩),
    (.text (hashToken "stk_b"), ⟨"globex", .limited .ingest, .str "stk_b", 2⟩)]

theorem budgets_independent_two_prefixes :
    hashToken "stk_a" ≠ hashToken "stk_b" ∧
      Independent Python.literal "master-key" twoPrefixes 100 0 "stk_a" "stk_b" := by
  have hne : hashToken "stk_a" ≠ hashToken "stk_b" := by decide +kernel
  have hkeys : SeparateKeys Python.literal ⟨"acme", .limited .ingest, .str "stk_a", 1⟩
      ⟨"globex", .limited .ingest, .str "stk_b", 2⟩ := by
    refine ⟨.inl rfl, fun _ _ => ?_⟩
    decide
  refine ⟨hne, (budgets_independent_iff 100 0 ⟨"stk_a", _, ?_⟩ ⟨"stk_b", _, ?_⟩ hne).mpr (.inr (.inr (.inr hkeys)))⟩
  · decide +kernel
  · decide +kernel

def mintedHex : String := "aaaaaaaaaaaaaaaaaaaaaaaaaaaaaaaaaaaaaaaaaaaaaaaa"

def chosenToken : Dict :=
  [("token_prefix", .str "stk_aaaaaa"), ("token_hash", .str (hashToken "own")), ("role", .str "ingest")]

def prefixChosen : Except Failure Db := do
  let master : Principal := ⟨none, .admin, true, .str "master"⟩
  let (db, _) ← createToken Python.literal .sqlite ⟨0, "u1", mintedHex, 1000⟩ master
    ⟨none, 25, .json (.obj [("project_id", .str "acme")])⟩ Db.empty
  let (db, _) ← createConfig Python.literal ⟨0, "u2", mintedHex, 1000⟩ ⟨some "globex", .admin, false, .str "stk_g"⟩
    "api_tokens" ⟨none, 150, .json (.obj chosenToken)⟩ db
  return db

theorem chosen_prefix_starves :
    ∃ db active, ∃ p q : ActiveToken "master-key" active,
      prefixChosen = .ok db ∧ loadTokens (tokenRows db) = .ok active ∧ hashToken p.raw ≠ hashToken q.raw ∧
        p.entry.projectId = "acme" ∧ q.entry.projectId = "globex" ∧
        ¬ Independent Python.literal "master-key" active 100 0 p.raw q.raw := by
  have hrun : (prefixChosen.toOption.bind fun db => (loadTokens (tokenRows db)).toOption) =
      some [(.text (hashToken ("stk_" ++ mintedHex)), ⟨"acme", .limited .ingest, .str "stk_aaaaaa", 1⟩),
        (.text (hashToken "own"), ⟨"globex", .limited .ingest, .str "stk_aaaaaa", 2⟩)] := by
    decide +kernel
  obtain ⟨db, hdb, hactive⟩ := Option.bind_eq_some_iff.mp hrun
  refine ⟨db, _, ⟨"stk_" ++ mintedHex, ⟨"acme", .limited .ingest, .str "stk_aaaaaa", 1⟩, ?_⟩,
    ⟨"own", ⟨"globex", .limited .ingest, .str "stk_aaaaaa", 2⟩, ?_⟩, Traverse.toOption_eq_some.mp hdb,
    Traverse.toOption_eq_some.mp hactive, ?_, rfl, rfl, ?_⟩
  · decide +kernel
  · decide +kernel
  · decide +kernel
  · apply not_independent_of_not_separate (by omega) 0
    · decide
    · rfl
    · rfl
    · exact fun h => h.2 rfl rfl rfl

end JvmScout.Security
