import JvmScout.Collector.TokenCache

/-!
The live sockets of the dashboards (`ConnectionManager`, `ws_live`) next to the token
store. A handshake resolves its token once; the socket enters the table of clients later,
and keeps the principal that was resolved.
-/

namespace JvmScout.Routes.LiveFanout

open Storage Security Runs

def openPrincipal : Principal := ⟨none, defaultRole, true, .null⟩

def resolved (apiKey : String) (a : Answer) : Option Principal :=
  if asksStore apiKey a.provided then a.entry.map TokenEntry.principal
  else (resolvePrincipal apiKey a.provided (.ok [])).toOption.join

def authorizeWebsocket (authEnabled : Bool) (apiKey : String) (a : Answer) : Option Principal :=
  if authEnabled then (resolved apiKey a).filter Principal.canRead else some openPrincipal

structure Socket where
  ws : ℕ
  provided : String
  principal : Principal
deriving DecidableEq

structure Fanout where
  auth : Loop
  opening : List Socket
  clients : List Socket
  sent : List (Option String × List Socket)

def Fanout.start (db : Db) : Fanout := ⟨.start db, [], [], []⟩

def receives (who : Principal) (projectId : Option String) : Bool :=
  who.isMaster || who.projectId == projectId

def targets (projectId : Option String) (s : Fanout) : List Socket :=
  s.clients.filter fun c => receives c.principal projectId

inductive FanoutStep where
  | auth (l : Label)
  | handshake (ws : ℕ) (a : Answer)
  | connect (i : ℕ)
  | disconnect (ws : ℕ)
  | broadcast (projectId : Option String) (failed : List ℕ)

section Step

variable (authEnabled : Bool) (ttl : ℕ) (apiKey : String)

def handshake (ws : ℕ) (a : Answer) (s : Fanout) : Option Fanout :=
  if authEnabled && !decide (a ∈ s.auth.answers) then none
  else
    match authorizeWebsocket authEnabled apiKey a with
    | none => some s
    | some who => some { s with opening := s.opening ++ [⟨ws, a.provided, who⟩] }

def connect (i : ℕ) (s : Fanout) : Option Fanout :=
  (s.opening[i]?).map fun c => { s with opening := s.opening.eraseIdx i, clients := s.clients ++ [c] }

def disconnect (ws : ℕ) (s : Fanout) : Fanout := { s with clients := s.clients.filter fun c => c.ws ≠ ws }

def broadcast (projectId : Option String) (failed : List ℕ) (s : Fanout) : Fanout :=
  { s with
    sent := s.sent ++ [(projectId, targets projectId s)]
    clients := s.clients.filter fun c => !(receives c.principal projectId && failed.contains c.ws) }

def fanoutStep (s : Fanout) : FanoutStep → Option Fanout
  | .auth l => (Security.step ttl apiKey s.auth l).map fun auth => { s with auth := auth }
  | .handshake ws a => handshake authEnabled apiKey ws a s
  | .connect i => connect i s
  | .disconnect ws => some (disconnect ws s)
  | .broadcast projectId failed => some (broadcast projectId failed s)

def currentPrincipal (db : Db) (provided : String) : Option Principal :=
  if authEnabled then
    ((resolvePrincipal apiKey provided (loadTokens (tokenRows db))).toOption.join).filter Principal.canRead
  else some openPrincipal

def Entitled (projectId : Option String) (db : Db) (provided : String) : Prop :=
  ∃ who ∈ currentPrincipal authEnabled apiKey db provided, receives who projectId = true

def Current (s : Fanout) : Prop :=
  ∀ projectId, ∀ c ∈ s.clients, c ∈ targets projectId s ↔ Entitled authEnabled apiKey projectId s.auth.db c.provided

def FansOut (s : Fanout) (a : FanoutStep) : Prop :=
  ∀ t, fanoutStep authEnabled ttl apiKey s a = some t → Current authEnabled apiKey t ∧
    ∀ projectId failed, a = .broadcast projectId failed →
      ∃ sockets, t.sent = s.sent ++ [(projectId, sockets)] ∧ (∀ c ∈ sockets, c ∈ s.clients) ∧
        ∀ c ∈ s.clients, c ∈ sockets ↔ Entitled authEnabled apiKey projectId s.auth.db c.provided

/-- The rows change nothing for the token of a connected socket, and a socket enters the
table with the principal that the rows have for its token. -/
def Unchanged (s : Fanout) : FanoutStep → Prop
  | .auth l => ∀ auth, Security.step ttl apiKey s.auth l = some auth → ∀ c ∈ s.clients, ∀ projectId,
    Entitled authEnabled apiKey projectId auth.db c.provided ↔
      Entitled authEnabled apiKey projectId s.auth.db c.provided
  | .connect i => ∀ c ∈ s.opening[i]?, ∀ projectId,
    receives c.principal projectId = true ↔ Entitled authEnabled apiKey projectId s.auth.db c.provided
  | .handshake _ _ | .disconnect _ | .broadcast _ _ => True

end Step

theorem resolved_answer (apiKey provided : String) (late : Bool) (map : TokenMap) :
    resolved apiKey ⟨provided, late, authenticatedBy apiKey provided map⟩ =
      (resolvePrincipal apiKey provided (.ok map)).toOption.join := by
  unfold resolved authenticatedBy
  by_cases hasks : asksStore apiKey provided = true
  · simp only [hasks, if_true]
    simp only [asksStore, Bool.and_eq_true, bne_iff_ne, decide_eq_true_eq] at hasks
    simp only [resolvePrincipal, hasks, if_false, bind, Except.bind, Bool.false_eq_true]
    cases findToken (hashToken provided) map with
    | error e => rfl
    | ok found => rfl
  · -- the map is not asked
    have hother : provided = "" ∨ ∀ b, compareDigest provided (.text apiKey) = .ok b → b = true := by
      by_cases hempty : provided = ""
      · exact .inl hempty
      · right
        rintro (_ | _) hb
        · simp [asksStore, hempty, hb] at hasks
        · rfl
    simp only [hasks, Bool.false_eq_true, if_false]
    rcases hother with rfl | hmaster
    · rfl
    · by_cases hempty : provided = ""
      · subst hempty
        rfl
      · simp only [resolvePrincipal, hempty, if_false, bind, Except.bind]
        cases hkey : compareDigest provided (.text apiKey) with
        | error e => rfl
        | ok b =>
          rw [hmaster b hkey]
          rfl

section Run

variable {authEnabled : Bool} {ttl : ℕ} {apiKey : String} {s t : Fanout}

theorem mem_targets {projectId : Option String} {c : Socket} :
    c ∈ targets projectId s ↔ c ∈ s.clients ∧ receives c.principal projectId = true :=
  List.mem_filter

theorem current_iff : Current authEnabled apiKey s ↔ ∀ c ∈ s.clients, ∀ projectId,
    receives c.principal projectId = true ↔
      Entitled authEnabled apiKey projectId s.auth.db c.provided := by
  constructor
  · intro h c hc projectId
    rw [← h projectId c hc, mem_targets, and_iff_right hc]
  · intro h projectId c hc
    rw [mem_targets, and_iff_right hc]
    exact h c hc projectId

theorem Current.mono (h : Current authEnabled apiKey s) (hdb : t.auth.db = s.auth.db)
    (hclients : ∀ c ∈ t.clients, c ∈ s.clients) : Current authEnabled apiKey t := by
  rw [current_iff] at h ⊢
  intro c hc projectId
  rw [hdb]
  exact h c (hclients c hc) projectId

theorem auth_iff (h : Current authEnabled apiKey s) {l : Label} :
    FansOut authEnabled ttl apiKey s (.auth l) ↔ Unchanged authEnabled ttl apiKey s (.auth l) := by
  rw [current_iff] at h
  constructor
  · intro hfans auth hauth c hc projectId
    have hafter := (hfans { s with auth := auth } (by simp only [fanoutStep, hauth, Option.map_some])).1
    rw [current_iff] at hafter
    rw [← h c hc projectId]
    exact (hafter c hc projectId).symm
  · intro hsame t ht
    simp only [fanoutStep, Option.map_eq_some_iff] at ht
    obtain ⟨auth, hauth, rfl⟩ := ht
    refine ⟨?_, fun _ _ ha => (by cases ha)⟩
    rw [current_iff]
    intro c hc projectId
    rw [hsame auth hauth c hc projectId]
    exact h c hc projectId

theorem connect_iff (h : Current authEnabled apiKey s) {i : ℕ} :
    FansOut authEnabled ttl apiKey s (.connect i) ↔ Unchanged authEnabled ttl apiKey s (.connect i) := by
  rw [current_iff] at h
  constructor
  · intro hfans c hc projectId
    have hafter := (hfans { s with opening := s.opening.eraseIdx i, clients := s.clients ++ [c] } (by
      simp only [fanoutStep, connect, Option.mem_def.mp hc, Option.map_some])).1
    rw [current_iff] at hafter
    exact hafter c (List.mem_append_right _ List.mem_cons_self) projectId
  · intro hnew t ht
    simp only [fanoutStep, connect, Option.map_eq_some_iff] at ht
    obtain ⟨c, hc, rfl⟩ := ht
    refine ⟨?_, fun _ _ ha => (by cases ha)⟩
    rw [current_iff]
    intro c' hc' projectId
    rcases List.mem_append.mp hc' with hold | hsame
    · exact h c' hold projectId
    · rw [List.mem_singleton.mp hsame]
      exact hnew c hc projectId

theorem fansOut_iff (h : Current authEnabled apiKey s) (a : FanoutStep) :
    FansOut authEnabled ttl apiKey s a ↔ Unchanged authEnabled ttl apiKey s a := by
  cases a with
  | auth l => exact auth_iff h
  | connect i => exact connect_iff h
  | handshake ws a =>
    refine iff_of_true (fun t ht => ⟨?_, fun _ _ ha => (by cases ha)⟩) trivial
    simp only [fanoutStep, handshake] at ht
    split at ht
    · cases ht
    · split at ht
      · cases ht
        exact h
      · cases ht
        exact h.mono rfl fun c hc => hc
  | disconnect ws =>
    refine iff_of_true (fun t ht => ⟨?_, fun _ _ ha => (by cases ha)⟩) trivial
    cases ht
    exact h.mono rfl fun c hc => List.mem_of_mem_filter hc
  | broadcast projectId failed =>
    refine iff_of_true (fun t ht => ?_) trivial
    cases ht
    refine ⟨h.mono rfl fun c hc => List.mem_of_mem_filter hc, fun _ _ ha => ?_⟩
    cases ha
    exact ⟨_, rfl, fun c hc => List.mem_of_mem_filter hc, h projectId⟩

theorem start_current (db : Db) : Current authEnabled apiKey (.start db) := by
  intro projectId c hc
  cases hc

/-- The broadcasts of a run reach the sockets whose tokens are entitled to them, and no
others, exactly when the tokens stay what they were when their sockets connected. -/
theorem live_fanout_iff (authEnabled : Bool) (ttl : ℕ) (apiKey : String) (db : Db) (steps : List FanoutStep) :
    AllSteps (fanoutStep authEnabled ttl apiKey) (FansOut authEnabled ttl apiKey) (.start db) steps ↔
      AllSteps (fanoutStep authEnabled ttl apiKey) (Unchanged authEnabled ttl apiKey) (.start db) steps :=
  allSteps_congr (I := Current authEnabled apiKey) (fun _ _ t _ hfans ht => (hfans t ht).1)
    (fun _ a hs => fansOut_iff hs a) (start_current db) steps

end Run

def revokedWhileConnected : List FanoutStep :=
  [.auth (.tick 11), .auth (.resolve "stk_a"), .auth (.query 0), .auth (.resume 0),
    .handshake 7 ⟨"stk_a", false, some ⟨"acme", .limited .admin, .str "stk_a", 1⟩⟩, .connect 0,
    .auth (.revoke (some "acme", false) (.patch "u1" [("revoked_at", .str "2026-01-01T00:00:00Z")])),
    .auth .returned, .broadcast (some "acme") []]

theorem revoked_socket_receives :
    ∃ s, run (fanoutStep true 10 "") (.start acmeTokens) revokedWhileConnected = some s ∧
      s.sent.map (fun e => (e.1, e.2.map Socket.ws)) = [(some "acme", [7])] ∧
      ¬ Entitled true "" (some "acme") s.auth.db "stk_a" := by
  have hend : (run (fanoutStep true 10 "") (.start acmeTokens) revokedWhileConnected).map
      (fun s => (s.sent.map (fun e => (e.1, e.2.map Socket.ws)),
        currentPrincipal true "" s.auth.db "stk_a")) = some ([(some "acme", [7])], none) := by
    decide +kernel
  obtain ⟨s, hs, heq⟩ := Option.map_eq_some_iff.mp hend
  obtain ⟨hsent, hcurrent⟩ := Prod.mk.inj heq
  refine ⟨s, hs, hsent, ?_⟩
  rintro ⟨who, hwho, -⟩
  rw [hcurrent] at hwho
  cases hwho

end JvmScout.Routes.LiveFanout
