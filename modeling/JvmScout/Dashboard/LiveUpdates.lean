import JvmScout.Collector.Ingest
import JvmScout.Dashboard.Paging
import JvmScout.Lib.Runs

/-!
`useLiveUpdates` of `use-live-updates.tsx` with the browser's timers and sockets around it, and
the short-lived caches of `client.ts` that it drops: a dashboard over its whole life.
-/

namespace JvmScout.Dashboard.LiveUpdates

open Runs

structure Timer where
  id : ℕ
  due : ℕ
deriving DecidableEq

structure Socket where
  id : ℕ
  closing : Bool
deriving DecidableEq

inductive Resource where
  | exceptions
  | instances
deriving DecidableEq

structure Cached (α : Type*) where
  began : ℕ
  stamp : ℕ
  rows : α

structure Load where
  resource : Resource
  began : ℕ

structure Served (α : Type*) where
  time : ℕ
  resource : Resource
  cached : Cached α

/-- `reconnects` and `debounces` are the timers of `setTimeout(open)` and of the refresh that the
browser has pending, `reconnectTimer` and `debounceTimer` the variables of the hook. The last
four fields are the history: the messages that ask for a refresh, the refreshes, the calls of
`invalidateCache` and what the fetches returned, newest first. -/
structure Screen (α : Type*) where
  now : ℕ
  nextId : ℕ
  closed : Bool
  ws : Option ℕ
  sockets : List Socket
  reconnects : List Timer
  debounces : List Timer
  reconnectTimer : Option ℕ
  debounceTimer : Option ℕ
  caches : Resource → Option (Cached α)
  loads : List Load
  messages : List ℕ
  refreshes : List ℕ
  drops : List ℕ
  served : List (Served α)

variable {α : Type*}

def wantsRefresh : Option Json → Bool
  | some (.obj kvs) =>
    match Dict.get kvs "kind" with
    | .str kind => kind == "exception" || kind == "agent_start"
    | _ => false
  | _ => false

def invalidateCache (s : Screen α) : Screen α :=
  { s with caches := fun _ => none, drops := s.now :: s.drops }

def scheduleRefresh (s : Screen α) : Screen α :=
  if s.debounceTimer.isSome then s
  else
    { s with
      debounces := ⟨s.nextId, s.now + 800⟩ :: s.debounces
      debounceTimer := some s.nextId
      nextId := s.nextId + 1 }

def openSocket (ok : Bool) (s : Screen α) : Screen α :=
  if s.closed then s
  else if ok then
    { s with
      sockets := ⟨s.nextId, false⟩ :: s.sockets
      ws := some s.nextId
      nextId := s.nextId + 1 }
  else
    { s with
      reconnects := ⟨s.nextId, s.now + 5000⟩ :: s.reconnects
      reconnectTimer := some s.nextId
      ws := none
      nextId := s.nextId + 1 }

def closeWs (ws : Option ℕ) (sockets : List Socket) : List Socket :=
  sockets.map fun w => if ws = some w.id then { w with closing := true } else w

def clearTimer (handle : Option ℕ) (timers : List Timer) : List Timer :=
  timers.filter fun x => handle ≠ some x.id

def onMessage (msg : Option Json) (s : Screen α) : Screen α :=
  if wantsRefresh msg then { scheduleRefresh s with messages := s.now :: s.messages } else s

def onClose (s : Screen α) : Screen α :=
  if s.closed then s
  else
    { s with
      reconnects := ⟨s.nextId, s.now + 3000⟩ :: s.reconnects
      reconnectTimer := some s.nextId
      nextId := s.nextId + 1 }

def refresh (s : Screen α) : Screen α :=
  invalidateCache { s with debounceTimer := none, refreshes := s.now :: s.refreshes }

def unmount (s : Screen α) : Screen α :=
  { s with
    closed := true
    reconnects := clearTimer s.debounceTimer (clearTimer s.reconnectTimer s.reconnects)
    debounces := clearTimer s.debounceTimer (clearTimer s.reconnectTimer s.debounces)
    sockets := closeWs s.ws s.sockets }

def fetch (r : Resource) (s : Screen α) : Screen α :=
  match (s.caches r).filter fun c => decide ((s.now : ℤ) - c.stamp < ttlMs) with
  | some c => { s with served := ⟨s.now, r, c⟩ :: s.served }
  | none => { s with loads := ⟨r, s.now⟩ :: s.loads }

def finish (load : Load) (rows : α) (s : Screen α) : Screen α :=
  { s with
    caches := Function.update s.caches load.resource (some ⟨load.began, s.now, rows⟩)
    served := ⟨s.now, load.resource, ⟨load.began, s.now, rows⟩⟩ :: s.served }

inductive Label (α : Type*) where
  | tick (ms : ℕ)
  | message (id : ℕ) (msg : Option Json)
  | error (id : ℕ)
  | close (w : Socket)
  | reconnect (x : Timer) (ok : Bool)
  | debounced (x : Timer)
  | unmount
  | fetch (r : Resource)
  | loaded (i : ℕ) (rows : α)
  | failed (i : ℕ)
  | invalidated

/-- The browser runs a timer when it is due and at most `slack` ms after that; a socket that is
closing hands over no message. -/
def step (slack : ℕ) (s : Screen α) : Label α → Option (Screen α)
  | .tick ms =>
    if ∀ x ∈ s.reconnects ++ s.debounces, s.now + ms ≤ x.due + slack then some { s with now := s.now + ms }
    else none
  | .message id msg => if ⟨id, false⟩ ∈ s.sockets then some (onMessage msg s) else none
  | .error id =>
    if id ∈ s.sockets.map Socket.id then some { s with sockets := closeWs s.ws s.sockets } else none
  | .close w => if w ∈ s.sockets then some (onClose { s with sockets := s.sockets.erase w }) else none
  | .reconnect x ok =>
    if x ∈ s.reconnects ∧ x.due ≤ s.now then
      some (openSocket ok { s with reconnects := s.reconnects.erase x })
    else none
  | .debounced x =>
    if x ∈ s.debounces ∧ x.due ≤ s.now then some (refresh { s with debounces := s.debounces.erase x })
    else none
  | .unmount => if s.closed then none else some (unmount s)
  | .fetch r => some (fetch r s)
  | .loaded i rows => s.loads[i]?.map fun load => finish load rows { s with loads := s.loads.eraseIdx i }
  | .failed i => s.loads[i]?.map fun _ => { s with loads := s.loads.eraseIdx i }
  | .invalidated => some (invalidateCache s)

section Collector

open Routes Storage

def sentMessage (b : Broadcast) : Json :=
  match b.id with
  | some id => .obj [("kind", .str b.kind), ("id", .int id), ("event", .obj b.event)]
  | none => .obj [("kind", .str b.kind), ("event", .obj b.event)]

theorem wantsRefresh_sentMessage {b : Broadcast} (h : b.kind = "exception" ∨ b.kind = "agent_start") :
    wantsRefresh (some (sentMessage b)) = true := by
  have hkind : wantsRefresh (some (sentMessage b)) = (b.kind == "exception" || b.kind == "agent_start") := by
    rw [sentMessage]
    split <;> rfl
  rw [hkind]
  simpa using h

theorem ingestItems_asks {py : Python} (ing : Ingestion py) (items : List Json) (db : Db) :
    ∀ b ∈ (ingestItems ing items db).broadcasts, wantsRefresh (some (sentMessage b)) = true := by
  have hloop (xs : List (Json × ℕ)) (acc : Intake)
      (hacc : ∀ b ∈ acc.broadcasts, wantsRefresh (some (sentMessage b)) = true) :
      ∀ b ∈ (xs.foldl (ingestItem ing) acc).broadcasts, wantsRefresh (some (sentMessage b)) = true := by
    induction xs generalizing acc with
    | nil => exact hacc
    | cons x xs ih =>
      apply ih
      have hstore (bs : List Broadcast) (hbs : ∀ b ∈ bs, wantsRefresh (some (sentMessage b)) = true)
          (r : Except PyError Db) :
          ∀ b ∈ (acc.store x.2 bs r).broadcasts, wantsRefresh (some (sentMessage b)) = true := by
        cases r with
        | error e => exact hacc
        | ok db =>
          intro b hb
          rcases List.mem_append.mp hb with hb | hb
          · exact hacc b hb
          · exact hbs b hb
      rw [ingestItem]
      split
      · exact hacc
      · apply hstore
        intro b hb
        cases List.mem_singleton.mp hb
        exact wantsRefresh_sentMessage (.inr rfl)
      · exact hstore [] (fun b hb => nomatch hb) _
      · exact hacc
  have hitems := hloop items.zipIdx (.start db) fun b hb => nomatch hb
  rw [ingestItems, storeBatch]
  split
  · exact hitems
  · split
    · exact hitems
    · intro b hb
      rcases List.mem_append.mp hb with hb | hb
      · exact hitems b hb
      · obtain ⟨x, -, rfl⟩ := List.mem_map.mp hb
        exact wantsRefresh_sentMessage (.inl rfl)

end Collector

section Rows

def Cached.asExcCache (c : Cached (List ExceptionListRow)) : ExcCache := ⟨c.stamp, c.rows⟩

theorem fetchAllExceptions_halves (serve : PageServer) (cap : ℕ) (s u : Screen (List ExceptionListRow)) :
    let rows := fetchPages serve cap 0 0 []
    let whole := fetchAllExceptions ((s.caches .exceptions).map Cached.asExcCache) s.now u.now serve cap
    (∃ c, (fetch .exceptions s).served = ⟨s.now, .exceptions, c⟩ :: s.served ∧
      whole = (c.rows, (s.caches .exceptions).map Cached.asExcCache)) ∨
    ((fetch .exceptions s).loads = ⟨.exceptions, s.now⟩ :: s.loads ∧
      whole = (rows, ((finish ⟨.exceptions, s.now⟩ rows u).caches .exceptions).map Cached.asExcCache)) := by
  intro rows whole
  have hcache : ((s.caches .exceptions).map Cached.asExcCache).filter
      (fun c => decide ((s.now : ℤ) - c.stamp < ttlMs)) =
      ((s.caches .exceptions).filter fun c => decide ((s.now : ℤ) - c.stamp < ttlMs)).map Cached.asExcCache := by
    cases s.caches .exceptions with
    | none => rfl
    | some c => by_cases h : (s.now : ℤ) - c.stamp < ttlMs <;> simp [Option.filter, Cached.asExcCache, h]
  have hwhole : whole = fetchAllExceptions ((s.caches .exceptions).map Cached.asExcCache) s.now u.now serve cap :=
    rfl
  rw [fetchAllExceptions, hcache] at hwhole
  rw [fetch]
  split
  · rename_i c hc
    rw [hc] at hwhole
    exact .inl ⟨c, rfl, hwhole⟩
  · rename_i hc
    rw [hc] at hwhole
    have hfinish : (finish ⟨.exceptions, s.now⟩ rows u).caches .exceptions = some ⟨s.now, u.now, rows⟩ :=
      Function.update_self Resource.exceptions _ u.caches
    refine .inr ⟨rfl, ?_⟩
    rw [hfinish]
    exact hwhole

end Rows

inductive Link : Bool → Option ℕ → List Socket → List Timer → Option ℕ → Prop
  | online (w : Socket) (handle : Option ℕ) : Link false (some w.id) [w] [] handle
  | waiting (x : Timer) (ws : Option ℕ) : Link false ws [] [x] (some x.id)
  | gone (ws : Option ℕ) (sockets : List Socket) (handle : Option ℕ)
      (hclosing : ∀ w ∈ sockets, w.closing = true) : Link true ws sockets [] handle

def Linked (s : Screen α) : Prop := Link s.closed s.ws s.sockets s.reconnects s.reconnectTimer

inductive Pending (slack now : ℕ) (refreshes : List ℕ) : Bool → List Timer → Option ℕ → Prop
  | idle : Pending slack now refreshes false [] none
  | armed (x : Timer) (hsoon : x.due ≤ now + 800) (hlate : now ≤ x.due + slack)
      (hspaced : ∀ r ∈ refreshes, r + 800 ≤ x.due) : Pending slack now refreshes false [x] (some x.id)
  | gone (handle : Option ℕ) : Pending slack now refreshes true [] handle

structure Debounced (slack : ℕ) (s : Screen α) : Prop where
  pending : Pending slack s.now s.refreshes s.closed s.debounces s.debounceTimer
  past : ∀ r ∈ s.refreshes, r ≤ s.now
  asked : ∀ t ∈ s.messages, t ≤ s.now
  spaced : s.refreshes.Pairwise fun later earlier => earlier + 800 ≤ later
  covered : s.closed = false → ∀ t ∈ s.messages,
    (∃ r ∈ s.refreshes, t ≤ r ∧ r ≤ t + 800 + slack) ∨ ∃ x ∈ s.debounces, x.due ≤ t + 800

structure Cached.Kept (c : Cached α) (now : ℕ) (drops : List ℕ) : Prop where
  began : c.began ≤ c.stamp
  past : c.stamp ≤ now
  kept : ∀ d ∈ drops, d ≤ c.stamp

structure Served.Recent (v : Served α) (now : ℕ) (drops : List ℕ) : Prop where
  began : v.cached.began ≤ v.cached.stamp
  past : v.cached.stamp ≤ v.time
  time : v.time ≤ now
  fresh : v.time < v.cached.stamp + 4000
  kept : ∀ d ∈ drops, d < v.time → d ≤ v.cached.stamp

structure Fresh (s : Screen α) : Prop where
  caches : ∀ r c, s.caches r = some c → c.Kept s.now s.drops
  loads : ∀ load ∈ s.loads, load.began ≤ s.now
  served : ∀ v ∈ s.served, v.Recent s.now s.drops
  dropped : ∀ d ∈ s.drops, d ≤ s.now
  refreshed : ∀ r ∈ s.refreshes, r ∈ s.drops

variable {slack : ℕ} {s t : Screen α} {a : Label α}

section Fields

variable {closed : Bool} {ws handle : Option ℕ} {sockets : List Socket} {reconnects debounces : List Timer}
  {now : ℕ} {refreshes : List ℕ}

theorem Link.one (h : Link closed ws sockets reconnects handle) (hmounted : closed = false) :
    sockets.length + reconnects.length = 1 := by
  cases h with
  | online | waiting => rfl
  | gone => cases hmounted

theorem Link.left (h : Link closed ws sockets reconnects handle) (hover : closed = true) :
    reconnects = [] ∧ ∀ w ∈ sockets, w.closing = true := by
  cases h with
  | online | waiting => cases hover
  | gone ws sockets handle hclosing => exact ⟨rfl, hclosing⟩

theorem Pending.left (h : Pending slack now refreshes closed debounces handle) (hover : closed = true) :
    debounces = [] := by
  cases h with
  | idle | gone => rfl
  | armed => cases hover

theorem Pending.late (h : Pending slack now refreshes closed debounces handle) {x : Timer} (hx : x ∈ debounces) :
    now ≤ x.due + slack := by
  cases h with
  | idle | gone => cases hx
  | armed y hsoon hlate =>
    cases List.mem_singleton.mp hx
    exact hlate

end Fields

structure SameTimers (s t : Screen α) : Prop where
  now : t.now = s.now
  closed : t.closed = s.closed
  debounces : t.debounces = s.debounces
  debounceTimer : t.debounceTimer = s.debounceTimer
  messages : t.messages = s.messages
  refreshes : t.refreshes = s.refreshes

structure SameRows (s t : Screen α) : Prop where
  now : t.now = s.now
  caches : t.caches = s.caches
  loads : t.loads = s.loads
  refreshes : t.refreshes = s.refreshes
  drops : t.drops = s.drops
  served : t.served = s.served

theorem Debounced.tick (h : Debounced slack s) {ms : ℕ}
    (hms : ∀ x ∈ s.reconnects ++ s.debounces, s.now + ms ≤ x.due + slack) :
    Debounced slack { s with now := s.now + ms } := by
  obtain ⟨now, nextId, closed, ws, sockets, reconnects, debounces, reconnectTimer, debounceTimer, caches, loads,
    messages, refreshes, drops, served⟩ := s
  obtain ⟨hp, past, asked, spaced, covered⟩ := h
  change Pending slack now refreshes closed debounces debounceTimer at hp
  refine ⟨?_, fun r hr => ?_, fun t ht => ?_, spaced, covered⟩
  · cases hp with
    | idle => exact .idle
    | armed x hsoon hlate hspaced =>
      apply Pending.armed x _ _ hspaced
      · exact hsoon.trans (Nat.add_le_add_right (Nat.le_add_right now ms) 800)
      · exact hms x (List.mem_append_right _ (List.mem_singleton_self x))
    | gone => exact .gone _
  · exact (past r hr).trans (Nat.le_add_right _ _)
  · exact (asked t ht).trans (Nat.le_add_right _ _)

theorem Debounced.scheduleRefresh (h : Debounced slack s) (hmounted : s.closed = false) :
    Debounced slack (scheduleRefresh s) ∧ ∃ x ∈ (LiveUpdates.scheduleRefresh s).debounces, x.due ≤ s.now + 800 := by
  obtain ⟨now, nextId, closed, ws, sockets, reconnects, debounces, reconnectTimer, debounceTimer, caches, loads,
    messages, refreshes, drops, served⟩ := s
  obtain ⟨hp, past, asked, spaced, covered⟩ := h
  change Pending slack now refreshes closed debounces debounceTimer at hp
  cases hp with
  | idle =>
    refine ⟨⟨?_, past, asked, spaced, ?_⟩, ⟨nextId, now + 800⟩, List.mem_cons_self, le_rfl⟩
    · apply Pending.armed ⟨nextId, now + 800⟩ le_rfl
      · change now ≤ now + 800 + slack
        omega
      · intro r hr
        have hpast : r ≤ now := past r hr
        change r + 800 ≤ now + 800
        omega
    · intro _ t ht
      rcases covered rfl t ht with hdone | ⟨x, hx, -⟩
      · exact .inl hdone
      · cases hx
  | armed x hsoon hlate hspaced =>
    exact ⟨⟨.armed x hsoon hlate hspaced, past, asked, spaced, covered⟩, x, List.mem_singleton_self x, hsoon⟩
  | gone => cases hmounted

theorem Debounced.onMessage (h : Debounced slack s) (hmounted : s.closed = false) (msg : Option Json) :
    Debounced slack (onMessage msg s) := by
  rw [LiveUpdates.onMessage]
  split
  · obtain ⟨hnext, x, hx, hdue⟩ := h.scheduleRefresh hmounted
    have hnow : (LiveUpdates.scheduleRefresh s).now = s.now := by
      rw [LiveUpdates.scheduleRefresh]
      split <;> rfl
    have hmessages : (LiveUpdates.scheduleRefresh s).messages = s.messages := by
      rw [LiveUpdates.scheduleRefresh]
      split <;> rfl
    refine ⟨hnext.pending, hnext.past, fun t ht => ?_, hnext.spaced, fun hc t ht => ?_⟩
    · rcases List.mem_cons.mp ht with rfl | ht
      · exact hnow.ge
      · exact (h.asked t ht).trans hnow.ge
    · rcases List.mem_cons.mp ht with rfl | ht
      · exact .inr ⟨x, hx, hdue⟩
      · rw [← hmessages] at ht
        exact hnext.covered hc t ht
  · exact h

theorem Debounced.refresh (h : Debounced slack s) {x : Timer} (hx : x ∈ s.debounces) (hdue : x.due ≤ s.now) :
    Debounced slack (refresh { s with debounces := s.debounces.erase x }) := by
  obtain ⟨now, nextId, closed, ws, sockets, reconnects, debounces, reconnectTimer, debounceTimer, caches, loads,
    messages, refreshes, drops, served⟩ := s
  obtain ⟨hp, past, asked, spaced, covered⟩ := h
  change Pending slack now refreshes closed debounces debounceTimer at hp
  change x.due ≤ now at hdue
  cases hp with
  | idle => cases hx
  | armed y hsoon hlate hspaced =>
    cases List.mem_singleton.mp hx
    refine ⟨?_, ?_, asked, ?_, fun _ t ht => .inl ?_⟩
    · change Pending slack now (now :: refreshes) false ([x].erase x) none
      rw [List.erase_cons_head]
      exact .idle
    · intro r hr
      rcases List.mem_cons.mp hr with rfl | hr
      · exact le_rfl
      · exact past r hr
    · apply List.pairwise_cons.mpr
      refine ⟨fun r hr => ?_, spaced⟩
      exact (hspaced r hr).trans hdue
    · rcases covered rfl t ht with ⟨r, hr, hafter, hbefore⟩ | ⟨y, hy, hsoon⟩
      · exact ⟨r, List.mem_cons_of_mem now hr, hafter, hbefore⟩
      · cases List.mem_singleton.mp hy
        refine ⟨now, List.mem_cons_self, asked t ht, ?_⟩
        omega
  | gone => cases hx

theorem Debounced.unmount (h : Debounced slack s) : Debounced slack (unmount s) := by
  obtain ⟨now, nextId, closed, ws, sockets, reconnects, debounces, reconnectTimer, debounceTimer, caches, loads,
    messages, refreshes, drops, served⟩ := s
  obtain ⟨hp, past, asked, spaced, covered⟩ := h
  change Pending slack now refreshes closed debounces debounceTimer at hp
  refine ⟨?_, past, asked, spaced, fun hc => nomatch hc⟩
  have hnone : clearTimer debounceTimer (clearTimer reconnectTimer debounces) = [] := by
    cases hp with
    | idle => rfl
    | armed x hsoon hlate hspaced =>
      apply List.filter_eq_nil_iff.mpr
      intro y hy
      cases List.mem_singleton.mp (List.mem_of_mem_filter hy)
      simp
    | gone => rfl
  change Pending slack now refreshes true (clearTimer debounceTimer (clearTimer reconnectTimer debounces))
    debounceTimer
  rw [hnone]
  exact .gone _

theorem Debounced.same (h : Debounced slack s) (hsame : SameTimers s t) : Debounced slack t := by
  obtain ⟨hnow, hclosed, hdebounces, htimer, hmessages, hrefreshes⟩ := hsame
  obtain ⟨pending, past, asked, spaced, covered⟩ := h
  constructor
  · rw [hnow, hclosed, hdebounces, htimer, hrefreshes]
    exact pending
  · rw [hnow, hrefreshes]
    exact past
  · rw [hnow, hmessages]
    exact asked
  · rw [hrefreshes]
    exact spaced
  · rw [hclosed, hdebounces, hmessages, hrefreshes]
    exact covered

theorem Cached.Kept.later {c : Cached α} {now later : ℕ} {drops : List ℕ} (h : c.Kept now drops)
    (hle : now ≤ later) : c.Kept later drops := ⟨h.began, h.past.trans hle, h.kept⟩

theorem Served.Recent.later {v : Served α} {now later : ℕ} {drops : List ℕ} (h : v.Recent now drops)
    (hle : now ≤ later) : v.Recent later drops := ⟨h.began, h.past, h.time.trans hle, h.fresh, h.kept⟩

theorem Fresh.tick (h : Fresh s) (ms : ℕ) : Fresh { s with now := s.now + ms } := by
  have hle : s.now ≤ s.now + ms := Nat.le_add_right _ _
  refine ⟨fun r c hc => ?_, fun load hl => ?_, fun v hv => ?_, fun d hd => ?_, h.refreshed⟩
  · exact (h.caches r c hc).later hle
  · exact (h.loads load hl).trans hle
  · exact (h.served v hv).later hle
  · exact (h.dropped d hd).trans hle

theorem Fresh.invalidateCache (h : Fresh s) : Fresh (invalidateCache s) := by
  refine ⟨fun r c hc => (nomatch hc), h.loads, fun v hv => ?_, fun d hd => ?_, fun r hr => ?_⟩
  · obtain ⟨hbegan, hpast, htime, hfresh, hkept⟩ := h.served v hv
    refine ⟨hbegan, hpast, htime, hfresh, fun d hd hlt => ?_⟩
    rcases List.mem_cons.mp hd with rfl | hd
    · exact absurd htime hlt.not_ge
    · exact hkept d hd hlt
  · rcases List.mem_cons.mp hd with rfl | hd
    · exact le_rfl
    · exact h.dropped d hd
  · exact List.mem_cons_of_mem s.now (h.refreshed r hr)

theorem Fresh.refresh (h : Fresh s) : Fresh (refresh s) := by
  obtain ⟨hcaches, hloads, hserved, hdropped, hrefreshed⟩ := h.invalidateCache
  refine ⟨hcaches, hloads, hserved, hdropped, fun r hr => ?_⟩
  rcases List.mem_cons.mp hr with rfl | hr
  · exact List.mem_cons_self
  · exact hrefreshed r hr

theorem Fresh.serve (h : Fresh s) (r : Resource) {c : Cached α} (hc : c.Kept s.now s.drops)
    (hfresh : s.now < c.stamp + 4000) :
    ∀ v ∈ (⟨s.now, r, c⟩ : Served α) :: s.served, v.Recent s.now s.drops := by
  intro v hv
  rcases List.mem_cons.mp hv with rfl | hv
  · exact ⟨hc.began, hc.past, le_rfl, hfresh, fun d hd _ => hc.kept d hd⟩
  · exact h.served v hv

theorem Fresh.fetch (h : Fresh s) (r : Resource) : Fresh (fetch r s) := by
  rw [LiveUpdates.fetch]
  split
  · rename_i c hc
    obtain ⟨hcache, hage⟩ := Option.filter_eq_some_iff.mp hc
    have hfresh : s.now < c.stamp + 4000 := by
      have hage : (s.now : ℤ) - c.stamp < 4000 := of_decide_eq_true hage
      omega
    exact ⟨h.caches, h.loads, h.serve r (h.caches r c hcache) hfresh, h.dropped, h.refreshed⟩
  · refine ⟨h.caches, fun load hl => ?_, h.served, h.dropped, h.refreshed⟩
    rcases List.mem_cons.mp hl with rfl | hl
    · exact le_rfl
    · exact h.loads load hl

theorem Fresh.finish (h : Fresh s) {load : Load} (hl : load.began ≤ s.now) (rows : α) :
    Fresh (finish load rows s) := by
  have hkept : Cached.Kept ⟨load.began, s.now, rows⟩ s.now s.drops := ⟨hl, le_rfl, h.dropped⟩
  refine ⟨fun r c hc => ?_, h.loads, ?_, h.dropped, h.refreshed⟩
  · change Function.update s.caches load.resource _ r = some c at hc
    rw [Function.update_apply] at hc
    split at hc
    · cases hc
      exact hkept
    · exact h.caches r c hc
  · apply h.serve load.resource hkept
    change s.now < s.now + 4000
    omega

theorem Fresh.same (h : Fresh s) (hsame : SameRows s t) : Fresh t := by
  obtain ⟨hnow, hcaches, hloads, hrefreshes, hdrops, hserved⟩ := hsame
  obtain ⟨caches, loads, served, dropped, refreshed⟩ := h
  constructor
  · rw [hnow, hcaches, hdrops]
    exact caches
  · rw [hnow, hloads]
    exact loads
  · rw [hnow, hserved, hdrops]
    exact served
  · rw [hnow, hdrops]
    exact dropped
  · rw [hrefreshes, hdrops]
    exact refreshed

structure Live (slack : ℕ) (s : Screen α) : Prop where
  linked : Linked s
  debounced : Debounced slack s
  fresh : Fresh s

theorem Debounced.refreshed (h : Debounced slack s) (hs : s.closed = false) {m : ℕ} (hm : m ∈ s.messages)
    (hlate : m + 800 + slack < s.now) : ∃ r ∈ s.refreshes, m ≤ r ∧ r ≤ m + 800 + slack := by
  rcases h.covered hs m hm with hdone | ⟨x, hx, hsoon⟩
  · exact hdone
  · have hdue : s.now ≤ x.due + slack := h.pending.late hx
    omega

def dropped : List (Label ℕ) :=
  [.tick 100, .message 1 (some (.obj [("kind", .str "exception")])), .close ⟨1, false⟩, .fetch .exceptions,
    .tick 820, .debounced ⟨2, 900⟩, .loaded 0 7, .fetch .exceptions, .tick 2200, .reconnect ⟨3, 3100⟩ true]

end JvmScout.Dashboard.LiveUpdates
