import JvmScout.Collector.Alerts
import Mathlib.Data.List.Infix

namespace JvmScout.Alerts

open Storage Traverse

inductive Lookup where
  | found (addresses : List String)
  | osError
  | raises (e : PyError)

abbrev Resolver := ℕ → String → Lookup

/-- The parts of the standard library that the guard uses. `preset` is what `getaddrinfo`
says without asking the resolver: numeric addresses, and names it cannot encode. -/
structure AddressLibrary where
  Ip : Type
  hostname : String → Except PyError (Option String)
  ipAddress : String → Option Ip
  isGlobal : Ip → Bool
  preset : String → Option Lookup
  google : (ipAddress "8.8.8.8").any isGlobal = true
  loopback : (ipAddress "127.0.0.1").any isGlobal = false

variable (lib : AddressLibrary)

def isPublic (address : String) : Bool := (lib.ipAddress address).any lib.isGlobal

def getaddrinfo (resolver : Resolver) (n : ℕ) (host : String) : Lookup :=
  (lib.preset host).getD (resolver n host)

def destinationAllowed (allowPrivate : Bool) (resolver : Resolver) (url : String) : Except PyError Bool :=
  if allowPrivate then .ok true
  else do
    match ← lib.hostname url with
    | none => return false
    | some host =>
      if host = "" then return false
      else
        match getaddrinfo lib resolver 0 host with
        | .osError => return false
        | .raises e => throw e
        | .found addresses => return addresses.all (isPublic lib)

def httpDestination (rule : Dict) : Except PyError (Option String) := do
  let target ← Python.asText ((Dict.get rule "target").orElse (.str ""))
  let config ← ruleConfig rule
  let destination ← Python.asText ((Dict.get config "destination").orElse (.str (Python.strip target)))
  let destination := Python.strip destination
  if ← httpChannel (Dict.get rule "channel") then
    if isHttpUrl destination then return some destination else return none
  else return none

def postedUrl (net : Network) (rule : Dict) : Except PyError (Option String) := do
  match ← httpDestination rule with
  | none => return none
  | some url => if ← net.destinationAllowed url then return some url else return none

def guarded (resolver : Resolver) (post : String → Dict → Option ℕ) : Network :=
  ⟨destinationAllowed lib false resolver, post⟩

def ConnectsTo (resolver : Resolver) (url address : String) : Prop :=
  ∃ host addresses, lib.hostname url = .ok (some host) ∧ getaddrinfo lib resolver 1 host = .found addresses ∧
    address ∈ addresses

def GuardHolds (rule : Dict) : Prop :=
  ∀ resolver post url, postedUrl (guarded lib resolver post) rule = .ok (some url) →
    ∀ address, ConnectsTo lib resolver url address → isPublic lib address = true

def NeedsNoResolver (rule : Dict) : Prop :=
  ∀ url host, httpDestination rule = .ok (some url) → lib.hostname url = .ok (some host) → host ≠ "" →
    (lib.preset host).isSome = true

variable {lib}

theorem deliver_eq_postedUrl (net : Network) (rule payload : Dict) :
    deliver net rule payload =
      (postedUrl net rule).map fun url => url.any fun u => (net.post u payload).any fun status => decide (status < 400) := by
  unfold deliver postedUrl httpDestination
  cases Python.asText ((Dict.get rule "target").orElse (.str "")) with
  | error e => rfl
  | ok target =>
    cases hconfig : ruleConfig rule with
    | error e => rfl
    | ok config =>
      simp only [bind, Except.bind]
      cases Python.asText ((Dict.get config "destination").orElse (.str (Python.strip target))) with
      | error e => rfl
      | ok destination =>
        simp only
        cases httpChannel (Dict.get rule "channel") with
        | error e => rfl
        | ok channel =>
          cases channel with
          | false => rfl
          | true =>
            cases hurl : isHttpUrl (Python.strip destination) with
            | false => rfl
            | true =>
              simp only [if_true, pure, Except.pure]
              cases net.destinationAllowed (Python.strip destination) with
              | error e => rfl
              | ok allowed => cases allowed <;> rfl

theorem postedUrl_ok {net : Network} {rule : Dict} {url : String} :
    postedUrl net rule = .ok (some url) ↔ httpDestination rule = .ok (some url) ∧ net.destinationAllowed url = .ok true := by
  simp only [postedUrl, bind_eq_ok]
  constructor
  · rintro ⟨found, hfound, h⟩
    cases found with
    | none => cases h
    | some u =>
      obtain ⟨allowed, hallowed, h⟩ := bind_eq_ok.mp h
      cases allowed with
      | false => cases h
      | true =>
        cases h
        exact ⟨hfound, hallowed⟩
  · rintro ⟨hfound, hallowed⟩
    exact ⟨_, hfound, bind_eq_ok.mpr ⟨true, hallowed, rfl⟩⟩

theorem destinationAllowed_ok {resolver : Resolver} {url : String} :
    destinationAllowed lib false resolver url = .ok true ↔
      ∃ host addresses, lib.hostname url = .ok (some host) ∧ host ≠ "" ∧
        getaddrinfo lib resolver 0 host = .found addresses ∧ ∀ address ∈ addresses, isPublic lib address = true := by
  rw [destinationAllowed, if_neg Bool.false_ne_true, bind_eq_ok]
  constructor
  · rintro ⟨found, hfound, h⟩
    cases found with
    | none => cases h
    | some host =>
      by_cases hempty : host = ""
      · subst hempty
        cases h
      · simp only [if_neg hempty] at h
        cases hlookup : getaddrinfo lib resolver 0 host with
        | osError =>
          rw [hlookup] at h
          cases h
        | raises e =>
          rw [hlookup] at h
          cases h
        | found addresses =>
          rw [hlookup] at h
          exact ⟨host, addresses, hfound, hempty, hlookup, List.all_eq_true.mp (pure_eq_ok.mp h)⟩
  · rintro ⟨host, addresses, hfound, hempty, hlookup, hall⟩
    refine ⟨_, hfound, ?_⟩
    simp only [if_neg hempty, hlookup]
    exact pure_eq_ok.mpr (List.all_eq_true.mpr hall)

def rebinding : Resolver := fun n _ => if n = 0 then .found ["8.8.8.8"] else .found ["127.0.0.1"]

/-- The guard holds when the client connects exactly for the rules whose host is never looked up. -/
theorem guardHolds_iff (lib : AddressLibrary) (rule : Dict) : GuardHolds lib rule ↔ NeedsNoResolver lib rule := by
  constructor
  · intro h url host hurl hhost hempty
    by_contra hpreset
    rw [Bool.not_eq_true, Option.isSome_eq_false_iff, Option.isNone_iff_eq_none] at hpreset
    have hlookup (n : ℕ) : getaddrinfo lib rebinding n host = rebinding n host := by
      rw [getaddrinfo, hpreset, Option.getD_none]
    have hallowed : destinationAllowed lib false rebinding url = .ok true := by
      apply destinationAllowed_ok.mpr
      refine ⟨host, ["8.8.8.8"], hhost, hempty, hlookup 0, ?_⟩
      rw [List.forall_mem_singleton]
      exact lib.google
    have hposted : postedUrl (guarded lib rebinding fun _ _ => none) rule = .ok (some url) :=
      postedUrl_ok.mpr ⟨hurl, hallowed⟩
    have hpublic := h rebinding _ url hposted "127.0.0.1" ⟨host, ["127.0.0.1"], hhost, hlookup 1, List.mem_singleton_self _⟩
    rw [isPublic, lib.loopback] at hpublic
    cases hpublic
  · rintro h resolver post url hposted address ⟨host, addresses, hhost, hconnect, hmem⟩
    obtain ⟨hurl, hallowed⟩ := postedUrl_ok.mp hposted
    obtain ⟨host', addresses', hhost', hempty, hlookup, hpublic⟩ := destinationAllowed_ok.mp hallowed
    rw [hhost] at hhost'
    cases hhost'
    obtain ⟨answer, hpreset⟩ := Option.isSome_iff_exists.mp (h url host hurl hhost hempty)
    rw [getaddrinfo, hpreset, Option.getD_some] at hlookup hconnect
    rw [hconnect] at hlookup
    cases hlookup
    exact hpublic address hmem

def octet (digits : List Char) : Option ℕ :=
  if digits ≠ [] ∧ digits.all Char.isDigit = true then
    some (digits.foldl (fun n c => 10 * n + (c.toNat - 48)) 0)
  else none

def dotted : AddressLibrary where
  Ip := List ℕ
  hostname url := .ok (some (String.ofList (((url.toList.dropWhile (· ≠ '/')).drop 2).takeWhile fun c => c ≠ '/' ∧ c ≠ ':')))
  ipAddress s := ((s.toList.splitOn '.').mapM octet).filter fun ip => ip.length = 4
  isGlobal
    | 0 :: _ | 10 :: _ | 127 :: _ | 169 :: 254 :: _ | 192 :: 168 :: _ => false
    | 172 :: b :: _ => b < 16 ∨ 31 < b
    | _ => true
  preset host := if host.toList.all fun c => c.isDigit ∨ c = '.' then some (.found [host]) else none
  google := by decide
  loopback := by decide

def webhookRule : Dict :=
  [("channel", .str "webhook"), ("config", .obj [("destination", .str "https://hooks.example.com/x")])]

theorem rebound_host_reached :
    postedUrl (guarded dotted rebinding fun _ _ => some 200) webhookRule = .ok (some "https://hooks.example.com/x") ∧
      ConnectsTo dotted rebinding "https://hooks.example.com/x" "127.0.0.1" ∧
      isPublic dotted "127.0.0.1" = false := by
  have hurl : httpDestination webhookRule = .ok (some "https://hooks.example.com/x") := rfl
  have hhost : dotted.hostname "https://hooks.example.com/x" = .ok (some "hooks.example.com") := rfl
  refine ⟨postedUrl_ok.mpr ⟨hurl, destinationAllowed_ok.mpr ?_⟩, ?_, dotted.loopback⟩
  · exact ⟨"hooks.example.com", ["8.8.8.8"], hhost, by decide, rfl, List.forall_mem_singleton.mpr dotted.google⟩
  · exact ⟨"hooks.example.com", ["127.0.0.1"], hhost, rfl, List.mem_singleton_self _⟩

end JvmScout.Alerts
