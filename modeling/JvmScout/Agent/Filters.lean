import JvmScout.Agent.Settings

namespace JvmScout.Agent

structure DenyAllowFilter where
  deny : List Bytes
  allow : List Bytes

def matchesAny (sig : Bytes) (patterns : List Bytes) : Bool := patterns.any fun p => p ≠ [] && decide (p <:+: sig)

def DenyAllowFilter.accept (f : DenyAllowFilter) (classSignature : Bytes) : Bool :=
  if f.allow ≠ [] ∧ matchesAny classSignature f.allow = false then false
  else if matchesAny classSignature f.deny then false
  else true

def locationFilter (cfg : AgentSettings) : DenyAllowFilter := ⟨cfg.locationDeny, cfg.capturePackages⟩

structure Segment where
  text : Bytes
  nonempty : text ≠ []
  noDot : '.'.toUInt8 ∉ text
  noSlash : '/'.toUInt8 ∉ text
  deriving DecidableEq

def qualified (sep : UInt8) (segments : List Segment) : Bytes := [sep].intercalate (segments.map Segment.text)

structure PackageName where
  segments : List Segment
  nonempty : segments ≠ []
  dotted : Bool

def PackageName.text (p : PackageName) : Bytes := qualified (if p.dotted then '.'.toUInt8 else '/'.toUInt8) p.segments

def PackageName.undotted (p : PackageName) : Prop := p.dotted = false ∨ p.segments.length = 1

structure ClassName where
  packages : List Segment
  simple : Segment

def ClassName.text (c : ClassName) : Bytes := qualified '/'.toUInt8 (c.packages ++ [c.simple])

def PackageName.Contains (p : PackageName) (c : ClassName) : Prop := p.segments <+: c.packages

theorem qualified_append (sep : UInt8) {a b : List Segment} (ha : a ≠ []) (hb : b ≠ []) :
    qualified sep (a ++ b) = qualified sep a ++ sep :: qualified sep b := by
  induction a with
  | nil => exact absurd rfl ha
  | cons s a ih =>
    cases a with
    | nil =>
      rw [qualified, List.singleton_append, List.map_cons, List.intercalate_cons_of_ne_nil (by simpa using hb)]
      simp [qualified]
    | cons t a =>
      have htail := ih (List.cons_ne_nil t a)
      rw [qualified] at htail ⊢
      simp only [List.cons_append, List.map_cons, List.intercalate_cons_cons] at htail ⊢
      rw [htail]
      simp [qualified]

theorem qualified_cons (sep : UInt8) (s : Segment) {a : List Segment} (ha : a ≠ []) :
    qualified sep (s :: a) = s.text ++ sep :: qualified sep a := by
  have hsplit := qualified_append sep (List.cons_ne_nil s []) ha
  rw [List.singleton_append] at hsplit
  rw [hsplit]
  simp [qualified]

theorem qualified_ne_nil (sep : UInt8) {a : List Segment} (ha : a ≠ []) : qualified sep a ≠ [] := by
  cases a with
  | nil => exact absurd rfl ha
  | cons s a =>
    cases a with
    | nil => simpa [qualified] using s.nonempty
    | cons t a =>
      rw [qualified_cons sep s (List.cons_ne_nil t a)]
      simp

theorem not_mem_qualified {sep b : UInt8} (hsep : b ≠ sep) {a : List Segment} (ha : ∀ s ∈ a, b ∉ s.text) :
    b ∉ qualified sep a := by
  induction a with
  | nil => exact List.not_mem_nil
  | cons s a ih =>
    rw [List.forall_mem_cons] at ha
    cases a with
    | nil => simpa [qualified] using ha.1
    | cons t a =>
      rw [qualified_cons sep s (List.cons_ne_nil t a), List.mem_append, List.mem_cons, not_or, not_or]
      exact ⟨ha.1, hsep, ih ha.2⟩

theorem qualified_one (sep sep' : UInt8) {a : List Segment} (ha : a.length = 1) : qualified sep a = qualified sep' a := by
  obtain ⟨s, rfl⟩ := List.length_eq_one_iff.mp ha
  simp [qualified]

theorem mem_qualified (sep : UInt8) {a : List Segment} (ha : 1 < a.length) : sep ∈ qualified sep a := by
  cases a with
  | nil => simp at ha
  | cons s a =>
    cases a with
    | nil => simp at ha
    | cons t a =>
      rw [qualified_cons sep s (List.cons_ne_nil t a)]
      exact List.mem_append_right _ List.mem_cons_self

theorem ClassName.noDot (c : ClassName) : '.'.toUInt8 ∉ c.text :=
  not_mem_qualified (by decide) fun s _ => s.noDot

theorem PackageName.Contains.occurs {p : PackageName} {c : ClassName} (h : p.Contains c) (hp : p.undotted) :
    p.text <:+: c.text := by
  obtain ⟨nested, hnested⟩ := h
  have htext : p.text = qualified '/'.toUInt8 p.segments := by
    rcases hp with hslash | hone
    · rw [text, hslash]
      rfl
    · exact qualified_one _ _ hone
  have hrest : nested ++ [c.simple] ≠ [] := List.append_ne_nil_of_right_ne_nil _ (List.cons_ne_nil _ _)
  refine ⟨[], '/'.toUInt8 :: qualified '/'.toUInt8 (nested ++ [c.simple]), ?_⟩
  rw [List.nil_append, htext, ClassName.text, ← hnested, List.append_assoc, ← qualified_append _ p.nonempty hrest]

theorem PackageName.undotted_of_occurs {p : PackageName} {c : ClassName} (h : p.text <:+: c.text) : p.undotted := by
  by_contra hdotted
  obtain ⟨hslash, hone⟩ := not_or.mp hdotted
  have hpos : 0 < p.segments.length := List.length_pos_of_ne_nil p.nonempty
  have hdot : '.'.toUInt8 ∈ p.text := by
    rw [text, if_pos (by simpa using hslash)]
    apply mem_qualified
    omega
  exact c.noDot (h.subset hdot)

theorem matchesAny_iff {sig : Bytes} {patterns : List Bytes} :
    matchesAny sig patterns = true ↔ ∃ p ∈ patterns, p ≠ [] ∧ p <:+: sig := by
  simp [matchesAny]

theorem accept_iff {cfg : AgentSettings} {ps : List PackageName} {c : ClassName}
    (hpackages : cfg.capturePackages = ps.map PackageName.text) (hps : ps ≠ [])
    (hdeny : ∀ pat ∈ cfg.locationDeny, pat ≠ [] → ¬ pat <:+: c.text) :
    (locationFilter cfg).accept c.text = true ↔ ∃ p ∈ ps, p.text <:+: c.text := by
  have hnotDenied : ¬ matchesAny c.text cfg.locationDeny = true := by
    rw [matchesAny_iff]
    rintro ⟨pat, hpat, hne, hinfix⟩
    exact hdeny pat hpat hne hinfix
  have hallowed : matchesAny c.text cfg.capturePackages = true ↔ ∃ p ∈ ps, p.text <:+: c.text := by
    rw [matchesAny_iff, hpackages]
    constructor
    · rintro ⟨_, hmem, -, hinfix⟩
      obtain ⟨p, hp, rfl⟩ := List.mem_map.mp hmem
      exact ⟨p, hp, hinfix⟩
    · rintro ⟨p, hp, hinfix⟩
      exact ⟨p.text, List.mem_map_of_mem hp, qualified_ne_nil _ p.nonempty, hinfix⟩
  have hnonempty : cfg.capturePackages ≠ [] := by
    rw [hpackages]
    simpa using hps
  rw [← hallowed, locationFilter, DenyAllowFilter.accept]
  dsimp only
  rw [if_neg hnotDenied]
  cases matchesAny c.text cfg.capturePackages <;> simp [hnonempty]

/-- The filter selects by packages exactly where the class is in a listed package written without
dots, or in none while no such package occurs anywhere in its name, or only in packages written
with dots while another listed one happens to occur in its name. -/
theorem capture_packages_iff (cfg : AgentSettings) (ps : List PackageName) (c : ClassName)
    (hpackages : cfg.capturePackages = ps.map PackageName.text) (hps : ps ≠ [])
    (hdeny : ∀ pat ∈ cfg.locationDeny, pat ≠ [] → ¬ pat <:+: c.text) :
    ((locationFilter cfg).accept c.text = true ↔ ∃ p ∈ ps, p.Contains c) ↔
      (∃ p ∈ ps, p.undotted ∧ p.Contains c) ∨
        (∀ p ∈ ps, ¬ p.Contains c ∧ (p.undotted → ¬ p.text <:+: c.text)) ∨
          (∀ p ∈ ps, p.undotted → ¬ p.Contains c) ∧ (∃ p ∈ ps, p.Contains c) ∧
            ∃ q ∈ ps, q.undotted ∧ q.text <:+: c.text := by
  rw [accept_iff hpackages hps hdeny]
  constructor
  · intro hsame
    by_cases hown : ∃ p ∈ ps, p.undotted ∧ p.Contains c
    · exact .inl hown
    · refine .inr ?_
      by_cases hin : ∃ p ∈ ps, p.Contains c
      · obtain ⟨q, hq, hoccurs⟩ := hsame.mpr hin
        refine .inr ⟨?_, hin, q, hq, PackageName.undotted_of_occurs hoccurs, hoccurs⟩
        exact fun p hp hundotted hcontains => hown ⟨p, hp, hundotted, hcontains⟩
      · refine .inl fun p hp => ⟨fun hcontains => hin ⟨p, hp, hcontains⟩, fun _ hoccurs => ?_⟩
        exact hin (hsame.mp ⟨p, hp, hoccurs⟩)
  · rintro (⟨p, hp, hundotted, hcontains⟩ | hnone | ⟨-, hin, q, hq, -, hoccurs⟩)
    · exact iff_of_true ⟨p, hp, hcontains.occurs hundotted⟩ ⟨p, hp, hcontains⟩
    · apply iff_of_false
      · rintro ⟨p, hp, hoccurs⟩
        exact (hnone p hp).2 (PackageName.undotted_of_occurs hoccurs) hoccurs
      · rintro ⟨p, hp, hcontains⟩
        exact (hnone p hp).1 hcontains
    · exact iff_of_true ⟨q, hq, hoccurs⟩ hin

def segmentCom : Segment := ⟨[0x63, 0x6F, 0x6D], by decide, by decide, by decide⟩

def segmentAcme : Segment := ⟨[0x61, 0x63, 0x6D, 0x65], by decide, by decide, by decide⟩

def segmentFoo : Segment := ⟨[0x46, 0x6F, 0x6F], by decide, by decide, by decide⟩

def packageAcme : PackageName := ⟨[segmentCom, segmentAcme], by decide, true⟩

def classFoo : ClassName := ⟨[segmentCom, segmentAcme], segmentFoo⟩

def packageAcmeSlashed : PackageName := ⟨[segmentCom, segmentAcme], by decide, false⟩

theorem capture_packages_iff_slashed :
    (locationFilter (applyKv (fun _ => none) Key.capturePackages.name packageAcmeSlashed.text defaultSettings)).accept
      classFoo.text = true := by
  have hfilter := capture_packages_iff
    (applyKv (fun _ => none) Key.capturePackages.name packageAcmeSlashed.text defaultSettings) [packageAcmeSlashed]
    classFoo (by decide) (by decide) (by decide)
  have hcontains : packageAcmeSlashed.Contains classFoo := List.prefix_rfl
  apply (hfilter.mpr (.inl ⟨packageAcmeSlashed, List.mem_cons_self, .inl rfl, hcontains⟩)).mpr
  exact ⟨packageAcmeSlashed, List.mem_cons_self, hcontains⟩

def acmeSettings : AgentSettings := applyKv (fun _ => none) Key.capturePackages.name packageAcme.text defaultSettings

theorem capture_packages_misses :
    ¬ ∀ (cfg : AgentSettings) (ps : List PackageName) (c : ClassName),
      cfg.capturePackages = ps.map PackageName.text → ps ≠ [] →
      (∀ pat ∈ cfg.locationDeny, pat ≠ [] → ¬ pat <:+: c.text) →
      ((locationFilter cfg).accept c.text = true ↔ ∃ p ∈ ps, p.Contains c) := by
  intro h
  have hfilter := h acmeSettings [packageAcme] classFoo (by decide) (by decide) (by decide)
  have hrejected : ¬ (locationFilter acmeSettings).accept classFoo.text = true := by decide
  exact hrejected (hfilter.mpr ⟨packageAcme, List.mem_cons_self, List.prefix_rfl⟩)

end JvmScout.Agent
