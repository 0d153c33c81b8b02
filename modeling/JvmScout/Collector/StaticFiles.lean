import JvmScout.Lib.PosixPath

namespace JvmScout.StaticFiles

open PosixPath

/-- The file system as `os.path.isfile` sees it: the root is a directory, and nothing is
below a file. -/
structure FileSystem where
  isFile : Path → Bool
  root : ∀ p, components p = [] → isFile p = false
  leaf : ∀ p name, isFile p = true → name.head? ≠ some '/' → isFile (join p name) = false

def shellName : Path := "_shell.html".toList

def shell (uiDir : Path) : Path := join uiDir shellName

structure UiDir (fs : FileSystem) where
  path : Path
  absolute : IsAbsolute path
  normalised : normpath path = path
  shell_isFile : fs.isFile (shell path) = true

def candidate (uiDir fullPath : Path) : Path := normpath (join uiDir fullPath)

def spaFallback (fs : FileSystem) (uiDir fullPath : Path) : Path :=
  if fullPath ≠ [] ∧ uiDir <+: candidate uiDir fullPath ∧ fs.isFile (candidate uiDir fullPath) = true then
    candidate uiDir fullPath
  else shell uiDir

variable {fs : FileSystem}

def Contained (fs : FileSystem) (uiDir fullPath : Path) : Prop :=
  spaFallback fs uiDir fullPath = shell uiDir ∨ Inside uiDir (spaFallback fs uiDir fullPath)

def NamedBeside (fs : FileSystem) (uiDir fullPath : Path) : Prop :=
  fullPath ≠ [] ∧ fs.isFile (candidate uiDir fullPath) = true ∧ uiDir.getLast? ≠ some '/' ∧
    ∃ c rest, c ≠ '/' ∧ candidate uiDir fullPath = uiDir ++ c :: rest

theorem UiDir.not_isFile (ui : UiDir fs) : fs.isFile ui.path = false := by
  cases hfile : fs.isFile ui.path with
  | false => rfl
  | true =>
    have hshell := fs.leaf ui.path shellName hfile (by decide)
    rw [← shell, ui.shell_isFile] at hshell
    cases hshell

theorem UiDir.normal (ui : UiDir fs) : Normal ui.path := by
  rw [← ui.normalised]
  exact normal_normpath ui.absolute

theorem UiDir.normal_candidate (ui : UiDir fs) (fullPath : Path) : Normal (candidate ui.path fullPath) :=
  normal_normpath (isAbsolute_join ui.absolute fullPath)

theorem shell_eq (ui : UiDir fs) (h : ui.path.getLast? ≠ some '/') : shell ui.path = ui.path ++ '/' :: shellName := by
  obtain ⟨rest, hpath⟩ := List.head?_eq_some_iff.mp ui.absolute
  unfold shell join
  rw [if_neg (by decide), if_neg]
  rw [not_or]
  exact ⟨by simp [hpath], h⟩

/-- What the route returns is the shell or lies inside the UI directory, unless the candidate
is a file of a sibling whose name extends the directory's. -/
theorem contained_iff (ui : UiDir fs) (fullPath : Path) :
    Contained fs ui.path fullPath ↔ ¬ NamedBeside fs ui.path fullPath := by
  by_cases hserved : fullPath ≠ [] ∧ ui.path <+: candidate ui.path fullPath ∧
      fs.isFile (candidate ui.path fullPath) = true
  · obtain ⟨hfull, hpre, hfile⟩ := hserved
    have hreturned : spaFallback fs ui.path fullPath = candidate ui.path fullPath := if_pos ⟨hfull, hpre, hfile⟩
    have hroot : components (candidate ui.path fullPath) ≠ [] := by
      intro hempty
      rw [fs.root _ hempty] at hfile
      cases hfile
    have hne : candidate ui.path fullPath ≠ ui.path := by
      intro heq
      rw [heq, ui.not_isFile] at hfile
      cases hfile
    have hinside := ui.normal.not_inside_iff (ui.normal_candidate fullPath) hroot hpre hne
    rw [Contained, hreturned]
    constructor
    · rintro hcontained ⟨-, -, hlast, c, rest, hc, heq⟩
      apply hcontained.elim
      · intro hshell
        rw [heq, shell_eq ui hlast] at hshell
        exact hc (List.cons.inj (List.append_cancel_left hshell)).1
      · exact hinside.mpr ⟨hlast, c, rest, hc, heq⟩
    · intro hbeside
      by_contra hcontained
      have hout := hinside.mp fun h => hcontained (.inr h)
      exact hbeside ⟨hfull, hfile, hout⟩
  · have hreturned : spaFallback fs ui.path fullPath = shell ui.path := if_neg hserved
    refine iff_of_true (.inl hreturned) ?_
    rintro ⟨hfull, hfile, -, c, rest, -, heq⟩
    apply hserved
    refine ⟨hfull, ?_, hfile⟩
    rw [heq]
    exact List.prefix_append _ _

def twoFiles : FileSystem where
  isFile p := p = "/srv/ui/_shell.html".toList ∨ p = "/srv/ui-old/key".toList
  root p h := by
    apply decide_eq_false
    rintro (rfl | rfl)
    · exact absurd h (by decide)
    · exact absurd h (by decide)
  leaf p name h hname := by
    have hlonger {p q : Path} (hp : ¬ p <+: q) : p ++ '/' :: name ≠ q := fun heq => hp ⟨_, heq⟩
    have hself (p : Path) : p ++ '/' :: name ≠ p := fun heq => by simp at heq
    apply decide_eq_false
    rcases of_decide_eq_true h with rfl | rfl
    · rw [join, if_neg hname, if_neg (by decide), not_or]
      exact ⟨hself _, hlonger (by decide)⟩
    · rw [join, if_neg hname, if_neg (by decide), not_or]
      exact ⟨hlonger (by decide), hself _⟩

def uiOfTwo : UiDir twoFiles := ⟨"/srv/ui".toList, rfl, by decide, by decide⟩

theorem sibling_file_served :
    ¬ Contained twoFiles uiOfTwo.path "../ui-old/key".toList ∧
      spaFallback twoFiles uiOfTwo.path "../ui-old/key".toList = "/srv/ui-old/key".toList := by
  have hserved : spaFallback twoFiles uiOfTwo.path "../ui-old/key".toList = "/srv/ui-old/key".toList := by
    decide
  refine ⟨fun hcontained => ?_, hserved⟩
  rw [Contained, hserved] at hcontained
  apply hcontained.elim
  · decide
  · exact fun hinside => absurd hinside.1 (by decide)

end JvmScout.StaticFiles
