import JvmScout.Lib.TableFrames

namespace Relational.Table

variable {ρ : Type*} {q c : ρ → Bool}

def shown (q : ρ → Bool) (t : Table ρ) : List ρ := (t.select q).map Prod.snd

theorem Agree.shown {t u : Table ρ} (h : Agree q t u) : t.shown q = u.shown q := by
  rw [Table.shown, Table.shown, h.select]

section Found

variable {t : Table ρ} {k : ℕ} {w : ρ}

end Found

end Relational.Table

namespace Relational.UniqueTable

variable {ρ κ : Type*} {column : ρ → κ} [DecidableEq κ]

end Relational.UniqueTable
