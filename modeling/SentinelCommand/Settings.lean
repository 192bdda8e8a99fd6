import Mathlib.Init

/-
  The `settings` table as a key/value store.

  A pair (organization, key) is read as the row the lookup
  finds. A row with a NULL value reads like no row here,
  since no reader of the model tells them apart.

  Key definitions include:
    * `Settings.get`
    * `Settings.set`
-/

namespace SentinelCommand

abbrev Settings : Type :=
  String → String → Option String

namespace Settings

/- `settings::get` with a default. -/
def get
    (settings : Settings)
    (orgId key default : String) : String :=
  (settings orgId key).getD default

/- The row after `settings::set` has succeeded. -/
def set
    (settings : Settings)
    (orgId key value : String) : Settings :=
  fun org k =>
    if org = orgId ∧ k = key then
      some value
    else
      settings org k

@[simp] theorem set_self
    (settings : Settings)
    (orgId key value : String) :
    (settings.set orgId key value) orgId key = some value := by
  simp [set]

/- Another row is left alone. -/
theorem set_of_ne
    (settings : Settings)
    {orgId key org k : String}
    (value : String)
    (hOther : ¬ (org = orgId ∧ k = key)) :
    (settings.set orgId key value) org k = settings org k := by
  simp [set, hOther]

end Settings

end SentinelCommand
