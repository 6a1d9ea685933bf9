/-!
# Values by key

Lists of keys with values, in the order in which the keys came.
-/

namespace Kconfig

/-- Sets the value of a key, at its position or at the end. -/
def setValue {κ α : Type} [DecidableEq κ] (key : κ) (value : α) : List (κ × α) → List (κ × α)
  | [] => [(key, value)]
  | (k, v) :: others =>
    if k = key then (key, value) :: others else (k, v) :: setValue key value others

/-- Sets values one after the other, so that of those with one key the last one counts. -/
def setValues {κ α : Type} [DecidableEq κ] (known values : List (κ × α)) : List (κ × α) :=
  values.foldl (fun known (key, value) => setValue key value known) known

end Kconfig
