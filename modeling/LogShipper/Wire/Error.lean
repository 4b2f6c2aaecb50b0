import LogShipper.Text.Basic

/-!
# Lines that cannot be written

A part that every line of a kind carries may not be empty.
-/

namespace LogShipper.Wire

/-- Why a line cannot be written. -/
inductive LineError where
  | emptyEntity
  | emptyKey
  | emptyLabel
deriving DecidableEq, Repr

/-- The wording of the error. -/
def LineError.message : LineError → Text
  | .emptyEntity => "cannot render line with empty entity"
  | .emptyKey => "cannot render line with empty key"
  | .emptyLabel => "cannot render line with empty label"

end LogShipper.Wire
