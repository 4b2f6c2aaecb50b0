import LogShipper.Text.Basic

/-!
# Severities

The five severity classes, their order, their names on the wire, and the words of other logging
systems that are read as one of them.
-/

namespace LogShipper

/-- How serious an event is. -/
inductive Severity where
  | trace
  | debug
  | info
  | warn
  | error
deriving DecidableEq, Repr, Inhabited

namespace Severity

/-- The place of the class in the order, from the least serious one. -/
def rank : Severity → Nat
  | .trace => 0
  | .debug => 1
  | .info => 2
  | .warn => 3
  | .error => 4

instance : LE Severity := ⟨fun s t => s.rank ≤ t.rank⟩

instance (s t : Severity) : Decidable (s ≤ t) := inferInstanceAs (Decidable (s.rank ≤ t.rank))

theorem le_antisymm {s t : Severity} (h : s ≤ t) (h' : t ≤ s) : s = t := by
  have hrank : s.rank = t.rank := Nat.le_antisymm h h'
  cases s <;> cases t <;> simp_all [rank]

/-- All classes in their order. -/
def all : List Severity := [.trace, .debug, .info, .warn, .error]

/-- The name of the class. -/
def name : Severity → Text
  | .trace => "TRACE"
  | .debug => "DEBUG"
  | .info => "INFO"
  | .warn => "WARN"
  | .error => "ERROR"

theorem name_injective {s t : Severity} (h : s.name = t.name) : s = t := by
  revert h
  cases s <;> cases t <;> decide

/-- The words that stand for each class, in upper case. -/
def words : Severity → List Text
  | .trace => ["TRACE", "FINEST", "FINER"]
  | .debug => ["DEBUG", "FINE"]
  | .info => ["INFO", "CONFIG"]
  | .warn => ["WARN", "WARNING"]
  | .error => ["ERROR", "SEVERE", "FATAL", "CRITICAL"]

/-- The class whose name is the given text. -/
def ofName? (t : Text) : Option Severity := all.find? fun s => s.name = t

/-- The class that a word stands for, in any ASCII case and with blanks around it. -/
def ofWord? (word : Text) : Option Severity :=
  all.find? fun s => s.words.contains word.trim.upper

/-- The complaint about a word that stands for no class. -/
def unknownMessage (word : Text) : Text := "unknown severity '" ++ word.trim.upper ++ "'"

/-- The severities from the least to the most serious, equal ones in their given order. -/
def sort (severities : List Severity) : List Severity :=
  severities.mergeSort fun s t => decide (s ≤ t)

@[simp] theorem ofName?_name (s : Severity) : ofName? s.name = some s := by
  cases s <;> decide

@[simp] theorem ofWord?_name (s : Severity) : ofWord? s.name = some s := by
  cases s <;> decide

end Severity

end LogShipper
