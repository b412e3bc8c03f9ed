import Fabric.Diagnostic.Basic

/-!
# Collecting diagnostics

A sink keeps records in the order in which they were emitted, and counts them by severity.
Debug records are dropped, and not counted, unless the sink is verbose. Taking the records
empties the list and leaves the counts, so the counts are about the whole life of the sink.

## Main results

* `count_emit` — a kept record adds one to the count of its severity and to no other;
* `count_take` — taking the records changes no count.
-/

namespace Fabric

/-- The records emitted so far that were not taken, and how many there ever were. -/
structure Sink where
  verbose : Bool := false
  records : Array Diagnostic := #[]
  debugs : Nat := 0
  infos : Nat := 0
  warnings : Nat := 0
  errors : Nat := 0
  deriving Inhabited

namespace Sink

/-- How many records of a severity were kept so far. -/
def count (s : Sink) : Severity → Nat
  | .debug => s.debugs
  | .info => s.infos
  | .warning => s.warnings
  | .error => s.errors

/-- Whether a record of this severity is kept. -/
def keeps (s : Sink) (severity : Severity) : Bool := severity != .debug || s.verbose

/-- Adds a record. -/
def emit (s : Sink) (d : Diagnostic) : Sink :=
  match d.severity with
  | .debug =>
    if s.verbose then { s with records := s.records.push d, debugs := s.debugs + 1 } else s
  | .info => { s with records := s.records.push d, infos := s.infos + 1 }
  | .warning => { s with records := s.records.push d, warnings := s.warnings + 1 }
  | .error => { s with records := s.records.push d, errors := s.errors + 1 }

/-- Removes the stored records. -/
def take (s : Sink) : Array Diagnostic × Sink := (s.records, { s with records := #[] })

/-- Whether an error was ever emitted. -/
def hasErrors (s : Sink) : Bool := 0 < s.errors

/-- A count with its noun in the singular or plural. -/
def tally (n : Nat) (noun : String) : String := if n = 1 then s!"1 {noun}" else s!"{n} {noun}s"

/-- A line such as `1 error, 2 warnings`, unless there was neither. -/
def summary? (s : Sink) : Option String :=
  let counted := [(s.errors, "error"), (s.warnings, "warning")].filter (0 < ·.1)
  if counted.isEmpty then none
  else some (", ".intercalate (counted.map fun (n, noun) => tally n noun))

/-- A one-line description of the sink. -/
def describe (s : Sink) : String :=
  s!"DiagnosticSink \x7b errors: {s.errors}, warnings: {s.warnings}, verbose: {s.verbose} \x7d"

/-! ### Counts -/

/-- A kept record adds one to the count of its severity and to no other. -/
theorem count_emit (s : Sink) (d : Diagnostic) (severity : Severity) :
    (s.emit d).count severity =
      s.count severity + if d.severity = severity ∧ s.keeps severity then 1 else 0 := by
  cases h : d.severity <;> cases severity <;> cases hv : s.verbose <;>
    simp [emit, count, keeps, h, hv]

/-- Taking the records changes no count. -/
theorem count_take (s : Sink) (severity : Severity) :
    s.take.2.count severity = s.count severity := by
  cases severity <;> rfl

end Sink

end Fabric
