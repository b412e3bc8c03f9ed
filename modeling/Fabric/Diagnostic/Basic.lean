/-!
# Diagnostics

What a device model reports while it is built and packed. A record has a severity, a code,
a message, and optionally the name of the resource it is about, with notes and suggestions.

A code is the letter of its category and a number of at least three digits, such as `D001`.
-/

namespace Fabric

/-- How serious a record is. -/
inductive Severity where
  /-- Detailed tracing, kept only on request. -/
  | debug
  /-- Progress. -/
  | info
  /-- A recoverable problem that should be reviewed. -/
  | warning
  /-- A definite problem. -/
  | error
  deriving DecidableEq, Inhabited, Repr

namespace Severity

/-- All severities, from the least to the most serious. -/
def all : List Severity := [.debug, .info, .warning, .error]

/-- The place of a severity in the order of seriousness. -/
def rank : Severity → Nat
  | .debug => 0
  | .info => 1
  | .warning => 2
  | .error => 3

instance : LT Severity := ⟨fun a b => a.rank < b.rank⟩

instance (a b : Severity) : Decidable (a < b) := inferInstanceAs (Decidable (a.rank < b.rank))

/-- The word for a severity. -/
def name : Severity → String
  | .debug => "debug"
  | .info => "info"
  | .warning => "warning"
  | .error => "error"

/-- The terminal colour of a severity: the parameter of its escape sequence. -/
def colour : Severity → Nat
  | .debug => 2
  | .info => 36
  | .warning => 33
  | .error => 31

/-- Whether a record is shown. Errors always are; asking for quiet wins over
asking for detail. -/
def isShown (quiet verbose : Bool) : Severity → Bool
  | .error => true
  | .warning => !quiet
  | .info | .debug => verbose && !quiet

end Severity

/-- The part of the model that a record comes from. -/
inductive Category where
  /-- Construction of the model. -/
  | device
  /-- Packing legality and control sets. -/
  | packing
  /-- Route reservations. -/
  | routing
  /-- Configuration and its side tables. -/
  | config
  deriving DecidableEq, Inhabited, Repr

namespace Category

/-- All categories. -/
def all : List Category := [.device, .packing, .routing, .config]

/-- The name of a category. -/
def name : Category → String
  | .device => "Device"
  | .packing => "Packing"
  | .routing => "Routing"
  | .config => "Config"

/-- The letter that starts the codes of a category. -/
def letter : Category → Char
  | .device => 'D'
  | .packing => 'P'
  | .routing => 'R'
  | .config => 'C'

end Category

/-- The kind of a record: a category and a number within it. -/
structure DiagnosticCode where
  category : Category
  number : Nat
  deriving DecidableEq, Inhabited, Repr

/-- The text of a code: the letter of the category and at least three digits. -/
def DiagnosticCode.text (c : DiagnosticCode) : String :=
  let digits := Nat.toDigits 10 c.number
  String.ofList (c.category.letter :: List.replicate (3 - digits.length) '0' ++ digits)

/-- One record. -/
structure Diagnostic where
  severity : Severity
  code : DiagnosticCode
  message : String
  /-- The name of the resource that the record is about. -/
  subject : Option String := none
  notes : List String := []
  help : List String := []
  deriving Inhabited, Repr

namespace Diagnostic

/-- The severity as a label, in bold and in its colour if colours are wanted. -/
def label (d : Diagnostic) (color : Bool) : String :=
  if color then s!"\x1b[1;{d.severity.colour}m{d.severity.name}\x1b[0m" else d.severity.name

/-- The lines shown for a record on a terminal. -/
def render (d : Diagnostic) (color : Bool) : String :=
  let headline := s!"{d.label color}[{d.code.text}]: {d.message}\n"
  let subject := match d.subject with
    | some name => s!"  --> {name}\n"
    | none => ""
  let notes := d.notes.map fun note => s!"   = note: {note}\n"
  let help := d.help.map fun text => s!"   = help: {text}\n"
  headline ++ subject ++ String.join notes ++ String.join help

end Diagnostic

/-! ### The records a device model makes -/

namespace DiagnosticCode

/-- The sites of a new model were created. -/
def sites : DiagnosticCode := ⟨.device, 1⟩

/-- The routing of the chip was imported. -/
def routing : DiagnosticCode := ⟨.device, 2⟩

/-- A control signal was given a shared wire. -/
def controlSlot : DiagnosticCode := ⟨.packing, 1⟩

/-- A model was prepared for routing. -/
def preRoute : DiagnosticCode := ⟨.packing, 2⟩

/-- A route was reserved. -/
def reservation : DiagnosticCode := ⟨.routing, 1⟩

/-- A port is constrained to a pin that the package lacks. -/
def packagePin : DiagnosticCode := ⟨.config, 1⟩

end DiagnosticCode

end Fabric
