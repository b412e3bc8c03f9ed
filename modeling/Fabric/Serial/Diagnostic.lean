import Fabric.Diagnostic.Basic
import Fabric.Json.Codec

/-!
# Serial form of diagnostics

A diagnostic is a record; only its subject may be left out. The number of a code has 16 bits.
-/

namespace Fabric

open Json (alternative? field? ofFields word?)

/-- The tag of a severity. -/
def Severity.tag : Severity → String
  | .debug => "Debug"
  | .info => "Info"
  | .warning => "Warning"
  | .error => "Error"

instance : ToJson Severity := ⟨fun s => toJson s.tag⟩

instance : FromJson Severity := ⟨alternative? Severity.all Severity.tag, none⟩

instance : ToJson Category := ⟨fun c => toJson c.name⟩

instance : FromJson Category := ⟨alternative? Category.all Category.name, none⟩

instance : ToJson DiagnosticCode :=
  ⟨fun c => ofFields [("category", toJson c.category), ("number", toJson c.number)]⟩

instance : FromJson DiagnosticCode where
  ofJson? j := do
    let [category, number] ← j.record? ["category", "number"] | none
    return ⟨← field? category, ← number.bind (word? 16)⟩

instance : ToJson Diagnostic where
  toJson d := ofFields
    [("severity", toJson d.severity), ("code", toJson d.code), ("message", toJson d.message),
      ("subject", toJson d.subject), ("notes", toJson d.notes), ("help", toJson d.help)]

instance : FromJson Diagnostic where
  ofJson? j := do
    let [severity, code, message, subject, notes, help] ←
      j.record? ["severity", "code", "message", "subject", "notes", "help"] | none
    return {
      severity := ← field? severity
      code := ← field? code
      message := ← field? message
      subject := ← field? subject
      notes := ← field? notes
      help := ← field? help }

end Fabric
