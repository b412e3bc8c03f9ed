import Fabric.Numeral

/-!
# Options of the command line

The options that can be given, the values that they take, and the record of those given so
far. An option can be given once, before or after the name of the command if it is common to
all commands. The later of the two places wins.
-/

namespace Fabric

namespace Text

/-! ### White space

The characters with the Unicode property `White_Space`, and the removal of such characters
from both ends of a text. -/

/-- The characters with the property `White_Space`. -/
def isWhiteSpace (c : Char) : Bool :=
  let n := c.toNat
  (0x09 ≤ n && n ≤ 0x0d) || n == 0x20 || n == 0x85 || n == 0xa0 || n == 0x1680
    || (0x2000 ≤ n && n ≤ 0x200a) || n == 0x2028 || n == 0x2029 || n == 0x202f || n == 0x205f
    || n == 0x3000

/-- A text without the white space at its end. -/
def trimEnd (cs : List Char) : List Char := (cs.reverse.dropWhile isWhiteSpace).reverse

/-- A text without the white space at its ends. -/
def trim (cs : List Char) : List Char := trimEnd (cs.dropWhile isWhiteSpace)

end Text

namespace CommandLine

/-! ### Values -/

/-- When diagnostics are coloured. -/
inductive ColorChoice where
  /-- When they go to a terminal. -/
  | auto
  | always
  | never
  deriving DecidableEq, Inhabited, Repr

/-- The words for the choices of colour. -/
def ColorChoice.ofName? (s : String) : Option ColorChoice :=
  [("auto", .auto), ("always", .always), ("never", .never)].lookup s

/-- The form of a report. -/
inductive ReportForm where
  | text
  | json
  deriving DecidableEq, Inhabited, Repr

/-- The words for the forms of a report. -/
def ReportForm.ofName? (s : String) : Option ReportForm :=
  [("text", .text), ("json", .json)].lookup s

/-- The two sides of the first `x`, in upper or lower case. -/
def cutAtCross? : List Char → Option (List Char × List Char)
  | [] => none
  | c :: rest =>
    if c = 'x' ∨ c = 'X' then some ([], rest)
    else (cutAtCross? rest).map fun (left, right) => (c :: left, right)

/-- The size of a grid, such as `8x6`. There may be white space around the numbers. -/
def gridOfText? (s : String) : Option (Nat × Nat) := do
  let (width, height) ← cutAtCross? s.toList
  return (← Numeral.word32? (Text.trim width), ← Numeral.word32? (Text.trim height))

/-! ### Options -/

/-- An option. -/
inductive OptionName where
  | quiet
  | verbose
  | color
  | config
  | format
  | part
  | grid
  | help
  | version
  deriving DecidableEq, Repr

namespace OptionName

/-- The long spelling, after two hyphens. -/
def long : OptionName → String
  | .quiet => "quiet"
  | .verbose => "verbose"
  | .color => "color"
  | .config => "config"
  | .format => "format"
  | .part => "part"
  | .grid => "grid"
  | .help => "help"
  | .version => "version"

/-- The short spelling, after one hyphen, if there is one. -/
def short? : OptionName → Option Char
  | .quiet => some 'q'
  | .verbose => some 'v'
  | .color | .config => none
  | .format => some 'f'
  | .part => some 'p'
  | .grid => some 'g'
  | .help => some 'h'
  | .version => some 'V'

/-- Whether a value follows. -/
def takesValue : OptionName → Bool
  | .color | .config | .format | .part | .grid => true
  | .quiet | .verbose | .help | .version => false

end OptionName

/-! ### Wrong arguments -/

/-- Why arguments are rejected. -/
inductive UsageError where
  | unknownArgument (arg : String)
  | repeated (option : OptionName)
  | missingValue (option : OptionName)
  | unexpectedValue (option : OptionName)
  | invalidValue (option : OptionName) (value : String)
  | partAndGrid
  | missingCommand
  | missingName
  deriving DecidableEq, Repr

/-- What an error in the arguments says. -/
def UsageError.message : UsageError → String
  | .unknownArgument arg => s!"unexpected argument '{arg}'"
  | .repeated option => s!"--{option.long} cannot be given twice"
  | .missingValue option => s!"--{option.long} needs a value"
  | .unexpectedValue option => s!"--{option.long} takes no value"
  | .invalidValue option value => s!"invalid value '{value}' for --{option.long}"
  | .partAndGrid => "--part and --grid cannot be given together"
  | .missingCommand => "a command is needed: info, bel, wire or pin"
  | .missingName => "the name of a resource is needed"

/-! ### The options given -/

/-- The options given so far. -/
structure Options where
  quiet : Bool := false
  verbose : Bool := false
  color : Option ColorChoice := none
  config : Option String := none
  format : Option ReportForm := none
  part : Option String := none
  grid : Option (Nat × Nat) := none
  deriving DecidableEq, Inhabited, Repr

namespace Options

/-- Whether an option was given. -/
def has (o : Options) : OptionName → Bool
  | .quiet => o.quiet
  | .verbose => o.verbose
  | .color => o.color.isSome
  | .config => o.config.isSome
  | .format => o.format.isSome
  | .part => o.part.isSome
  | .grid => o.grid.isSome
  | .help | .version => false

/-- A value that has to be valid for its option. -/
def valid {α : Type} (option : OptionName) (value : String) : Option α → Except UsageError α
  | some a => .ok a
  | none => .error (.invalidValue option value)

/-- Adds an option that takes no value. -/
def addFlag (o : Options) (option : OptionName) : Except UsageError Options :=
  if o.has option then .error (.repeated option)
  else match option with
    | .quiet => .ok { o with quiet := true }
    | .verbose => .ok { o with verbose := true }
    | _ => .ok o

/-- Adds an option with its value. -/
def addValue (o : Options) (option : OptionName) (value : String) : Except UsageError Options := do
  if o.has option then throw (.repeated option)
  match option with
  | .color => return { o with color := some (← valid option value (ColorChoice.ofName? value)) }
  | .format => return { o with format := some (← valid option value (ReportForm.ofName? value)) }
  | .grid => return { o with grid := some (← valid option value (gridOfText? value)) }
  | .config => return { o with config := some value }
  | .part => return { o with part := some value }
  | _ => throw (.unexpectedValue option)

/-- The options given before and after the name of the command. -/
def merge (before after : Options) : Options :=
  { quiet := before.quiet || after.quiet
    verbose := before.verbose || after.verbose
    color := after.color.or before.color
    config := after.config.or before.config
    format := after.format.or before.format
    part := after.part.or before.part
    grid := after.grid.or before.grid }

end Options

end CommandLine

end Fabric
