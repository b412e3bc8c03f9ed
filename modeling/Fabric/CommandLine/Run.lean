import Fabric.CommandLine.Arguments
import Fabric.CommandLine.FileTree
import Fabric.Config.Schema
import Fabric.Device.Build
import Fabric.Device.Summary

/-!
# Running a command

A command chooses a device, builds its model, shows the diagnostics made on the way, and
prints a report. What it prints on standard output and standard error and its exit status
are computed from what it was asked and from the configuration file, if there is one.

The device is chosen by `--part` or `--grid`, else by the configuration file. A part replaces
the choice of the file altogether, a grid takes precedence over it; the options and attributes
of the file are kept in any case.
-/

namespace Fabric.CommandLine

/-! ### Output -/

/-- What a command leaves behind. -/
structure Output where
  status : Nat := 0
  stdout : String := ""
  stderr : String := ""
  deriving DecidableEq, Inhabited, Repr

namespace Output

/-- A command that failed with an error. -/
def failure (message : String) : Output := { status := 1, stderr := s!"error: {message}\n" }

/-- Puts diagnostics before what a command printed on standard error. -/
def withDiagnostics (o : Output) (text : String) : Output := { o with stderr := text ++ o.stderr }

end Output

/-! ### The configuration file -/

/-- The name of the configuration file that is used without being asked for. -/
def configName : String := "cinder.toml"

/-- A configuration file that was opened: its path, and its text unless it cannot be read. -/
structure ConfigFile where
  path : String
  content : Except FileError String

/-- The configuration file that options lead to, given how to look for files. -/
def configFile? {m : Type → Type} [Monad m] (options : Options)
    (isFile : String → m Bool) (read : String → m (Except FileError String)) :
    m (Option ConfigFile) := do
  match options.config with
  | some path => return some ⟨path, ← read path⟩
  | none =>
    if ← isFile configName then return some ⟨"./" ++ configName, ← read configName⟩
    else return none

/-- The settings in a configuration file, or what is wrong with it. -/
def ConfigFile.settings (file : ConfigFile) : Except String Settings :=
  match file.content with
  | .error e => .error s!"cannot read {file.path}: {e.message}"
  | .ok text => (Settings.parse text).mapError SettingsError.message

/-! ### The device -/

/-- The device that options and a configuration file select, or why none is. -/
def selection (options : Options) (file : Option ConfigFile) : Except String Selection := do
  let settings ← file.mapM ConfigFile.settings
  let base : Selection := (settings.map Selection.ofSettings).getD {}
  let debug := base.debug || options.verbose
  match options.part, options.grid, settings with
  | some part, _, _ => return { base with device := part, grid := none, debug := debug }
  | none, some grid, _ => return { base with grid := some grid, debug := debug }
  | none, none, some _ => return { base with debug := debug }
  | none, none, none =>
    throw s!"no device selected: pass --part or --grid, or provide {configName}"

/-- The diagnostics of a device that are to be shown, and the tally of errors and warnings. -/
def diagnosticText (options : Options) (colour : Bool) (d : Device) : String :=
  let shown := d.diagnostics.records.toList.filter fun record =>
    record.severity.isShown options.quiet options.verbose
  let tally := match d.diagnostics.summary? with
    | some summary => if options.quiet then "" else s!"{d.chip.part}: {summary}\n"
    | none => ""
  String.join (shown.map (·.render colour)) ++ tally

/-! ### Commands -/

/-- Whether diagnostics are coloured. -/
def ColorChoice.isOn (terminal : Bool) : ColorChoice → Bool
  | .auto => terminal
  | .always => true
  | .never => false

/-- The resources of a device. Lines are for a reader, so they are left out when
quiet is asked for. -/
def info (options : Options) (d : Device) : Output :=
  match options.format.getD .text with
  | .text => { stdout := if options.quiet then "" else d.summary.text }
  | .json => { stdout := (toJson d.summary).pretty ++ "\n" }

/-- The description of something looked up, or the news that there is no such thing. -/
def describe {α : Type} (d : Device) (noun name : String) (found : Option α)
    (text : α → Except Error String) : Output :=
  match found with
  | none => .failure s!"no {noun} '{name}' on {d.chip.part}"
  | some a =>
    match text a with
    | .ok text => { stdout := text }
    | .error e => .failure e.message

/-- What a command prints about a device. -/
def report (options : Options) (d : Device) : Command → Output
  | .info => info options d
  | .lookup .bel name =>
    let (path, t) := Path.parse d.interner name Device.delimiter
    let d := { d with interner := t }
    describe d "bel named" name (d.belNamed? path) d.describeSite
  | .lookup .wire name =>
    let (path, t) := Path.parse d.interner name Device.delimiter
    let d := { d with interner := t }
    describe d "wire named" name (d.wireNamed? path) d.describeWire
  | .lookup .pin name => describe d "package pin" name (d.belOfPin? name) d.describeSite

/-- What a command leaves behind. -/
def run (options : Options) (command : Command) (file : Option ConfigFile)
    (terminal : Bool) : Output :=
  match selection options file with
  | .error message => .failure message
  | .ok selection =>
    match Device.ofSelection selection with
    | .error e => .failure e.message
    | .ok d =>
      let colour := (options.color.getD .auto).isOn terminal
      (report options d command).withDiagnostics (diagnosticText options colour d)

/-! ### Other requests -/

/-- How to use the program. -/
def usage : String :=
  Text.ofLines
    ["Usage: cinder [OPTIONS] <COMMAND>", "",
      "Commands:",
      "  info        Summarize the selected device",
      "  bel NAME    Show a bel, its type and its pins",
      "  wire NAME   Show a wire and its neighbours in the routing graph",
      "  pin NAME    Resolve a package pin to its I/O bel", "",
      "Options:",
      "  -q, --quiet          Print reports and errors only, no warnings",
      "  -v, --verbose        Also print construction progress",
      "      --color WHEN     When to colour diagnostics: auto, always or never",
      "      --config FILE    Read the device selection from this file",
      "  -p, --part PART      Named part, after the command",
      "  -g, --grid WxH       Synthetic grid size, after the command",
      "  -f, --format FORMAT  Output of info: text or json",
      "  -h, --help           Print help",
      "  -V, --version        Print version"]

/-- What a request for help leaves behind. -/
def helpOutput : Output := { stdout := usage }

/-- What a request for the version leaves behind. -/
def versionOutput : Output := { stdout := "cinder 0.1.0\n" }

/-- What rejected arguments leave behind. -/
def rejectedOutput (why : UsageError) : Output :=
  { status := 2, stderr := s!"error: {why.message}\n\n{usage}" }

/-- Does what arguments ask for, given how to look for files. -/
def execute {m : Type → Type} [Monad m] (args : List String) (terminal : Bool)
    (isFile : String → m Bool) (read : String → m (Except FileError String)) : m Output := do
  match readArguments args with
  | .error why => return rejectedOutput why
  | .ok .help => return helpOutput
  | .ok .version => return versionOutput
  | .ok (.run options command) =>
    return run options command (← configFile? options isFile read) terminal

end Fabric.CommandLine
