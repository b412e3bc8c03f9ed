import Fabric.CommandLine.Options

/-!
# Arguments of the command line

Arguments are read from left to right. An argument that starts with two hyphens is a long
option, perhaps with its value after `=`; one that starts with one hyphen is a row of short
options, the last of which may have its value attached, with or without `=`. An option that
still needs a value takes the next argument, which may not start with a hyphen unless it is
a hyphen alone. After `--` there are no options any more.

The first argument that is none of these names the command; the commands that look something
up take one more, the name to look up. A request for help or for the version is obeyed as
soon as it is read.
-/

namespace Fabric.CommandLine

/-! ### What is asked for -/

/-- What to look up by name. -/
inductive Lookup where
  | bel
  | wire
  | pin
  deriving DecidableEq, Inhabited, Repr

/-- What to report on. -/
inductive Command where
  /-- The resources of the device. -/
  | info
  | lookup (kind : Lookup) (name : String)
  deriving DecidableEq, Inhabited, Repr

/-- What the arguments ask for. -/
inductive Request where
  | help
  | version
  | run (options : Options) (command : Command)
  deriving DecidableEq, Repr

/-! ### Where an argument stands -/

/-- The command that an argument belongs to. -/
inductive Level where
  /-- There is no command yet. -/
  | top
  | info
  | lookup (kind : Lookup)
  deriving DecidableEq, Repr

namespace Level

/-- The command that a name stands for. -/
def ofName? (s : String) : Option Level :=
  [("info", .info), ("bel", .lookup .bel), ("wire", .lookup .wire), ("pin", .lookup .pin)].lookup s

/-- The options that may be given. -/
def options : Level → List OptionName
  | .top => [.quiet, .verbose, .color, .config, .help, .version]
  | .info => [.quiet, .verbose, .color, .config, .help, .part, .grid, .format]
  | .lookup _ => [.quiet, .verbose, .color, .config, .help, .part, .grid]

end Level

/-- Why reading ends early. -/
inductive Stop where
  | help
  | version
  | rejected (why : UsageError)
  deriving DecidableEq, Repr

/-- What has been read of the arguments at one level. -/
structure Progress where
  options : Options := {}
  /-- The option that needs a value. -/
  pending : Option OptionName := none
  /-- The name to look up. -/
  name : Option String := none
  deriving Repr

namespace Progress

/-- Rejects the arguments. -/
def reject {α : Type} (why : UsageError) : Except Stop α := .error (.rejected why)

/-- Adds an option that takes no value. -/
def addFlag (p : Progress) (option : OptionName) : Except Stop Progress :=
  match option with
  | .help => .error .help
  | .version => .error .version
  | option => do
    let options ← (p.options.addFlag option).mapError .rejected
    return { p with options := options }

/-- Adds an option with its value. -/
def addValue (p : Progress) (option : OptionName) (value : String) : Except Stop Progress := do
  let options ← (p.options.addValue option value).mapError .rejected
  return { p with options := options, pending := none }

/-- Reads a long option, without its hyphens. -/
def long (level : Level) (p : Progress) (cs : List Char) : Except Stop Progress :=
  let name := String.ofList (cs.takeWhile (· != '='))
  let value := match cs.dropWhile (· != '=') with
    | [] => none
    | _ :: rest => some (String.ofList rest)
  match level.options.find? (·.long == name), value with
  | none, _ => reject (.unknownArgument ("--" ++ name))
  | some option, none =>
    if option.takesValue then .ok { p with pending := some option } else p.addFlag option
  | some option, some value =>
    if option.takesValue then p.addValue option value else reject (.unexpectedValue option)

/-- Reads a row of short options, without its hyphen. -/
def short (level : Level) (p : Progress) : List Char → Except Stop Progress
  | [] => .ok p
  | c :: rest =>
    match level.options.find? (·.short? == some c) with
    | none => reject (.unknownArgument (String.ofList ['-', c]))
    | some option =>
      if option.takesValue then
        match rest with
        | [] => .ok { p with pending := some option }
        | '=' :: value => p.addValue option (String.ofList value)
        | value => p.addValue option (String.ofList value)
      else do short level (← p.addFlag option) rest

/-- Reads an argument that is no option. -/
def plain (level : Level) (p : Progress) (arg : String) : Except Stop Progress :=
  match level, p.name with
  | .lookup _, none => .ok { p with name := some arg }
  | _, _ => reject (.unknownArgument arg)

/-- What is read when the arguments are at their end. -/
def finish (p : Progress) : Except Stop Progress :=
  match p.pending with
  | some option => reject (.missingValue option)
  | none => .ok p

end Progress

/-! ### Reading -/

/-- Reads the arguments after a request for help, which may name a command. -/
def helpOn : List String → Stop
  | [] => .help
  | [name] =>
    if name = "help" ∨ (Level.ofName? name).isSome then .help
    else .rejected (.unknownArgument name)
  | _ :: arg :: _ => .rejected (.unknownArgument arg)

/-- Reads the arguments of one level. At the top they end with the name of a command, which
is returned with the arguments after it. -/
def readLevel (level : Level) (p : Progress) :
    List String → Except Stop (Progress × Option (Level × List String))
  | [] => do return (← p.finish, none)
  | arg :: rest =>
    match arg.toList, p.pending with
    | ['-', '-'], some option => Progress.reject (.missingValue option)
    | ['-', '-'], none => do return (← rest.foldlM (Progress.plain level) p, none)
    | '-' :: _ :: _, some option => Progress.reject (.missingValue option)
    | '-' :: '-' :: cs, none => do readLevel level (← p.long level cs) rest
    | '-' :: c :: cs, none => do readLevel level (← p.short level (c :: cs)) rest
    | _, some option => do readLevel level (← p.addValue option arg) rest
    | _, none =>
      match level, Level.ofName? arg with
      | .top, some command => .ok (p, some (command, rest))
      | .top, none =>
        if arg = "help" then .error (helpOn rest) else Progress.reject (.unknownArgument arg)
      | _, _ => do readLevel level (← p.plain level arg) rest

/-- The command of a level. -/
def commandOf (level : Level) (name : Option String) : Except Stop Command :=
  match level, name with
  | .top, _ => Progress.reject .missingCommand
  | .info, _ => .ok .info
  | .lookup kind, some name => .ok (.lookup kind name)
  | .lookup _, none => Progress.reject .missingName

/-- Reads the options and the command. -/
def readCommand (args : List String) : Except Stop (Options × Command) := do
  let (before, some (level, rest)) ← readLevel .top {} args | Progress.reject .missingCommand
  let (after, _) ← readLevel level {} rest
  if after.options.part.isSome ∧ after.options.grid.isSome then Progress.reject .partAndGrid
  else return (before.options.merge after.options, ← commandOf level after.name)

/-- What the arguments ask for, unless they are rejected. -/
def readArguments (args : List String) : Except UsageError Request :=
  match readCommand args with
  | .ok (options, command) => .ok (.run options command)
  | .error .help => .ok .help
  | .error .version => .ok .version
  | .error (.rejected why) => .error why

end Fabric.CommandLine
