import Relink.Build.Config
import Relink.CommandLine.Argument

/-!
# Commands

What a command line asks for. Its arguments count one after another: the first that asks for help
or cannot be accepted decides, whatever follows it.
-/

set_option autoImplicit false

namespace Relink

/-- What the program is asked to do. -/
inductive Command where
  | build (config : Build.Config) (json : Bool)
  | fix (directory : Path) (options : Options) (json : Bool)
  | inspect (file : Path)
deriving DecidableEq, Repr

def Command.paths : Command → List Path
  | .build config _ => [config.source, config.output, config.compiler]
  | .fix directory _ _ => [directory]
  | .inspect file => [file]

namespace CommandLine

/-- Why there is no command: help or the version is asked for, or the arguments make no sense. -/
inductive Halt where
  | help | version | misuse
deriving DecidableEq, Repr

/-! ## Reading arguments -/

/-- A command's options, and how values and operands change its settings. A value or an operand
that is refused gives none. -/
structure Grammar (Settings : Type) where
  forms : List OptionForm
  set : OptionName → Text → Settings → Option Settings
  operand : Text → Settings → Option Settings

namespace Grammar

variable {Settings : Type}

def mayRepeat (grammar : Grammar Settings) (name : OptionName) : Bool :=
  grammar.forms.any fun form => form.name == name && form.use == .repeatable

/-- Sets an option that may not have been given before. -/
def give (grammar : Grammar Settings) (name : OptionName) (value : Text)
    (given : List OptionName) (settings : Settings) : Except Halt Settings :=
  if given.contains name && !grammar.mayRepeat name then .error .misuse
  else
    match grammar.set name value settings with
    | some changed => .ok changed
    | none => .error .misuse

/-- The settings after arguments, of which the options `given` came before. -/
def settle (grammar : Grammar Settings) (given : List OptionName) (settings : Settings) :
    List Argument → Except Halt Settings
  | [] => .ok settings
  | .malformed :: _ => .error .misuse
  | .switch .help :: _ => .error .help
  | .switch .version :: _ => .error .version
  | .switch name :: rest =>
    match grammar.give name [] given settings with
    | .ok changed => settle grammar (name :: given) changed rest
    | .error halt => .error halt
  | .option name value :: rest =>
    match grammar.give name value given settings with
    | .ok changed => settle grammar (name :: given) changed rest
    | .error halt => .error halt
  | .operand value :: rest =>
    match grammar.operand value settings with
    | some changed => settle grammar given changed rest
    | none => .error .misuse

/-- The settings that the words of a command line make of those to start from. -/
def read (grammar : Grammar Settings) (settings : Settings) (words : List Text) :
    Except Halt Settings :=
  grammar.settle [] settings (Argument.read grammar.forms none words)

end Grammar

/-! ## Values -/

/-- A path; an empty one is refused. -/
def path? (value : Text) : Option Path := if value = [] then none else some ⟨value⟩

def bool? (value : Text) : Option Bool :=
  if value = "true".toList then some true
  else if value = "false".toList then some false
  else none

def helpForm : OptionForm := ⟨.help, "help", some 'h', .switch⟩

/-- The source extensions that are meant: those that were given, or else the usual ones. -/
def chosenExtensions (given : List Text) : List Text :=
  if given = [] then Options.defaultSourceExtensions else given

/-! ## Building -/

/-- What the arguments of a build have set. Source extensions are those given so far. -/
structure BuildSettings where
  config : Build.Config
  sourceExtensions : List Text
  json : Bool

namespace BuildSettings

def initial : BuildSettings := ⟨.standard, [], false⟩

def withConfig (settings : BuildSettings) (change : Build.Config → Build.Config) : BuildSettings :=
  { settings with config := change settings.config }

def set (name : OptionName) (value : Text) (settings : BuildSettings) : Option BuildSettings :=
  match name with
  | .source => (path? value).map fun path =>
      settings.withConfig fun config => { config with source := path }
  | .output => (path? value).map fun path =>
      settings.withConfig fun config => { config with output := path }
  | .compiler => (path? value).map fun path =>
      settings.withConfig fun config => { config with compiler := path }
  | .format => (Build.Format.ofString? false (String.ofList value)).map fun format =>
      settings.withConfig fun config => { config with format := format }
  | .clear => (bool? value).map fun clear =>
      settings.withConfig fun config => { config with clear := clear }
  | .minify => some (settings.withConfig fun config => { config with minify := true })
  | .verbose => some (settings.withConfig fun config => { config with verbose := true })
  | .sourceExtension =>
    some { settings with sourceExtensions := settings.sourceExtensions ++ [value] }
  | .json => some { settings with json := true }
  | _ => none

def command (settings : BuildSettings) : Command :=
  .build (settings.config.withSourceExtensions (chosenExtensions settings.sourceExtensions))
    settings.json

end BuildSettings

/-- The grammar of a build; it has no operands. -/
def buildGrammar : Grammar BuildSettings where
  forms := [helpForm, ⟨.source, "src", some 's', .single⟩, ⟨.output, "out", some 'o', .single⟩,
    ⟨.format, "format", some 'f', .single⟩, ⟨.minify, "minify", some 'm', .switch⟩,
    ⟨.clear, "clear", some 'd', .single⟩, ⟨.verbose, "verbose", some 'v', .switch⟩,
    ⟨.sourceExtension, "source-ext", none, .repeatable⟩, ⟨.compiler, "compiler", none, .single⟩,
    ⟨.json, "json", none, .switch⟩]
  set := BuildSettings.set
  operand := fun _ _ => none

/-! ## Fixing -/

/-- What the arguments of a fix have set. -/
structure FixSettings where
  directory : Option Path
  options : Options
  sourceExtensions : List Text
  json : Bool

namespace FixSettings

def initial : FixSettings := ⟨none, .standard .mjs, [], false⟩

def withOptions (settings : FixSettings) (change : Options → Options) : FixSettings :=
  { settings with options := change settings.options }

def set (name : OptionName) (value : Text) (settings : FixSettings) : Option FixSettings :=
  match name with
  | .extension => (ModuleExtension.ofText? value).map fun extension =>
      settings.withOptions fun options => { options with extension := extension }
  | .minify => some (settings.withOptions fun options => { options with minify := true })
  | .verbose => some (settings.withOptions fun options => { options with verbose := true })
  | .sourceExtension =>
    some { settings with sourceExtensions := settings.sourceExtensions ++ [value] }
  | .json => some { settings with json := true }
  | _ => none

/-- The settings after an operand; only one is accepted. -/
def addOperand (value : Text) (settings : FixSettings) : Option FixSettings :=
  match settings.directory with
  | some _ => none
  | none => (path? value).map fun path => { settings with directory := some path }

def command (settings : FixSettings) : Except Halt Command :=
  match settings.directory with
  | none => .error .misuse
  | some directory =>
    .ok (.fix directory
      (settings.options.withSourceExtensions (chosenExtensions settings.sourceExtensions))
      settings.json)

end FixSettings

def fixGrammar : Grammar FixSettings where
  forms := [helpForm, ⟨.extension, "ext", none, .single⟩, ⟨.minify, "minify", some 'm', .switch⟩,
    ⟨.verbose, "verbose", some 'v', .switch⟩, ⟨.sourceExtension, "source-ext", none, .repeatable⟩,
    ⟨.json, "json", none, .switch⟩]
  set := FixSettings.set
  operand := FixSettings.addOperand

/-! ## Inspecting -/

def inspectGrammar : Grammar (Option Path) where
  forms := [helpForm]
  set := fun _ _ _ => none
  operand := fun value file => if file.isSome then none else (path? value).map some

def inspectCommand : Option Path → Except Halt Command
  | none => .error .misuse
  | some file => .ok (.inspect file)

/-! ## Whole command lines -/

def commandNames : List Text := ["build".toList, "fix".toList, "inspect".toList, "help".toList]

/-- Options that may stand before a command. Each of them decides at once. -/
def leadingGrammar : Grammar Unit where
  forms := [helpForm, ⟨.version, "version", some 'V', .switch⟩]
  set := fun _ _ _ => none
  operand := fun _ _ => none

/-- What a request for help about commands comes to. Commands have no commands of their own. -/
def helpAbout : List Text → Halt
  | [] => .help
  | [name] => if commandNames.contains name then .help else .misuse
  | _ => .misuse

def leadingOption (words : List Text) : Halt :=
  match leadingGrammar.read () words with
  | .error halt => halt
  | .ok _ => .misuse

def parse (words : List Text) : Except Halt Command :=
  match words with
  | [] => .error .misuse
  | name :: rest =>
    if name = "build".toList then (buildGrammar.read .initial rest).map BuildSettings.command
    else if name = "fix".toList then (fixGrammar.read .initial rest).bind FixSettings.command
    else if name = "inspect".toList then (inspectGrammar.read none rest).bind inspectCommand
    else if name = "help".toList then .error (helpAbout rest)
    else .error (leadingOption words)

end CommandLine

end Relink
