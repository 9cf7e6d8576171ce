import Relink.Text

/-!
# Arguments

The words of a command line as switches, options with values, and operands. Short options may be
written together behind one dash; an option takes what is attached to it as its value, or else the
next word.
-/

set_option autoImplicit false

namespace Relink.CommandLine

/-- What an option is about. -/
inductive OptionName where
  | help | version | source | output | format | minify | clear | verbose | sourceExtension
  | compiler | json | extension
deriving DecidableEq, Repr

/-- How an option is used: by itself, with a value, or any number of times with a value each. -/
inductive OptionUse where
  | switch | single | repeatable
deriving DecidableEq, Repr

/-- An option as it is written: behind two dashes, and with a letter behind one dash if it has
one. -/
structure OptionForm where
  name : OptionName
  long : String
  short : Option Char
  use : OptionUse
deriving DecidableEq, Repr

/-- A part of a command line. -/
inductive Argument where
  | switch (name : OptionName)
  | option (name : OptionName) (value : Text)
  | operand (value : Text)
  /-- An option that is unknown, lacks its value or has one that it does not take. -/
  | malformed
deriving DecidableEq, Repr

namespace Argument

/-- Whether a word cannot be the value of the option before it. A single dash can. -/
def isDashed (word : Text) : Bool :=
  match word with
  | '-' :: _ :: _ => true
  | _ => false

/-- A text at its first equals sign; what is behind the sign is attached. -/
def splitAttached (text : Text) : Text × Option Text :=
  match text.dropWhile (· != '=') with
  | [] => (text, none)
  | _ :: attached => (text.takeWhile (· != '='), some attached)

/-- What a word is made of. The option at its end may wait for its value. -/
inductive Reading where
  | complete (arguments : List Argument)
  | waiting (arguments : List Argument) (name : OptionName)

def Reading.after (first : Argument) : Reading → Reading
  | .complete arguments => .complete (first :: arguments)
  | .waiting arguments name => .waiting (first :: arguments) name

/-- Reads the letters behind a dash. What follows the letter of an option that takes a value is that
value, less one equals sign. -/
def ofLetters (forms : List OptionForm) : Text → Reading
  | [] => .complete []
  | letter :: rest =>
    match forms.find? fun form => form.short == some letter with
    | none => .complete [.malformed]
    | some form =>
      if form.use = .switch then (ofLetters forms rest).after (.switch form.name)
      else
        match rest with
        | [] => .waiting [] form.name
        | '=' :: value => .complete [.option form.name value]
        | value => .complete [.option form.name value]

def ofLong (forms : List OptionForm) (long : Text) : Reading :=
  match forms.find? fun form => form.long.toList == (splitAttached long).1 with
  | none => .complete [.malformed]
  | some form =>
    match form.use, (splitAttached long).2 with
    | .switch, none => .complete [.switch form.name]
    | .switch, some _ => .complete [.malformed]
    | _, none => .waiting [] form.name
    | _, some value => .complete [.option form.name value]

/-- Reads a word. A single dash is an operand. -/
def ofWord (forms : List OptionForm) : Text → Reading
  | '-' :: '-' :: long => ofLong forms long
  | '-' :: letter :: letters => ofLetters forms (letter :: letters)
  | word => .complete [.operand word]

/-- The double dash, behind which every word is an operand. -/
def terminator : Text := ['-', '-']

/-- Reads the words of a command line; `waiting` is an option whose value is the next word. -/
def read (forms : List OptionForm) (waiting : Option OptionName) : List Text → List Argument
  | [] => if waiting.isSome then [.malformed] else []
  | word :: rest =>
    match waiting with
    | some name =>
      if isDashed word then [.malformed] else .option name word :: read forms none rest
    | none =>
      if word = terminator then rest.map .operand
      else
        match ofWord forms word with
        | .complete arguments => arguments ++ read forms none rest
        | .waiting arguments name => arguments ++ read forms (some name) rest

end Argument

end Relink.CommandLine
