import Relink.FileTree.Listing
import Relink.Script.Format

/-!
# Options of programs

How programs read their options and complain. Options may stand anywhere before two dashes; those of
one letter may share an argument, and those named in full may be cut short as long as it is clear
which one is meant.
-/

set_option autoImplicit false

namespace Relink.Script.Program

/-! ## Complaints -/

/-- Complains in the name of the running program and notes that it failed. -/
def complain (message : String) : Run Unit := do
  print 2 ((← get).called ++ ": ".toList ++ message.toList ++ ['\n'])
  setStatus 1

def inMarks (text : Text) : String := "'" ++ String.ofList text ++ "'"

def misuse (status : Nat) (message : String) : Run Unit := do
  let name := (← get).called
  complain message
  print 2 ("Try '".toList ++ name ++ " --help' for more information.\n".toList)
  setStatus status

/-! ## Options -/

/-- The options of a program. Letters that take an argument have a colon behind them, those that may
take one in the same argument a question mark. -/
structure Allowed where
  letters : String
  words : List (String × Char)

/-- What arguments come to. -/
structure Given where
  options : List (Char × Text)
  operands : List Text

namespace Given

def has (given : Given) (letter : Char) : Bool := given.options.any fun entry => entry.1 == letter

/-- The argument of an option, the last one if it was given more than once. -/
def value? (given : Given) (letter : Char) : Option Text :=
  (given.options.reverse.find? fun entry => entry.1 == letter).map Prod.snd

def withOption (letter : Char) (value : Text) (given : Given) : Given :=
  { given with options := (letter, value) :: given.options }

end Given

def markOf? (allowed : Text) (letter : Char) : Option (Option Char) :=
  match allowed with
  | [] => none
  | c :: rest =>
    if c = letter && c ≠ ':' && c ≠ '?' then some rest.head? else markOf? rest letter

def wordOption? (words : List (String × Char)) (word : Text) : Option Char :=
  match words.find? fun entry => entry.1.toList == word with
  | some entry => some entry.2
  | none =>
    match words.filter fun entry => word.isPrefixOf entry.1.toList with
    | [entry] => some entry.2
    | _ => none

/-- Reads arguments, of which there are no more than so many. -/
def readArguments (allowed : Allowed) : Nat → List Text → Except String Given
  | 0, arguments => .ok ⟨[], arguments⟩
  | _, [] => .ok ⟨[], []⟩
  | fuel + 1, argument :: rest =>
    match argument with
    | ['-', '-'] => .ok ⟨[], rest⟩
    | '-' :: '-' :: written =>
      let word := written.takeWhile (· != '=')
      let value? := if word.length = written.length then none else some (written.drop (word.length + 1))
      match wordOption? allowed.words word with
      | none =>
        .error ("unrecognized option '--" ++ String.ofList written ++ "'")
      | some letter =>
        match markOf? allowed.letters.toList letter, value?, rest with
        | some (some ':'), some value, _ => (readArguments allowed fuel rest).map (·.withOption letter value)
        | some (some ':'), none, value :: others =>
          (readArguments allowed fuel others).map (·.withOption letter value)
        | some (some ':'), none, [] =>
          .error ("option '--" ++ String.ofList word ++ "' requires an argument")
        | _, value, _ =>
          (readArguments allowed fuel rest).map (·.withOption letter (value.getD []))
    | '-' :: letter :: more =>
      match markOf? allowed.letters.toList letter, more, rest with
      | none, _, _ => .error ("invalid option -- '" ++ String.ofList [letter] ++ "'")
      | some (some ':'), [], [] =>
        .error ("option requires an argument -- '" ++ String.ofList [letter] ++ "'")
      | some (some ':'), [], value :: others =>
        (readArguments allowed fuel others).map (·.withOption letter value)
      | some (some ':'), value, others =>
        (readArguments allowed fuel others).map (·.withOption letter value)
      | some (some '?'), value, others =>
        (readArguments allowed fuel others).map (·.withOption letter value)
      | _, [], others => (readArguments allowed fuel others).map (·.withOption letter [])
      | _, more, others =>
        (readArguments allowed fuel (('-' :: more) :: others)).map (·.withOption letter [])
    | _ =>
      (readArguments allowed fuel rest).map fun given =>
        { given with operands := argument :: given.operands }

def totalSize (arguments : List Text) : Nat :=
  arguments.foldl (fun sum argument => sum + argument.length) 0

/-- Runs a program with its arguments once they are read. One that asks for help does nothing. -/
def withOptions (misused : Nat) (letters : String) (words : List (String × Char))
    (arguments : List Text) (run : Given → Run Unit) : Run Unit :=
  let allowed : Allowed := ⟨letters, words ++ [("help", '\x01'), ("version", '\x01')]⟩
  match readArguments allowed (totalSize arguments + arguments.length + 1) arguments with
  | .error message => misuse misused message
  | .ok given => if given.has '\x01' then pure () else run given

/-! ## Changes -/

/-- Changes the tree, or complains. -/
def change (step : FileTree.Change Unit) (complaint : SystemFault → Run Unit) : Run Unit := do
  let shell ← get
  match step shell.tree with
  | (.ok _, tree) => set { shell with tree := tree }
  | (.error fault, tree) =>
    set { shell with tree := tree }
    complaint fault

/-- Changes the tree in one step, or complains. -/
def changeAtOnce (step : FileTree → Except SystemFault FileTree)
    (complaint : SystemFault → Run Unit) : Run Unit :=
  change (FileTree.atOnce step) complaint

end Relink.Script.Program
