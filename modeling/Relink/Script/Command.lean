import Relink.Text

/-!
# Scripts

Shell scripts as trees: words with quotes, parameters and substitutions, redirections, simple
commands, lists, pipelines and compound commands.
-/

set_option autoImplicit false

namespace Relink.Script

/-- What is done with the value of a parameter. `orEmpty` says that an empty value counts as a
missing one. -/
inductive Use where
  | plain
  | size
  /-- Nothing sensible was written. -/
  | senseless
  /-- A word stands in for a missing value. -/
  | standIn (orEmpty : Bool)
  /-- A word stands in for a missing value, and the parameter is set to it. -/
  | assign (orEmpty : Bool)
  /-- A missing value ends the script, with a word as the complaint. -/
  | demand (orEmpty : Bool)
  /-- A word replaces a value that is there. -/
  | replace (orEmpty : Bool)
  /-- The longest or shortest front that matches a pattern is removed. -/
  | trimFront (longest : Bool)
  /-- The longest or shortest end that matches a pattern is removed. -/
  | trimBack (longest : Bool)
deriving DecidableEq, Repr

/-- How a file is opened by a redirection. -/
inductive Opening where
  | read | write | append | readWrite
  /-- To write, even where files are not to be replaced. -/
  | replace
deriving DecidableEq, Repr

mutual

/-- A piece of a word. What is not quoted is split into fields and may be a pattern. -/
inductive Part where
  | literal (chars : Text) (quoted : Bool)
  | parameter (name : Text) (use : Use) (word : List Part) (quoted : Bool)
  /-- What a command prints. -/
  | output (command : Option Command) (quoted : Bool)
  | arithmetic (expression : List Part) (quoted : Bool)

/-- Where a descriptor leads instead. -/
inductive Redirection where
  | file (descriptor : Nat) (opening : Opening) (target : List Part)
  /-- Where another descriptor leads; a dash closes it. -/
  | duplicate (descriptor : Nat) (source : List Part)
  /-- To a document that stands in the script. -/
  | document (descriptor number : Nat)

/-- A command of a script, with the line that it starts in where complaints need it. -/
inductive Command where
  | simple (line : Nat) (assignments : List (Text × List Part)) (words : List (List Part))
      (redirections : List Redirection)
  | pipeline (commands : List Command)
  | negated (command : Command)
  | sequence (first second : Command)
  /-- The second command is run only if the first succeeds, or only if it fails. -/
  | chained (ifSucceeded : Bool) (first second : Command)
  | conditional (condition consequent : Command) (alternative : Option Command)
  /-- The body is run while the condition succeeds, or while it fails. -/
  | repeated (whileSucceeds : Bool) (condition body : Command)
  | forEach (line : Nat) (name : Text) (words : List (List Part)) (body : Command)
  | choice (line : Nat) (subject : List Part)
      (branches : List (List (List Part) × Option Command))
  | subshell (line : Nat) (body : Command) (redirections : List Redirection)
  | background (body : Command)
  | redirected (line : Nat) (body : Command) (redirections : List Redirection)
  | definition (name : Text) (body : Command)

end

abbrev Word := List Part

end Relink.Script
