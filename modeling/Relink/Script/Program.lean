import Relink.Script.Program.Edit

/-!
# Programs

The programs that scripts find by their names, apart from those that start others.
-/

set_option autoImplicit false

namespace Relink.Script.Program

/-- Does nothing for a while, which nobody notices. -/
def sleep (arguments : List Text) : Run Unit := do
  let isTime := fun argument : Text =>
    let digits := argument.takeWhile fun c => c.isDigit || c == '.'
    let unit := argument.drop digits.length
    digits.any Char.isDigit && (unit.isEmpty || [['s'], ['m'], ['h'], ['d']].contains unit)
  match arguments, arguments.find? fun argument => !isTime argument with
  | [], _ => misuse 1 "missing operand"
  | _, some argument => misuse 1 ("invalid time interval " ++ inMarks argument)
  | _, none => pure ()

def echo : List Text → Run Unit
  | ['-', 'n'] :: rest => print 1 (Text.joinWith [' '] rest)
  | ['-', 'e'] :: rest =>
    let joined := Text.joinWith [' '] rest
    print 1 ((Format.unescape (joined.length + 1) joined).1 ++ ['\n'])
  | arguments => print 1 (Text.joinWith [' '] arguments ++ ['\n'])

def find? (name : Text) : Option (List Text → Run Unit) :=
  match String.ofList name with
  | "true" | "sync" | "date" => some fun _ => pure ()
  | "false" => some fun _ => setStatus 1
  | "sleep" => some sleep
  | "echo" => some echo
  | "yes" => some fun arguments =>
    let line := if arguments.isEmpty then ['y'] else Text.joinWith [' '] arguments
    printLines (List.replicate 4096 line)
  | "uname" => some fun _ => print 1 "Linux\n".toList
  | "whoami" => some fun _ => print 1 "root\n".toList
  | "pwd" => some fun _ => do print 1 ((← get).here ++ ['\n'])
  | "mkdir" => some mkdir
  | "rmdir" => some rmdir
  | "rm" => some rm
  | "cp" => some cp
  | "mv" => some mv
  | "ln" => some ln
  | "touch" => some touch
  | "mktemp" => some mktemp
  | "chmod" => some chmod
  | "ls" => some ls
  | "readlink" => some readlink
  | "cat" => some cat
  | "tee" => some tee
  | "head" => some head
  | "tail" => some tail
  | "cut" => some cut
  | "wc" => some wc
  | "sort" => some sort
  | "uniq" => some uniq
  | "tac" => some tac
  | "rev" => some rev
  | "seq" => some seq
  | "tr" => some tr
  | "basename" => some basename
  | "dirname" => some dirname
  | "grep" => some grep
  | "egrep" => some fun arguments => grep (['-', 'E'] :: arguments)
  | "fgrep" => some fun arguments => grep (['-', 'F'] :: arguments)
  | "find" => some find
  | "expr" => some expr
  | "sed" => some sed
  | _ => none

def directories : List Text := ["/usr/bin".toList, "/bin".toList]

/-- The name of a program that a path in one of those directories gives. -/
def nameOf? (path : Text) : Option Text :=
  directories.findSome? fun directory =>
    if (directory ++ ['/']).isPrefixOf path then some (path.drop (directory.length + 1)) else none

def isShell (name : Text) : Bool := ["sh".toList, "dash".toList, "bash".toList].contains name

/-- Whether a program is found under a name in a directory of programs. -/
def isKnown (name : Text) : Bool :=
  isShell name || ["env".toList, "xargs".toList, "which".toList, "kill".toList].contains name ||
    (find? name).isSome

/-- Whether a path is one of a directory that every system has. -/
def isSystemDirectory (path : Text) : Bool :=
  ["/", "/bin", "/usr", "/usr/bin", "/usr/lib", "/lib", "/dev", "/etc", "/home", "/root", "/var",
    "/proc"].any fun known => known.toList == path

/-- Whether a path is one of a device that every system has. -/
def isDevice (path : Text) : Bool :=
  ["/dev/null", "/dev/zero", "/dev/full", "/dev/tty", "/dev/random", "/dev/urandom"].any
    fun known => known.toList == path

def isProgramFile (path : Text) : Bool := (nameOf? path).any isKnown

end Relink.Script.Program
