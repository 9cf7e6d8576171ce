/-!
# How programs end

A program ends with a status or is ended by a signal.
-/

set_option autoImplicit false

namespace Relink.Script

/-- How a program ended. -/
inductive Ending where
  | status (code : Nat)
  | signal (number : Nat)
deriving DecidableEq, Repr

/-- Names of signals, from the first one on. -/
def signalNames : List String :=
  ["HUP", "INT", "QUIT", "ILL", "TRAP", "ABRT", "BUS", "FPE", "KILL", "USR1", "SEGV", "USR2",
    "PIPE", "ALRM", "TERM", "STKFLT", "CHLD", "CONT", "STOP", "TSTP", "TTIN", "TTOU", "URG",
    "XCPU", "XFSZ", "VTALRM", "PROF", "WINCH", "IO", "PWR", "SYS"]

def signalName? (number : Nat) : Option String :=
  if number = 0 then none else signalNames[number - 1]?

def Ending.isSuccess (ending : Ending) : Bool := ending == .status 0

def Ending.message : Ending → String
  | .status code => "exit status: " ++ toString code
  | .signal number =>
    match signalName? number with
    | some name => "signal: " ++ toString number ++ " (SIG" ++ name ++ ")"
    | none => "signal: " ++ toString number

end Relink.Script
