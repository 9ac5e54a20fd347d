import Keyring.Account.Error
import Keyring.Cli.Parameter

/-!
# Reports of failures

A failure is reported by what could not be done, and by what caused that, and so on. A single cause is
indented; several are numbered.
-/

namespace Keyring.Cli

/-- What could not be done, and its causes, each caused by the next one. -/
structure Failure where
  message : String
  causes : List String

namespace Failure

/-- A failure without a cause. -/
def plain (message : String) : Failure :=
  ⟨message, []⟩

/-- A failure that a failure causes. -/
def wrap (failure : Failure) (message : String) : Failure :=
  ⟨message, failure.message :: failure.causes⟩

/-- A failure of an operation on accounts. What the system says about a file is a cause of its own. -/
def ofAccountError (cause : AccountError) : Failure :=
  match cause with
  | .io _ source => ⟨cause.message, [source.text]⟩
  | _ => plain cause.message

/-- A text with `first` before its first line and `next` before the others, except for empty lines. -/
def indent (first next text : String) : String :=
  let mark (lines : List String × Bool) (line : String) : List String × Bool :=
    if line = "" then (line :: lines.1, lines.2)
    else (((if lines.2 then next else first) ++ line) :: lines.1, true)
  "\n".intercalate (((text.splitOn "\n").foldl mark ([], false)).1.reverse)

/-- The line of a cause among several. -/
def numbered (entry : String × Nat) : String :=
  let number := toString entry.2
  indent (String.ofList (List.replicate (4 - number.length) ' ') ++ number ++ ": ") "      " entry.1

/-- The causes, below a line of their own. -/
def causesText : List String → String
  | [] => ""
  | [cause] => "\n\nCaused by:\n" ++ indent "    " "    " cause
  | causes => "\n\nCaused by:\n" ++ "\n".intercalate (causes.zipIdx.map numbered)

/-- The report of a failure. -/
def text (failure : Failure) : String :=
  "Error: " ++ failure.message ++ causesText failure.causes ++ "\n"

end Failure

/-- What is said about a command line that is refused, or for one that asks for help. This wording is the
library's own: it is compared with nothing, and no lemma is about it but for where it is printed. -/
def Usage.text : Usage → String
  | badValue p => "invalid value for " ++ p.shown
  | emptyValue p => "a value is required for " ++ p.shown
  | missing ps => "required arguments are missing: " ++ ", ".intercalate (ps.map Parameter.shown)
  | conflict p => p.shown ++ " cannot be used again or with another argument"
  | unknownArgument word => "unexpected argument " ++ word
  | unwantedValue shown => "unexpected value for " ++ shown
  | unknownCommand => "unrecognized subcommand"
  | missingCommand => "a subcommand is required"
  | help | helpForMissing =>
    "Usage: meowchain-accounts [OPTIONS] <COMMAND>\n\n"
      ++ "Commands: new, list, import, export, update, delete, sign-message, sign-tx, help"

end Keyring.Cli
