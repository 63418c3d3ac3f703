import Keysong.Text.CodePoint

/-!
# Notices

What a run reports beside its result.  Notices never change a result; each operation that has
something to report says so in a function of its own.  A notice may show a name that is no string,
so its text is a row of code points.

## Main Definitions

* `Level` — how important a notice is
* `Notice` — a level and a text
* `Notice.atLeast` — the notices from a level on
-/

namespace Keysong

/-- How important a notice is. -/
inductive Level where
  | debug
  | info
  | warning
  | error
  deriving Repr, DecidableEq

namespace Level

/-- The levels in order. -/
def rank : Level → Nat
  | debug => 0
  | info => 1
  | warning => 2
  | error => 3

/-- The name a level is listed under. -/
def name : Level → String
  | debug => "DEBUG"
  | info => "INFO"
  | warning => "WARNING"
  | error => "ERROR"

/-- The level of a name. -/
def ofName? (s : String) : Option Level :=
  [debug, info, warning, error].find? fun level => level.name == s

end Level

/-- One report. -/
structure Notice where
  level : Level
  text : List Text.CodePoint
  deriving Repr, DecidableEq

namespace Notice

/-- The notices from a level on, in order. -/
def atLeast (least : Level) (notices : List Notice) : List Notice :=
  notices.filter fun notice => decide (least.rank ≤ notice.level.rank)

end Notice

end Keysong
