/-!
# Levels of messages

A message has a level, and a threshold lets through the messages up to a level of detail.
-/

namespace TimingReport.Console

/-- How detailed a message is. -/
inductive Level where
  | error
  | warn
  | info
  | debug
  | trace
deriving DecidableEq

/-- The place of a level among all, from the least detail on. -/
def Level.rank : Level → Nat
  | error => 1
  | warn => 2
  | info => 3
  | debug => 4
  | trace => 5

/-- The messages that are let through: none, or those up to a level. -/
inductive Threshold where
  | off
  | upTo (level : Level)
deriving DecidableEq

/-- The place of a threshold, which is that of its level. -/
def Threshold.rank : Threshold → Nat
  | off => 0
  | upTo level => level.rank

/-- The threshold lets messages of a level through. -/
def Threshold.admits (threshold : Threshold) (level : Level) : Bool := level.rank ≤ threshold.rank

/-- All thresholds, in order of their places. -/
def Threshold.all : List Threshold :=
  [off, upTo .error, upTo .warn, upTo .info, upTo .debug, upTo .trace]

/-- The word for a threshold. -/
def Threshold.word : Threshold → String
  | off => "off"
  | upTo .error => "error"
  | upTo .warn => "warn"
  | upTo .info => "info"
  | upTo .debug => "debug"
  | upTo .trace => "trace"

end TimingReport.Console
