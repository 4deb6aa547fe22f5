import ContainerUsage.Metric.Naming
import ContainerUsage.Task.Host
/-!
# What goes wrong without stopping anything

A scrape goes on when a task fails, and a scan goes on when a container cannot be opened.  What was
left out is told in a `Notice`.
-/

namespace ContainerUsage

/-- Something that was left out of a scrape or a scan, and why. -/
inductive Notice where
  /-- A task gave no stats. -/
  | fetchFailed (id ns : String) (cause : TaskError)
  /-- The stats of a task could not be read. -/
  | decodeFailed (id ns : String) (cause : Payload.OpenError)
  /-- A value has another number of labels than its descriptor. -/
  | labelMismatch (metric : String) (expected actual : Nat)
  /-- A container could not be opened. -/
  | openFailed (cause : IoError)
  /-- A task was refused by the collector. -/
  | addFailed (cause : MetricError)
  deriving DecidableEq, Repr

/-- The text of a notice. -/
def Notice.message : Notice → String
  | .fetchFailed id ns cause =>
    "failed to fetch task stats: id=" ++ id ++ ", namespace=" ++ ns ++ ", error=" ++ cause.message
  | .decodeFailed id ns cause =>
    "failed to decode task stats: id=" ++ id ++ ", namespace=" ++ ns ++ ", error=" ++ cause.message
  | .labelMismatch metric expected actual =>
    "label cardinality mismatch for `" ++ metric ++ "`: expected " ++ toString expected
      ++ ", got " ++ toString actual
  | .openFailed cause => cause.text
  | .addFailed cause => cause.message

end ContainerUsage
