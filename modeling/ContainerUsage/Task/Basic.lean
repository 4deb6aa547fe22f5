/-!
# Tasks

A task is a running container: an identifier, the namespace in which its runtime keeps it, and the
source that is asked for its stats.  Tasks are told apart by their `taskKey`, the identifier and the
namespace joined by a hyphen.
-/

namespace ContainerUsage

/-- The key of a task. -/
def taskKey (id ns : String) : String := id ++ "-" ++ ns

/-- Which of a host's sources a task is asked through. -/
structure SourceId where
  index : Nat
  deriving DecidableEq, Repr

/-- A running container. -/
structure Task where
  id : String
  ns : String
  source : SourceId
  deriving DecidableEq, Repr

/-- The key of a task. -/
def Task.key (task : Task) : String := taskKey task.id task.ns

end ContainerUsage
