import ContainerUsage.Metric.Catalog
import ContainerUsage.Task.Basic
/-!
# The collector's registry

A `Collector` knows the tasks whose stats are exposed.  It describes the metrics of the catalog
once, when it is made, which fails if its naming cannot describe them all.  A task may be added with
labels of its own, and then all its metrics are described again with them; that is where adding can
fail.  A task that is there already is left as it is, labels and all.

A collector without a naming is disabled: it has no metrics, and ignores the tasks that are added.
-/

namespace ContainerUsage

/-- A task in the registry. -/
structure Registration where
  task : Task
  /-- The descriptors with the task's own labels, in the order of the catalog; without labels of its
  own a task uses the collector's. -/
  descriptors : Option (List Descriptor)
  deriving DecidableEq

/-- The tasks whose stats are exposed, and how. -/
structure Collector where
  /-- How the metrics are named, unless the collector is disabled. -/
  naming : Option Naming
  /-- The descriptors of the metrics, in the order of the catalog. -/
  descriptors : List Descriptor
  /-- The registered tasks, in the order in which they were added. -/
  registrations : List Registration

namespace Collector

/-- A collector that exposes nothing. -/
def disabled : Collector := ⟨none, [], []⟩

/-- A collector without tasks. -/
def ofNaming : Option Naming → Except MetricError Collector
  | none => .ok disabled
  | some naming =>
    (Metric.describeAll naming Metric.catalog).map fun descriptors => ⟨some naming, descriptors, []⟩

/-- The metrics that are exposed. -/
def metrics (c : Collector) : List Metric := if c.naming.isSome then Metric.catalog else []

/-! ## The tasks -/

/-- The keys of the registered tasks. -/
def keys (c : Collector) : List String := c.registrations.map (·.task.key)

/-- Whether a task is registered. -/
def contains (c : Collector) (id ns : String) : Bool := c.keys.contains (taskKey id ns)

/-- The number of registered tasks. -/
def size (c : Collector) : Nat := c.registrations.length

/-- Whether no task is registered. -/
def isEmpty (c : Collector) : Bool := c.registrations.isEmpty

/-- The descriptors for a task with labels of its own. -/
def describeTask (naming : Naming) (labels : LabelSet) :
    Except MetricError (Option (List Descriptor)) :=
  if labels.isEmpty then .ok none
  else (Metric.describeAll (naming.withLabels labels) Metric.catalog).map some

/-- Registers a task with labels of its own, unless it is registered already. -/
def add (c : Collector) (task : Task) (labels : LabelSet) : Except MetricError Collector :=
  match c.naming with
  | none => .ok c
  | some naming =>
    if c.contains task.id task.ns then .ok c
    else
      match describeTask naming labels with
      | .error e => .error e
      | .ok descriptors =>
        .ok { c with registrations := c.registrations ++ [⟨task, descriptors⟩] }

/-- Removes a task, if it is registered. -/
def remove (c : Collector) (id ns : String) : Collector :=
  { c with registrations := c.registrations.filter (·.task.key ≠ taskKey id ns) }

/-! ## What adding and removing change -/

/-- Removing takes away the registration with the key. -/
theorem keys_remove (c : Collector) (id ns : String) :
    (c.remove id ns).keys = c.keys.filter (· ≠ taskKey id ns) := by
  simp [keys, remove, List.filter_map, Function.comp_def]

/-- After a removal all other tasks are there as before. -/
theorem contains_remove (c : Collector) (id ns id' ns' : String) :
    (c.remove id ns).contains id' ns' =
      (c.contains id' ns' && decide (taskKey id' ns' ≠ taskKey id ns)) := by
  rw [Bool.eq_iff_iff]
  simp [contains, keys_remove]

/-- Adding to an enabled collector changes its keys by the new one at most. -/
theorem keys_of_add {c c' : Collector} {task : Task} {labels : LabelSet}
    (h : c.add task labels = .ok c') (hn : c.naming.isSome) :
    c'.keys = if c.contains task.id task.ns then c.keys else c.keys ++ [task.key] := by
  unfold add at h
  split at h
  · next hnone => simp [hnone] at hn
  · split at h
    · next hc =>
      simp only [Except.ok.injEq] at h
      simp [← h, hc]
    · next hc =>
      split at h
      · simp at h
      · simp only [Except.ok.injEq] at h
        simp [← h, hc, keys]

/-- Adding leaves the naming as it is. -/
theorem naming_of_add {c c' : Collector} {task : Task} {labels : LabelSet}
    (h : c.add task labels = .ok c') : c'.naming = c.naming := by
  unfold add at h
  repeat' split at h
  all_goals simp_all
  all_goals rw [← h]

end Collector

end ContainerUsage
