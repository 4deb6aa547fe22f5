import ContainerUsage.Metric.Descriptor
/-!
# How metrics are named

All metrics of an exporter share the start of their names and a set of constant labels.  A `Naming`
holds both.  The full name of a metric joins the name of the exporter, its subsystem, the metric and
the unit with `_`, and leaves out the parts that are empty.

A constant label must not have the name of a variable label of the same metric: a sample would then
have two values for it.  `Naming.describe` refuses that before anything else.
-/

namespace ContainerUsage

/-- The common part of the names and labels of all metrics. -/
structure Naming where
  name : String
  subsystem : Option String
  labels : LabelSet
  deriving DecidableEq

/-- Why a metric cannot be described. -/
inductive MetricError where
  /-- A constant label has the name of a variable label. -/
  | labelConflict (label metric : String)
  /-- There is no descriptor with such parts. -/
  | descriptor (metric : String) (fault : Descriptor.Fault)
  deriving DecidableEq, Repr

/-- The text of an error. -/
def MetricError.message : MetricError → String
  | .labelConflict label metric =>
    "constant label `" ++ label ++ "` conflicts with a variable label of `" ++ metric ++ "`"
  | .descriptor metric fault =>
    "failed to build descriptor for `" ++ metric ++ "`: Error: " ++ fault.message

namespace Naming

/-- The same names with more constant labels, which count where both have one. -/
def withLabels (naming : Naming) (labels : LabelSet) : Naming :=
  { naming with labels := naming.labels.union labels }

/-- The full name of a metric. -/
def fqName (naming : Naming) (metric unit : String) : String :=
  "_".intercalate ([naming.name, naming.subsystem.getD "", metric, unit].filter (· ≠ ""))

/-- Describes a metric. -/
def describe (naming : Naming) (metric unit help : String) (variableLabels : List String) :
    Except MetricError Descriptor :=
  let fqName := naming.fqName metric unit
  match variableLabels.find? naming.labels.contains with
  | some label => .error (.labelConflict label fqName)
  | none =>
    (Descriptor.make fqName help variableLabels naming.labels).mapError (.descriptor fqName)

end Naming

end ContainerUsage
