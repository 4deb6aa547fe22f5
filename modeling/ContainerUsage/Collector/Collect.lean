import ContainerUsage.Collector.Basic
import ContainerUsage.Collector.Notice
/-!
# Collecting samples

A scrape asks every registered task once for its stats, and makes samples of the answers that can be
read.  Samples of one metric form a family.  `assemble` says which families and samples a list of
answers gives: for each metric of the catalog, the values of each task in the order of the answers,
labelled by the task's descriptor.  A family without samples is left out.

The labels of a sample are the constant labels of its descriptor and the variable ones with the
task's identifier, its namespace and the labels of the value, sorted by name.
-/

namespace ContainerUsage

/-- A number with the labels that tell where it comes from. -/
structure Sample where
  labels : List Label
  value : Double
  deriving DecidableEq

/-- The samples of one metric. -/
structure Family where
  name : String
  help : String
  kind : MetricKind
  samples : List Sample
  deriving DecidableEq

/-- The result of a scrape. -/
structure Scrape where
  families : List Family
  notices : List Notice

namespace Collector

/-! ## Samples -/

/-- Labels in the order of their names. -/
def sortLabels (labels : List Label) : List Label := labels.mergeSort fun a b => a.1 ≤ b.1

/-- The sample of a value of a task. -/
def sample (descriptor : Descriptor) (task : Task) (v : MetricValue) : Except Notice Sample :=
  let values := task.id :: task.ns :: v.labels
  if descriptor.variableLabels.length = values.length then
    .ok ⟨sortLabels (descriptor.constLabels.pairs ++ descriptor.variableLabels.zip values), v.value⟩
  else
    .error (.labelMismatch descriptor.fqName descriptor.variableLabels.length values.length)

/-! ## The stats of the tasks -/

/-- The stats in a task's answer. -/
def statsOf (task : Task) (answer : Answer) : Except Notice Payload.Unified.Stats :=
  match answer with
  | .error cause => .error (.fetchFailed task.id task.ns cause)
  | .ok envelope =>
    match envelope.content with
    | .error cause => .error (.decodeFailed task.id task.ns cause)
    | .ok content => .ok content.toUnified

/-- A task and its stats. -/
structure Reading where
  registration : Registration
  stats : Payload.Unified.Stats

/-- The readings among the answers, and notices of the others. -/
def readings : List (Registration × Answer) → List Reading × List Notice
  | [] => ([], [])
  | (registration, answer) :: rest =>
    let others := readings rest
    match statsOf registration.task answer with
    | .ok stats => (⟨registration, stats⟩ :: others.1, others.2)
    | .error notice => (others.1, notice :: others.2)

/-! ## Families -/

/-- The samples of one reading for the metric at an index of the catalog. -/
def samplesOf (c : Collector) (index : Nat) (metric : Metric) (reading : Reading) :
    List (Except Notice Sample) :=
  match (reading.registration.descriptors.getD c.descriptors)[index]? with
  | none => []
  | some descriptor =>
    (metric.values reading.stats).map (sample descriptor reading.registration.task)

/-- All samples for the metric at an index of the catalog. -/
def samplesAt (c : Collector) (readings : List Reading) (index : Nat) (metric : Metric) :
    List (Except Notice Sample) :=
  readings.flatMap (c.samplesOf index metric)

/-- The family of the metric at an index of the catalog, and what was left out of it. -/
def familyAt (c : Collector) (readings : List Reading) (index : Nat) (metric : Metric)
    (descriptor : Descriptor) : Family × List Notice :=
  let samples := c.samplesAt readings index metric
  (⟨descriptor.fqName, descriptor.help, metric.kind, samples.filterMap Except.toOption⟩,
    samples.filterMap fun sample =>
      match sample with
      | .ok _ => none
      | .error notice => some notice)

/-- The families of a list of answers. -/
def assemble (c : Collector) (answers : List (Registration × Answer)) : Scrape :=
  let read := readings answers
  let all := (c.metrics.zip c.descriptors).zipIdx.map fun entry =>
    c.familyAt read.1 entry.2 entry.1.1 entry.1.2
  ⟨(all.map Prod.fst).filter (!·.samples.isEmpty), read.2 ++ all.flatMap Prod.snd⟩

/-! ## A scrape -/

/-- Asks tasks one after the other. -/
def askAll (host : Host) : List Registration → List (Registration × Answer) × Host
  | [] => ([], host)
  | registration :: rest =>
    let first := host.ask registration.task.source
    let others := askAll first.2 rest
    ((registration, first.1) :: others.1, others.2)

/-- Asks all tasks and makes families of their answers. -/
def collect (c : Collector) (host : Host) : Scrape × Host :=
  let asked := askAll host c.registrations
  (c.assemble asked.1, asked.2)

end Collector

end ContainerUsage
