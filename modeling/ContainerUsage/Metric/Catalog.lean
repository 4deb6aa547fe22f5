import ContainerUsage.Metric.Naming
import ContainerUsage.Numeric.Double
import ContainerUsage.Payload.Unified
/-!
# The catalog of metrics

The metrics that are exposed for every task, in the order in which they are exposed.  A `Metric`
says how it is named and described and where in the stats its values are.  There are three places:
one number of a controller, a number for each block device, and a number for each page size.  The
labels that tell the values apart follow from the place (`Series.labels`), so a value never has
another number of labels than its metric (`length_labels_of_mem_values`).

A controller that is absent from the stats has no values.
-/

namespace ContainerUsage

open Payload

/-- The labels that name the task of a sample. -/
def baseLabels : List String := ["container_id", "namespace"]

/-- What the values of a metric mean to a scraper. -/
inductive MetricKind where
  /-- A count that only grows. -/
  | counter
  /-- A state at the time of the scrape. -/
  | gauge
  deriving DecidableEq, Repr

/-- The number of a metric and the values of the labels that tell it apart from the others. -/
structure MetricValue where
  value : Double
  labels : List String
  deriving DecidableEq

/-- Where in the stats the values of a metric are. -/
inductive Series where
  /-- One number of a controller. -/
  | single (field : Unified.Stats → Option UInt64)
  /-- A number for each block device. -/
  | perDevice (field : Unified.Device → UInt64)
  /-- A number for each page size. -/
  | perPageSize (field : Unified.HugePages → UInt64)

namespace Series

/-- The labels that tell the values apart. -/
def labels : Series → List String
  | .single _ => []
  | .perDevice _ => ["major", "minor"]
  | .perPageSize _ => ["page"]

/-- The block devices in the stats. -/
def devices (stats : Unified.Stats) : List Unified.Device := (stats.io.map (·.usage)).getD []

/-- The values in the stats. -/
def values (series : Series) (stats : Unified.Stats) : List MetricValue :=
  match series with
  | .single field => (field stats).toList.map fun v => ⟨.ofUInt64 v, []⟩
  | .perDevice field =>
    (devices stats).map fun device =>
      ⟨.ofUInt64 (field device),
        [Decimal.print device.major.toNat, Decimal.print device.minor.toNat]⟩
  | .perPageSize field =>
    stats.hugetlb.map fun pages => ⟨.ofUInt64 (field pages), [pages.pageSize]⟩

/-- A value has as many labels as its metric. -/
theorem length_labels_of_mem_values {series : Series} {stats : Unified.Stats} {v : MetricValue}
    (h : v ∈ series.values stats) : v.labels.length = series.labels.length := by
  cases series <;> obtain ⟨_, _, rfl⟩ := List.mem_map.1 h <;> rfl

end Series

/-- A metric. -/
structure Metric where
  name : String
  unit : String
  help : String
  kind : MetricKind
  series : Series

namespace Metric

/-- The labels of a metric after the ones that name the task. -/
def labels (metric : Metric) : List String := metric.series.labels

/-- The values of a metric in the stats. -/
def values (metric : Metric) (stats : Unified.Stats) : List MetricValue :=
  metric.series.values stats

/-- Describes a metric. -/
def describe (metric : Metric) (naming : Naming) : Except MetricError Descriptor :=
  naming.describe metric.name metric.unit metric.help (baseLabels ++ metric.labels)

/-! ## The metrics -/

/-- The metrics of the pids controller. -/
def pidsMetrics : List Metric :=
  [⟨"pids", "current", "The current number of pids",
      .gauge, .single fun stats => stats.pids.map (·.current)⟩,
    ⟨"pids", "limit", "The limit to the number of pids allowed",
      .gauge, .single fun stats => stats.pids.map (·.limit)⟩]

/-- The metrics of the cpu controller. -/
def cpuMetrics : List Metric :=
  [⟨"cpu_usage", "usec", "Total cpu usage",
      .counter, .single fun stats => stats.cpu.map (·.usageUsec)⟩,
    ⟨"cpu_user", "usec", "Current cpu usage in user space",
      .counter, .single fun stats => stats.cpu.map (·.userUsec)⟩,
    ⟨"cpu_kernel", "usec", "Current cpu usage in kernel space",
      .counter, .single fun stats => stats.cpu.map (·.systemUsec)⟩,
    ⟨"cpu_nr_periods", "total", "Number of enforcement periods that have elapsed",
      .counter, .single fun stats => stats.cpu.map (·.nrPeriods)⟩,
    ⟨"cpu_nr_throttled", "total", "Number of times the group has been throttled",
      .counter, .single fun stats => stats.cpu.map (·.nrThrottled)⟩,
    ⟨"cpu_throttled", "usec", "Total time duration for which the group has been throttled",
      .counter, .single fun stats => stats.cpu.map (·.throttledUsec)⟩]

/-- The metrics of the memory controller and its events. -/
def memoryMetrics : List Metric :=
  [⟨"memory_usage", "bytes", "Current memory usage",
      .gauge, .single fun stats => stats.memory.map (·.usage)⟩,
    ⟨"memory_usage_limit", "bytes", "Memory usage limit",
      .gauge, .single fun stats => stats.memory.map (·.usageLimit)⟩,
    ⟨"memory_swap_usage", "bytes", "Current swap usage",
      .gauge, .single fun stats => stats.memory.map (·.swapUsage)⟩,
    ⟨"memory_swap_limit", "bytes", "Swap usage limit",
      .gauge, .single fun stats => stats.memory.map (·.swapLimit)⟩,
    ⟨"memory_anon", "bytes", "Amount of memory used in anonymous mappings",
      .gauge, .single fun stats => stats.memory.map (·.anon)⟩,
    ⟨"memory_file", "bytes", "Amount of memory used to cache filesystem data",
      .gauge, .single fun stats => stats.memory.map (·.file)⟩,
    ⟨"memory_kernel_stack", "bytes", "Amount of memory allocated to kernel stacks",
      .gauge, .single fun stats => stats.memory.map (·.kernelStack)⟩,
    ⟨"memory_slab", "bytes", "Amount of memory used for storing in-kernel data structures",
      .gauge, .single fun stats => stats.memory.map (·.slab)⟩,
    ⟨"memory_sock", "bytes", "Amount of memory used in network transmission buffers",
      .gauge, .single fun stats => stats.memory.map (·.sock)⟩,
    ⟨"memory_shmem", "bytes", "Amount of cached filesystem data that is swap-backed",
      .gauge, .single fun stats => stats.memory.map (·.shmem)⟩,
    ⟨"memory_file_mapped", "bytes", "Amount of cached filesystem data mapped with mmap",
      .gauge, .single fun stats => stats.memory.map (·.fileMapped)⟩,
    ⟨"memory_pgfault", "total", "Total number of page faults incurred",
      .counter, .single fun stats => stats.memory.map (·.pgfault)⟩,
    ⟨"memory_pgmajfault", "total", "Number of major page faults incurred",
      .counter, .single fun stats => stats.memory.map (·.pgmajfault)⟩,
    ⟨"memory_oom", "total", "Number of times the memory limit was reached and allocation failed",
      .counter, .single fun stats => stats.memoryEvents.map (·.oom)⟩,
    ⟨"memory_oom_kill", "total", "Number of processes killed by the OOM killer",
      .counter, .single fun stats => stats.memoryEvents.map (·.oomKill)⟩]

/-- The metrics of the io controller. -/
def ioMetrics : List Metric :=
  [⟨"io_rbytes", "bytes", "Bytes read from the device",
      .counter, .perDevice (·.rbytes)⟩,
    ⟨"io_wbytes", "bytes", "Bytes written to the device",
      .counter, .perDevice (·.wbytes)⟩,
    ⟨"io_rios", "total", "Number of read operations on the device",
      .counter, .perDevice (·.rios)⟩,
    ⟨"io_wios", "total", "Number of write operations on the device",
      .counter, .perDevice (·.wios)⟩]

/-- The metrics of the hugetlb controller. -/
def hugetlbMetrics : List Metric :=
  [⟨"hugetlb_current", "bytes", "Current hugetlb usage",
      .gauge, .perPageSize (·.current)⟩,
    ⟨"hugetlb_max", "bytes", "Hugetlb usage limit",
      .gauge, .perPageSize (·.max)⟩]

/-- All metrics. -/
def catalog : List Metric :=
  pidsMetrics ++ cpuMetrics ++ memoryMetrics ++ ioMetrics ++ hugetlbMetrics

example : catalog.length = 29 := by decide

/-- Describes all metrics, up to the first that cannot be described. -/
def describeAll (naming : Naming) : List Metric → Except MetricError (List Descriptor)
  | [] => .ok []
  | metric :: rest =>
    match metric.describe naming with
    | .error e => .error e
    | .ok descriptor => (describeAll naming rest).map (descriptor :: ·)

end Metric

end ContainerUsage
