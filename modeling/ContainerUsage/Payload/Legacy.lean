import ContainerUsage.Payload.Unified
/-!
# Stats of the legacy hierarchies

The counters of a container in the per-controller cgroup hierarchies that came before the unified
one.  Only what the unified stats also have is declared; other fields are skipped when a body is
read.

`Stats.toUnified` gives the unified form.  Times are nanoseconds here and microseconds there, so
they are divided and rounded down; a group of counters that is absent counts as zeros; and the
controllers that these hierarchies do not report stay absent.
-/

namespace ContainerUsage.Payload.Legacy

open Wire

/-! ## The controllers -/

/-- The number of processes and its limit. -/
structure Pids where
  current : UInt64 := 0
  limit : UInt64 := 0
  deriving DecidableEq, Repr

/-- CPU time in nanoseconds. -/
structure CpuUsage where
  total : UInt64 := 0
  kernel : UInt64 := 0
  user : UInt64 := 0
  deriving DecidableEq, Repr

/-- Enforcement periods, and the time spent throttled in nanoseconds. -/
structure Throttle where
  periods : UInt64 := 0
  throttledPeriods : UInt64 := 0
  throttledTime : UInt64 := 0
  deriving DecidableEq, Repr

/-- The CPU controller. -/
structure Cpu where
  usage : Option CpuUsage := none
  throttling : Option Throttle := none
  deriving DecidableEq, Repr

/-- The use of one kind of memory and its limit. -/
structure MemoryEntry where
  limit : UInt64 := 0
  usage : UInt64 := 0
  deriving DecidableEq, Repr

/-- Memory in bytes and page faults. -/
structure Memory where
  cache : UInt64 := 0
  rss : UInt64 := 0
  mappedFile : UInt64 := 0
  pgFault : UInt64 := 0
  pgMajFault : UInt64 := 0
  usage : Option MemoryEntry := none
  swap : Option MemoryEntry := none
  deriving DecidableEq, Repr

/-- The stats of a container. -/
structure Stats where
  pids : Option Pids := none
  cpu : Option Cpu := none
  memory : Option Memory := none
  deriving DecidableEq, Repr

/-! ## Their schemas -/

/-- The fields of the pids group. -/
def Pids.schema : Schema Pids where
  name := "PidsStat"
  empty := {}
  fields :=
    [.of 1 "current" .number (.mk (·.current) fun m v => { m with current := v }),
      .of 2 "limit" .number (.mk (·.limit) fun m v => { m with limit := v })]

/-- The fields of the cpu times, in nanoseconds. -/
def CpuUsage.schema : Schema CpuUsage where
  name := "CpuUsage"
  empty := {}
  fields :=
    [.of 1 "total" .number (.mk (·.total) fun m v => { m with total := v }),
      .of 2 "kernel" .number (.mk (·.kernel) fun m v => { m with kernel := v }),
      .of 3 "user" .number (.mk (·.user) fun m v => { m with user := v })]

/-- The fields of the throttling counters. -/
def Throttle.schema : Schema Throttle where
  name := "Throttle"
  empty := {}
  fields :=
    [.of 1 "periods" .number (.mk (·.periods) fun m v => { m with periods := v }),
      .of 2 "throttled_periods" .number
        (.mk (·.throttledPeriods) fun m v => { m with throttledPeriods := v }),
      .of 3 "throttled_time" .number
        (.mk (·.throttledTime) fun m v => { m with throttledTime := v })]

/-- The cpu group has its times and its throttling in messages of their own. -/
def Cpu.schema : Schema Cpu where
  name := "CpuStat"
  empty := {}
  fields :=
    [.of 1 "usage" (.message CpuUsage.schema) (.mk (·.usage) fun m v => { m with usage := v }),
      .of 2 "throttling" (.message Throttle.schema)
        (.mk (·.throttling) fun m v => { m with throttling := v })]

/-- The fields of one memory entry. -/
def MemoryEntry.schema : Schema MemoryEntry where
  name := "MemoryEntry"
  empty := {}
  fields :=
    [.of 1 "limit" .number (.mk (·.limit) fun m v => { m with limit := v }),
      .of 2 "usage" .number (.mk (·.usage) fun m v => { m with usage := v })]

/-- The fields of the memory group. -/
def Memory.schema : Schema Memory where
  name := "MemoryStat"
  empty := {}
  fields :=
    [.of 1 "cache" .number (.mk (·.cache) fun m v => { m with cache := v }),
      .of 2 "rss" .number (.mk (·.rss) fun m v => { m with rss := v }),
      .of 4 "mapped_file" .number (.mk (·.mappedFile) fun m v => { m with mappedFile := v }),
      .of 9 "pg_fault" .number (.mk (·.pgFault) fun m v => { m with pgFault := v }),
      .of 10 "pg_maj_fault" .number (.mk (·.pgMajFault) fun m v => { m with pgMajFault := v }),
      .of 33 "usage" (.message MemoryEntry.schema) (.mk (·.usage) fun m v => { m with usage := v }),
      .of 34 "swap" (.message MemoryEntry.schema) (.mk (·.swap) fun m v => { m with swap := v })]

/-- The groups of the legacy stats under their tags. -/
def Stats.schema : Schema Stats where
  name := "Metrics"
  empty := {}
  fields :=
    [.of 2 "pids" (.message Pids.schema) (.mk (·.pids) fun m v => { m with pids := v }),
      .of 3 "cpu" (.message Cpu.schema) (.mk (·.cpu) fun m v => { m with cpu := v }),
      .of 4 "memory" (.message Memory.schema) (.mk (·.memory) fun m v => { m with memory := v })]

/-! ## The unified form -/

/-- Whole microseconds in a number of nanoseconds. -/
def microseconds (nanoseconds : UInt64) : UInt64 := nanoseconds / 1000

/-- Nanoseconds are rounded down to microseconds. -/
theorem toNat_microseconds (t : UInt64) : (microseconds t).toNat = t.toNat / 1000 := by
  simp [microseconds, UInt64.toNat_div]

/-- The unified form of the pids group. -/
def Pids.toUnified (pids : Pids) : Unified.Pids where
  current := pids.current
  limit := pids.limit

/-- Absent groups count as zeros. -/
def Cpu.toUnified (cpu : Cpu) : Unified.Cpu :=
  let usage := cpu.usage.getD {}
  let throttling := cpu.throttling.getD {}
  { usageUsec := microseconds usage.total
    userUsec := microseconds usage.user
    systemUsec := microseconds usage.kernel
    nrPeriods := throttling.periods
    nrThrottled := throttling.throttledPeriods
    throttledUsec := microseconds throttling.throttledTime }

/-- The resident set is anonymous memory and the cache is file memory.  Kernel stacks, slab, socket
and shared memory are not reported apart and are zero. -/
def Memory.toUnified (memory : Memory) : Unified.Memory :=
  let usage := memory.usage.getD {}
  let swap := memory.swap.getD {}
  { anon := memory.rss
    file := memory.cache
    fileMapped := memory.mappedFile
    pgfault := memory.pgFault
    pgmajfault := memory.pgMajFault
    usage := usage.usage
    usageLimit := usage.limit
    swapUsage := swap.usage
    swapLimit := swap.limit }

/-- The unified form of the stats. -/
def Stats.toUnified (stats : Stats) : Unified.Stats where
  pids := stats.pids.map Pids.toUnified
  cpu := stats.cpu.map Cpu.toUnified
  memory := stats.memory.map Memory.toUnified

end ContainerUsage.Payload.Legacy
