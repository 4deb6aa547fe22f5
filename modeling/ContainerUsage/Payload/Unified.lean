import ContainerUsage.Wire.Message
/-!
# Stats of the unified hierarchy

The counters of a container in the unified cgroup hierarchy, as a message.  Every controller is a
message of its own that is absent if the controller is not enabled for the cgroup; the hugetlb
controller reports a list with one entry a page size, which is empty instead.

Each type of this file comes with its schema.  The field numbers of a schema rise in the order in
which its type declares the fields.
-/

namespace ContainerUsage.Payload.Unified

open Wire

/-! ## The controllers -/

/-- The number of processes and its limit. -/
structure Pids where
  current : UInt64 := 0
  limit : UInt64 := 0
  deriving DecidableEq, Repr

/-- CPU time in microseconds and enforcement periods. -/
structure Cpu where
  usageUsec : UInt64 := 0
  userUsec : UInt64 := 0
  systemUsec : UInt64 := 0
  nrPeriods : UInt64 := 0
  nrThrottled : UInt64 := 0
  throttledUsec : UInt64 := 0
  deriving DecidableEq, Repr

/-- Memory in bytes and page faults. -/
structure Memory where
  anon : UInt64 := 0
  file : UInt64 := 0
  kernelStack : UInt64 := 0
  slab : UInt64 := 0
  sock : UInt64 := 0
  shmem : UInt64 := 0
  fileMapped : UInt64 := 0
  pgfault : UInt64 := 0
  pgmajfault : UInt64 := 0
  usage : UInt64 := 0
  usageLimit : UInt64 := 0
  swapUsage : UInt64 := 0
  swapLimit : UInt64 := 0
  deriving DecidableEq, Repr

/-- How often the memory limits were reached. -/
structure MemoryEvents where
  low : UInt64 := 0
  high : UInt64 := 0
  max : UInt64 := 0
  oom : UInt64 := 0
  oomKill : UInt64 := 0
  deriving DecidableEq, Repr

/-- The counters of one block device. -/
structure Device where
  major : UInt64 := 0
  minor : UInt64 := 0
  rbytes : UInt64 := 0
  wbytes : UInt64 := 0
  rios : UInt64 := 0
  wios : UInt64 := 0
  deriving DecidableEq, Repr

/-- The block devices. -/
structure Io where
  usage : List Device := []
  deriving DecidableEq, Repr

/-- The use of huge pages of one size. -/
structure HugePages where
  current : UInt64 := 0
  max : UInt64 := 0
  pageSize : String := ""
  deriving DecidableEq, Repr

/-- The stats of a container. -/
structure Stats where
  pids : Option Pids := none
  cpu : Option Cpu := none
  memory : Option Memory := none
  io : Option Io := none
  hugetlb : List HugePages := []
  memoryEvents : Option MemoryEvents := none
  deriving DecidableEq, Repr

/-! ## Their schemas -/

/-- The fields of the pids group. -/
def Pids.schema : Schema Pids where
  name := "PidsStat"
  empty := {}
  fields :=
    [.of 1 "current" .number (.mk (·.current) fun m v => { m with current := v }),
      .of 2 "limit" .number (.mk (·.limit) fun m v => { m with limit := v })]

/-- The fields of the cpu group. -/
def Cpu.schema : Schema Cpu where
  name := "CpuStat"
  empty := {}
  fields :=
    [.of 1 "usage_usec" .number (.mk (·.usageUsec) fun m v => { m with usageUsec := v }),
      .of 2 "user_usec" .number (.mk (·.userUsec) fun m v => { m with userUsec := v }),
      .of 3 "system_usec" .number (.mk (·.systemUsec) fun m v => { m with systemUsec := v }),
      .of 4 "nr_periods" .number (.mk (·.nrPeriods) fun m v => { m with nrPeriods := v }),
      .of 5 "nr_throttled" .number (.mk (·.nrThrottled) fun m v => { m with nrThrottled := v }),
      .of 6 "throttled_usec" .number
        (.mk (·.throttledUsec) fun m v => { m with throttledUsec := v })]

/-- The fields of the memory group. -/
def Memory.schema : Schema Memory where
  name := "MemoryStat"
  empty := {}
  fields :=
    [.of 1 "anon" .number (.mk (·.anon) fun m v => { m with anon := v }),
      .of 2 "file" .number (.mk (·.file) fun m v => { m with file := v }),
      .of 3 "kernel_stack" .number (.mk (·.kernelStack) fun m v => { m with kernelStack := v }),
      .of 4 "slab" .number (.mk (·.slab) fun m v => { m with slab := v }),
      .of 5 "sock" .number (.mk (·.sock) fun m v => { m with sock := v }),
      .of 6 "shmem" .number (.mk (·.shmem) fun m v => { m with shmem := v }),
      .of 7 "file_mapped" .number (.mk (·.fileMapped) fun m v => { m with fileMapped := v }),
      .of 18 "pgfault" .number (.mk (·.pgfault) fun m v => { m with pgfault := v }),
      .of 19 "pgmajfault" .number (.mk (·.pgmajfault) fun m v => { m with pgmajfault := v }),
      .of 32 "usage" .number (.mk (·.usage) fun m v => { m with usage := v }),
      .of 33 "usage_limit" .number (.mk (·.usageLimit) fun m v => { m with usageLimit := v }),
      .of 34 "swap_usage" .number (.mk (·.swapUsage) fun m v => { m with swapUsage := v }),
      .of 35 "swap_limit" .number (.mk (·.swapLimit) fun m v => { m with swapLimit := v })]

/-- The fields of the memory events. -/
def MemoryEvents.schema : Schema MemoryEvents where
  name := "MemoryEvents"
  empty := {}
  fields :=
    [.of 1 "low" .number (.mk (·.low) fun m v => { m with low := v }),
      .of 2 "high" .number (.mk (·.high) fun m v => { m with high := v }),
      .of 3 "max" .number (.mk (·.max) fun m v => { m with max := v }),
      .of 4 "oom" .number (.mk (·.oom) fun m v => { m with oom := v }),
      .of 5 "oom_kill" .number (.mk (·.oomKill) fun m v => { m with oomKill := v })]

/-- The fields of one device. -/
def Device.schema : Schema Device where
  name := "IoEntry"
  empty := {}
  fields :=
    [.of 1 "major" .number (.mk (·.major) fun m v => { m with major := v }),
      .of 2 "minor" .number (.mk (·.minor) fun m v => { m with minor := v }),
      .of 3 "rbytes" .number (.mk (·.rbytes) fun m v => { m with rbytes := v }),
      .of 4 "wbytes" .number (.mk (·.wbytes) fun m v => { m with wbytes := v }),
      .of 5 "rios" .number (.mk (·.rios) fun m v => { m with rios := v }),
      .of 6 "wios" .number (.mk (·.wios) fun m v => { m with wios := v })]

/-- The io group: a message for each device. -/
def Io.schema : Schema Io where
  name := "IoStat"
  empty := {}
  fields :=
    [.of 1 "usage" (.messages Device.schema) (.mk (·.usage) fun m v => { m with usage := v })]

/-- The fields of one page size. -/
def HugePages.schema : Schema HugePages where
  name := "HugeTlbStat"
  empty := {}
  fields :=
    [.of 1 "current" .number (.mk (·.current) fun m v => { m with current := v }),
      .of 2 "max" .number (.mk (·.max) fun m v => { m with max := v }),
      .of 3 "pagesize" .text (.mk (·.pageSize) fun m v => { m with pageSize := v })]

/-- The groups of the unified stats under their tags. -/
def Stats.schema : Schema Stats where
  name := "Metrics"
  empty := {}
  fields :=
    [.of 1 "pids" (.message Pids.schema) (.mk (·.pids) fun m v => { m with pids := v }),
      .of 2 "cpu" (.message Cpu.schema) (.mk (·.cpu) fun m v => { m with cpu := v }),
      .of 4 "memory" (.message Memory.schema) (.mk (·.memory) fun m v => { m with memory := v }),
      .of 6 "io" (.message Io.schema) (.mk (·.io) fun m v => { m with io := v }),
      .of 7 "hugetlb" (.messages HugePages.schema)
        (.mk (·.hugetlb) fun m v => { m with hugetlb := v }),
      .of 8 "memory_events" (.message MemoryEvents.schema)
        (.mk (·.memoryEvents) fun m v => { m with memoryEvents := v })]

end ContainerUsage.Payload.Unified
