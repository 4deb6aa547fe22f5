import ContainerUsage.Payload.Unified
import ContainerUsage.Stat.KeyValue
/-!
# The files of the controllers

Four files of a cgroup hold keys and values, and the rest hold one number each.  `cpu.stat`,
`memory.stat` and `memory.events` have one pair a line and each key once in the file.  `io.stat` has
a line for each block device: first the two numbers of the device, then any number of `key=value`
words.  Its keys are looked at line by line, so that every device has counters of its own.

A file with one number is read up to its first newline.  A limit may be `max`, which is no limit.
-/

namespace ContainerUsage.Stat

open Payload

/-! ## Keys and values -/

/-- The keys of `cpu.stat`. -/
def cpuTable : Table Unified.Cpu :=
  [("usage_usec", fun s v => { s with usageUsec := v }),
    ("user_usec", fun s v => { s with userUsec := v }),
    ("system_usec", fun s v => { s with systemUsec := v }),
    ("nr_periods", fun s v => { s with nrPeriods := v }),
    ("nr_throttled", fun s v => { s with nrThrottled := v }),
    ("throttled_usec", fun s v => { s with throttledUsec := v })]

/-- Reads `cpu.stat`. -/
def readCpu : Reader Unified.Cpu := flat.read cpuTable {}

/-- The counters of `memory.stat`. -/
structure MemoryCounters where
  anon : UInt64 := 0
  file : UInt64 := 0
  kernelStack : UInt64 := 0
  slab : UInt64 := 0
  sock : UInt64 := 0
  shmem : UInt64 := 0
  fileMapped : UInt64 := 0
  pgfault : UInt64 := 0
  pgmajfault : UInt64 := 0
  deriving DecidableEq, Repr

/-- The keys of `memory.stat`. -/
def memoryTable : Table MemoryCounters :=
  [("anon", fun s v => { s with anon := v }),
    ("file", fun s v => { s with file := v }),
    ("kernel_stack", fun s v => { s with kernelStack := v }),
    ("slab", fun s v => { s with slab := v }),
    ("sock", fun s v => { s with sock := v }),
    ("shmem", fun s v => { s with shmem := v }),
    ("file_mapped", fun s v => { s with fileMapped := v }),
    ("pgfault", fun s v => { s with pgfault := v }),
    ("pgmajfault", fun s v => { s with pgmajfault := v })]

/-- Reads `memory.stat`. -/
def readMemory : Reader MemoryCounters := flat.read memoryTable {}

/-- The use of memory and swap and their limits, which come from files of their own. -/
structure MemoryUse where
  usage : UInt64 := 0
  usageLimit : UInt64 := 0
  swapUsage : UInt64 := 0
  swapLimit : UInt64 := 0
  deriving DecidableEq, Repr

/-- The memory controller's stats. -/
def MemoryCounters.toStats (counters : MemoryCounters) (use : MemoryUse) : Unified.Memory where
  anon := counters.anon
  file := counters.file
  kernelStack := counters.kernelStack
  slab := counters.slab
  sock := counters.sock
  shmem := counters.shmem
  fileMapped := counters.fileMapped
  pgfault := counters.pgfault
  pgmajfault := counters.pgmajfault
  usage := use.usage
  usageLimit := use.usageLimit
  swapUsage := use.swapUsage
  swapLimit := use.swapLimit

/-- The keys of `memory.events`. -/
def memoryEventsTable : Table Unified.MemoryEvents :=
  [("low", fun s v => { s with low := v }),
    ("high", fun s v => { s with high := v }),
    ("max", fun s v => { s with max := v }),
    ("oom", fun s v => { s with oom := v }),
    ("oom_kill", fun s v => { s with oomKill := v })]

/-- Reads `memory.events`. -/
def readMemoryEvents : Reader Unified.MemoryEvents := flat.read memoryEventsTable {}

/-! ## Block devices -/

/-- A word for the device, then any number of `key=value` words, each key once. -/
def deviceLayout : Layout where
  separator := some '='
  skip := 1
  allowDuplicates := false
  multiplePerLine := true

/-- The keys of a line of `io.stat`. -/
def deviceTable : Table Unified.Device :=
  [("rbytes", fun s v => { s with rbytes := v }),
    ("wbytes", fun s v => { s with wbytes := v }),
    ("rios", fun s v => { s with rios := v }),
    ("wios", fun s v => { s with wios := v })]

/-- The numbers of a device that is written as `major:minor`. -/
def parseDevice (word : List Char) : Option (UInt64 × UInt64) :=
  match Text.cutOnce ':' word with
  | none => none
  | some (major, minor) =>
    match Decimal.parse major, Decimal.parse minor with
    | .ok major, .ok minor => some (major, minor)
    | _, _ => none

/-- Reads one line of `io.stat`.  A blank line has no device. -/
def parseDeviceLine (number : Nat) (text : List Char) : Except StatError (Option Unified.Device) :=
  match Text.words text with
  | [] => .ok none
  | word :: _ =>
    match parseDevice word with
    | none => .error (.invalidDevice (String.ofList word) number)
    | some (major, minor) =>
      (deviceLayout.readLine deviceTable ⟨{ major, minor }, []⟩ number text).map
        fun state => some state.value

/-- Reads `io.stat`: one entry for each line that is not blank, in the order of the lines. -/
def readIo : Reader Unified.Io := fun content =>
  let step (devices : List Unified.Device) (number : Nat) (text : List Char) :=
    (parseDeviceLine number text).map fun device => devices ++ device.toList
  let run := readLines step [] content
  (run.1.map Unified.Io.mk, run.2)

/-! ## One number -/

/-- Reads a number on a line of its own. -/
def parseValue (text : List Char) : Except StatError UInt64 :=
  (Decimal.parse text).mapError fun cause => .invalidValue (String.ofList text) 1 cause

/-- Reads a file with one number, such as `pids.current`. -/
def readCurrent : Reader UInt64 := readFirst parseValue

/-- A limit, or none. -/
abbrev Limit := Option UInt64

/-- The limit as a number: without a limit it is the greatest number there is. -/
def Limit.orMax (limit : Limit) : UInt64 := limit.getD 18446744073709551615

example : (Limit.orMax none).toNat = UInt64.size - 1 := by decide

/-- Reads a limit on a line of its own. -/
def parseLimit (text : List Char) : Except StatError Limit :=
  if text = ['m', 'a', 'x'] then .ok none else (parseValue text).map some

/-- Reads a file with one limit, such as `pids.max`. -/
def readLimit : Reader Limit := readFirst parseLimit

end ContainerUsage.Stat
