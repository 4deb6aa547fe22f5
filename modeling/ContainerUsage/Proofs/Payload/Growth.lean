import Mathlib
import ContainerUsage.Payload.Envelope

/-!
# Payloads whose counters grow

A payload that a task reports later has counters that are at least those of the earlier one, as long
as the container is the same: `Content.Grows`. Only the fields that count something are compared;
gauges may go up and down. Both payloads are of one version and have the same controllers and block
devices. In the legacy form groups inside a controller may come and go, where an absent one has
zeros.

`Content.Grows.toUnified` says that bringing payloads into the unified form keeps this. There
nanoseconds become whole microseconds, and rounding down keeps the order.
-/

namespace ContainerUsage.Payload

/-! ## The unified form -/

namespace Unified

/-- No counter of the CPU controller is lesser in the second payload. -/
structure Cpu.Grows (p q : Cpu) : Prop where
  usageUsec : p.usageUsec ≤ q.usageUsec
  userUsec : p.userUsec ≤ q.userUsec
  systemUsec : p.systemUsec ≤ q.systemUsec
  nrPeriods : p.nrPeriods ≤ q.nrPeriods
  nrThrottled : p.nrThrottled ≤ q.nrThrottled
  throttledUsec : p.throttledUsec ≤ q.throttledUsec

/-- There are no fewer page faults in the second payload. -/
structure Memory.Grows (p q : Memory) : Prop where
  pgfault : p.pgfault ≤ q.pgfault
  pgmajfault : p.pgmajfault ≤ q.pgmajfault

/-- Memory has run out no less often in the second payload. -/
structure MemoryEvents.Grows (p q : MemoryEvents) : Prop where
  oom : p.oom ≤ q.oom
  oomKill : p.oomKill ≤ q.oomKill

/-- The device is the same, and none of its counters is lesser in the second payload. -/
structure Device.Grows (p q : Device) : Prop where
  major : p.major = q.major
  minor : p.minor = q.minor
  rbytes : p.rbytes ≤ q.rbytes
  wbytes : p.wbytes ≤ q.wbytes
  rios : p.rios ≤ q.rios
  wios : p.wios ≤ q.wios

/-- The controllers with counters are the same, and so are the block devices. No counter is lesser
in the second payload. -/
structure Stats.Grows (p q : Stats) : Prop where
  cpu : Option.Rel Cpu.Grows p.cpu q.cpu
  memory : Option.Rel Memory.Grows p.memory q.memory
  io : Option.Rel (fun a b => List.Forall₂ Device.Grows a.usage b.usage) p.io q.io
  memoryEvents : Option.Rel MemoryEvents.Grows p.memoryEvents q.memoryEvents

end Unified

/-! ## The legacy form -/

namespace Legacy

/-- No CPU time is lesser in the second payload. -/
structure CpuUsage.Grows (p q : CpuUsage) : Prop where
  total : p.total ≤ q.total
  kernel : p.kernel ≤ q.kernel
  user : p.user ≤ q.user

/-- No count of enforcement periods is lesser in the second payload, and neither is the time spent
throttled. -/
structure Throttle.Grows (p q : Throttle) : Prop where
  periods : p.periods ≤ q.periods
  throttledPeriods : p.throttledPeriods ≤ q.throttledPeriods
  throttledTime : p.throttledTime ≤ q.throttledTime

/-- A group that is absent has zeros. -/
structure Cpu.Grows (p q : Cpu) : Prop where
  usage : (p.usage.getD {}).Grows (q.usage.getD {})
  throttling : (p.throttling.getD {}).Grows (q.throttling.getD {})

/-- There are no fewer page faults in the second payload. -/
structure Memory.Grows (p q : Memory) : Prop where
  pgFault : p.pgFault ≤ q.pgFault
  pgMajFault : p.pgMajFault ≤ q.pgMajFault

/-- The controllers with counters are the same, and no counter is lesser in the second payload. -/
structure Stats.Grows (p q : Stats) : Prop where
  cpu : Option.Rel Cpu.Grows p.cpu q.cpu
  memory : Option.Rel Memory.Grows p.memory q.memory

/-- A greater time has no fewer microseconds. -/
theorem microseconds_mono {t u : UInt64} (h : t ≤ u) : microseconds t ≤ microseconds u := by
  rw [UInt64.le_iff_toNat_le, toNat_microseconds, toNat_microseconds]
  exact Nat.div_le_div_right h

/-- Cpu counters that grow do so in the unified form. -/
theorem Cpu.Grows.toUnified {p q : Cpu} (h : p.Grows q) : p.toUnified.Grows q.toUnified where
  usageUsec := microseconds_mono h.usage.total
  userUsec := microseconds_mono h.usage.user
  systemUsec := microseconds_mono h.usage.kernel
  nrPeriods := h.throttling.periods
  nrThrottled := h.throttling.throttledPeriods
  throttledUsec := microseconds_mono h.throttling.throttledTime

/-- Memory counters that grow do so in the unified form. -/
theorem Memory.Grows.toUnified {p q : Memory} (h : p.Grows q) : p.toUnified.Grows q.toUnified :=
  ⟨h.pgFault, h.pgMajFault⟩

end Legacy

/-! ## Both forms -/

/-- Related groups stay related when each is mapped. -/
theorem rel_map {α β : Type} {r : α → α → Prop} {s : β → β → Prop} (f : α → β)
    (hf : ∀ a b, r a b → s (f a) (f b)) {a b : Option α} (h : Option.Rel r a b) :
    Option.Rel s (a.map f) (b.map f) := by
  cases h with
  | none => exact .none
  | some h => exact .some (hf _ _ h)

/-- The controllers with counters stay what they are. -/
theorem Legacy.Stats.Grows.toUnified {p q : Legacy.Stats} (h : p.Grows q) :
    p.toUnified.Grows q.toUnified where
  cpu := rel_map Cpu.toUnified (fun _ _ => Cpu.Grows.toUnified) h.cpu
  memory := rel_map Memory.toUnified (fun _ _ => Memory.Grows.toUnified) h.memory
  io := .none
  memoryEvents := .none

/-- The payloads are of one version, and no counter is lesser in the second one. -/
inductive Content.Grows : Content → Content → Prop where
  | legacy {p q : Legacy.Stats} (h : p.Grows q) : Grows (.legacy p) (.legacy q)
  | unified {p q : Unified.Stats} (h : p.Grows q) : Grows (.unified p) (.unified q)

/-- **Counters grow in the unified form as well.** -/
theorem Content.Grows.toUnified {p q : Content} (h : p.Grows q) :
    p.toUnified.Grows q.toUnified := by
  cases h with
  | legacy h => exact h.toUnified
  | unified h => exact h

end ContainerUsage.Payload
