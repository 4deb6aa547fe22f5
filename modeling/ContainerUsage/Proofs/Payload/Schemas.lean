import Mathlib
import ContainerUsage.Payload.Envelope
import ContainerUsage.Proofs.Wire.RoundTrip

/-!
# The payloads are lawful

Each message type of the payloads has distinct field numbers, keeps every field in a place of its
own, and has no other places. Most of them have numbers only (`Schema.Numeric`), and are lawful at
any depth; each level of messages inside messages takes one more.

* `Unified.Stats.lawful` and `Legacy.Stats.lawful` are about the two payloads.
* `Legacy.Stats.length_write_le` bounds the body of the legacy payload, which holds no lists and no
  texts, and `Unified.Stats.length_write_le` that of a unified one without lists.
-/

namespace ContainerUsage.Payload

open Wire Codec

/-! ## The unified stats -/

namespace Unified

/-- The pids group is made of numbers. -/
theorem Pids.numeric : Pids.schema.Numeric where
  nodup := by decide
  range := by decide
  apart := by simp [Pids.schema]
  counts m := by
    unfold Pids.schema
    repeat refine .cons rfl ?_
    exact .nil

/-- The cpu group is made of numbers. -/
theorem Cpu.numeric : Cpu.schema.Numeric where
  nodup := by decide
  range := by decide
  apart := by simp [Cpu.schema]
  counts m := by
    unfold Cpu.schema
    repeat refine .cons rfl ?_
    exact .nil

/-- The memory group is made of numbers. -/
theorem Memory.numeric : Memory.schema.Numeric where
  nodup := by decide
  range := by decide
  apart := by simp [Memory.schema]
  counts m := by
    unfold Memory.schema
    repeat refine .cons rfl ?_
    exact .nil

/-- The counts of memory events are numbers. -/
theorem MemoryEvents.numeric : MemoryEvents.schema.Numeric where
  nodup := by decide
  range := by decide
  apart := by simp [MemoryEvents.schema]
  counts m := by
    unfold MemoryEvents.schema
    repeat refine .cons rfl ?_
    exact .nil

/-- The counters of a device are numbers, and so is what names it. -/
theorem Device.numeric : Device.schema.Numeric where
  nodup := by decide
  range := by decide
  apart := by simp [Device.schema]
  counts m := by
    unfold Device.schema
    repeat refine .cons rfl ?_
    exact .nil

/-- The io group is written as a list of messages, one for each device. -/
theorem Io.lawful (depth : Nat) : Io.schema.Lawful (depth + 1) where
  nodup := by decide
  range := by decide
  apart := by simp [Io.schema]
  fills m := by
    unfold Io.schema
    refine .cons (lawful_messages (Device.numeric.lawful depth)) rfl ?_
    exact .nil

/-- The use of a page size is written as two numbers and the text of the size. -/
theorem HugePages.lawful (depth : Nat) : HugePages.schema.Lawful depth where
  nodup := by decide
  range := by decide
  apart := by simp [HugePages.schema]
  fills m := by
    unfold HugePages.schema
    repeat refine .cons (lawful_number depth) rfl ?_
    refine .cons (lawful_text depth) rfl ?_
    exact .nil

/-- The unified stats are lawful, as their groups are: two messages deep, for the devices in the io
group. -/
theorem Stats.lawful (depth : Nat) : Stats.schema.Lawful (depth + 2) where
  nodup := by decide
  range := by decide
  apart := by simp [Stats.schema]
  fills m := by
    unfold Stats.schema
    refine .cons (lawful_message (Pids.numeric.lawful _)) rfl ?_
    refine .cons (lawful_message (Cpu.numeric.lawful _)) rfl ?_
    refine .cons (lawful_message (Memory.numeric.lawful _)) rfl ?_
    refine .cons (lawful_message (Io.lawful depth)) rfl ?_
    refine .cons (lawful_messages (HugePages.lawful _)) rfl ?_
    refine .cons (lawful_message (MemoryEvents.numeric.lawful _)) rfl ?_
    exact .nil

/-! ### Their size -/

/-- Stats without lists have a bounded length. -/
theorem Stats.length_write_le {stats : Stats} (hio : stats.io = none)
    (hpages : stats.hugetlb = []) :
    (Stats.schema.write stats).length ≤ 1680 := by
  have hpids (pids : Pids) : (Pids.schema.write pids).length ≤ 260 :=
    (Pids.numeric.length_write_le pids).trans (by decide)
  have hcpu (cpu : Cpu) : (Cpu.schema.write cpu).length ≤ 260 :=
    (Cpu.numeric.length_write_le cpu).trans (by decide)
  have hmemory : ∀ memory, (Memory.schema.write memory).length ≤ 260 :=
    Memory.numeric.length_write_le
  have hevents (events : MemoryEvents) : (MemoryEvents.schema.write events).length ≤ 260 :=
    (MemoryEvents.numeric.length_write_le events).trans (by decide)
  have hnothing : ((Codec.message Io.schema).write 6 stats.io).length ≤ 280 := by
    rw [hio]
    exact Nat.zero_le _
  have hempty : ((Codec.messages HugePages.schema).write 7 stats.hugetlb).length ≤ 280 := by
    rw [hpages]
    exact Nat.zero_le _
  refine Schema.length_write_le 280 ?_
  unfold Stats.schema
  refine List.forall_mem_cons.2 ⟨Field.length_write_message_le hpids (by decide) stats, ?_⟩
  refine List.forall_mem_cons.2 ⟨Field.length_write_message_le hcpu (by decide) stats, ?_⟩
  refine List.forall_mem_cons.2 ⟨Field.length_write_message_le hmemory (by decide) stats, ?_⟩
  refine List.forall_mem_cons.2 ⟨hnothing, List.forall_mem_cons.2 ⟨hempty, ?_⟩⟩
  exact List.forall_mem_singleton.2 (Field.length_write_message_le hevents (by decide) stats)

end Unified

/-! ## The legacy stats -/

namespace Legacy

/-- The legacy pids group is made of numbers. -/
theorem Pids.numeric : Pids.schema.Numeric where
  nodup := by decide
  range := by decide
  apart := by simp [Pids.schema]
  counts m := by
    unfold Pids.schema
    repeat refine .cons rfl ?_
    exact .nil

/-- The legacy cpu times are numbers. -/
theorem CpuUsage.numeric : CpuUsage.schema.Numeric where
  nodup := by decide
  range := by decide
  apart := by simp [CpuUsage.schema]
  counts m := by
    unfold CpuUsage.schema
    repeat refine .cons rfl ?_
    exact .nil

/-- The legacy throttling counters are numbers. -/
theorem Throttle.numeric : Throttle.schema.Numeric where
  nodup := by decide
  range := by decide
  apart := by simp [Throttle.schema]
  counts m := by
    unfold Throttle.schema
    repeat refine .cons rfl ?_
    exact .nil

/-- The legacy cpu group is written as two messages of numbers. -/
theorem Cpu.lawful (depth : Nat) : Cpu.schema.Lawful (depth + 1) where
  nodup := by decide
  range := by decide
  apart := by simp [Cpu.schema]
  fills m := by
    unfold Cpu.schema
    refine .cons (lawful_message (CpuUsage.numeric.lawful depth)) rfl ?_
    refine .cons (lawful_message (Throttle.numeric.lawful depth)) rfl ?_
    exact .nil

/-- A legacy memory entry is made of numbers. -/
theorem MemoryEntry.numeric : MemoryEntry.schema.Numeric where
  nodup := by decide
  range := by decide
  apart := by simp [MemoryEntry.schema]
  counts m := by
    unfold MemoryEntry.schema
    repeat refine .cons rfl ?_
    exact .nil

/-- The legacy memory group is written as numbers and two entries of numbers. -/
theorem Memory.lawful (depth : Nat) : Memory.schema.Lawful (depth + 1) where
  nodup := by decide
  range := by decide
  apart := by simp [Memory.schema]
  fills m := by
    unfold Memory.schema
    repeat refine .cons (lawful_number (depth + 1)) rfl ?_
    repeat refine .cons (lawful_message (MemoryEntry.numeric.lawful depth)) rfl ?_
    exact .nil

/-- The legacy stats are lawful, as their groups are. -/
theorem Stats.lawful (depth : Nat) : Stats.schema.Lawful (depth + 2) where
  nodup := by decide
  range := by decide
  apart := by simp [Stats.schema]
  fills m := by
    unfold Stats.schema
    refine .cons (lawful_message (Pids.numeric.lawful _)) rfl ?_
    refine .cons (lawful_message (Cpu.lawful depth)) rfl ?_
    refine .cons (lawful_message (Memory.lawful depth)) rfl ?_
    exact .nil

/-! ### Their size -/

/-- The legacy cpu group is short, whatever its numbers are. -/
theorem Cpu.length_write_le (cpu : Cpu) : (Cpu.schema.write cpu).length ≤ 160 := by
  have husage : ∀ usage, (CpuUsage.schema.write usage).length ≤ 60 :=
    CpuUsage.numeric.length_write_le
  have hthrottle : ∀ throttle, (Throttle.schema.write throttle).length ≤ 60 :=
    Throttle.numeric.length_write_le
  refine Schema.length_write_le 80 ?_
  unfold Cpu.schema
  refine List.forall_mem_cons.2 ⟨Field.length_write_message_le husage (by decide) cpu, ?_⟩
  exact List.forall_mem_singleton.2 (Field.length_write_message_le hthrottle (by decide) cpu)

/-- The legacy memory group is short, whatever its numbers are. -/
theorem Memory.length_write_le (memory : Memory) :
    (Memory.schema.write memory).length ≤ 420 := by
  have hentry : ∀ entry, (MemoryEntry.schema.write entry).length ≤ 40 :=
    MemoryEntry.numeric.length_write_le
  have hnumber : 20 ≤ 60 := by decide
  refine Schema.length_write_le 60 ?_
  unfold Memory.schema
  repeat
    refine List.forall_mem_cons.2
      ⟨(Field.length_write_number_le (by decide) memory).trans hnumber, ?_⟩
  repeat
    refine List.forall_mem_cons.2 ⟨Field.length_write_message_le hentry (by decide) memory, ?_⟩
  exact List.forall_mem_nil _

/-- Legacy stats are short as a whole, so that they fit into an envelope. -/
theorem Stats.length_write_le (stats : Stats) : (Stats.schema.write stats).length ≤ 1320 := by
  have hpids (pids : Pids) : (Pids.schema.write pids).length ≤ 420 :=
    (Pids.numeric.length_write_le pids).trans (by decide)
  have hcpu (cpu : Cpu) := (Cpu.length_write_le cpu).trans (show 160 ≤ 420 by decide)
  refine Schema.length_write_le 440 ?_
  unfold Stats.schema
  refine List.forall_mem_cons.2 ⟨Field.length_write_message_le hpids (by decide) stats, ?_⟩
  refine List.forall_mem_cons.2 ⟨Field.length_write_message_le hcpu (by decide) stats, ?_⟩
  exact List.forall_mem_singleton.2
    (Field.length_write_message_le Memory.length_write_le (by decide) stats)

end Legacy

end ContainerUsage.Payload
