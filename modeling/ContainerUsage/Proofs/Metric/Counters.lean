import Mathlib
import ContainerUsage.Metric.Catalog
import ContainerUsage.Proofs.Numeric.Double
import ContainerUsage.Proofs.Payload.Growth

/-!
# Counters never go backwards

A scraper takes a counter that becomes lesser for a restart, so a counter of a running task must not
become lesser on its way out: not when legacy stats are brought into the unified form, not when
numbers are rounded to double precision, and not when they are printed.

* `Series.Grows` says that the numbers of growing stats grow. It holds of all counters of the
  catalog (`Metric.grows_of_counter`); this is where a field of the wrong controller, or one that is
  no counter, would show.
* `Series.forall₂_numbers` follows for the numbers of a payload and `Series.forall₂_values` for its
  values, as rounding and printing keep the order.
* `Metric.counters_grow` puts this together for the payloads that tasks report.
-/

namespace ContainerUsage

open Payload

/-! ## The numbers of a series -/

namespace Series

/-- The numbers of the values, before they are rounded. -/
def numbers (series : Series) (stats : Unified.Stats) : List UInt64 :=
  match series with
  | .single field => (field stats).toList
  | .perDevice field => (devices stats).map field
  | .perPageSize field => stats.hugetlb.map field

/-- The values are these numbers in double precision. -/
theorem map_value_values (series : Series) (stats : Unified.Stats) :
    (series.values stats).map (·.value) = (series.numbers stats).map Double.ofUInt64 := by
  cases series <;> simp [values, numbers, Function.comp_def]

/-- The numbers of growing stats grow. This is not said of page sizes, which have no counters. -/
def Grows : Series → Prop
  | .single field => ∀ p q : Unified.Stats, p.Grows q → Option.Rel (· ≤ ·) (field p) (field q)
  | .perDevice field => ∀ p q : Unified.Device, p.Grows q → field p ≤ field q
  | .perPageSize _ => False

/-- A number of a controller grows if the controller does. -/
theorem grows_single {α : Type} {r : α → α → Prop} {group : Unified.Stats → Option α}
    (hgroup : ∀ p q : Unified.Stats, p.Grows q → Option.Rel r (group p) (group q))
    {field : α → UInt64} (hfield : ∀ a b, r a b → field a ≤ field b) :
    Grows (.single fun stats => (group stats).map field) :=
  fun p q h => rel_map field hfield (hgroup p q h)

variable {series : Series} {p q : Unified.Stats}

/-- A group is there in both or in neither. -/
theorem forall₂_toList {α : Type} {r : α → α → Prop} {a b : Option α} (h : Option.Rel r a b) :
    List.Forall₂ r a.toList b.toList := by
  cases h with
  | none => exact .nil
  | some h => exact .cons h .nil

/-- Payloads that grow have the same devices in the same order. -/
theorem forall₂_devices (h : p.Grows q) :
    List.Forall₂ Unified.Device.Grows (devices p) (devices q) := by
  have hio := h.io
  unfold devices
  generalize p.io = io at hio ⊢
  generalize q.io = io' at hio ⊢
  cases hio with
  | none => exact .nil
  | some hdevices => exact hdevices

/-- The numbers of the second payload are one by one at least those of the first. -/
theorem forall₂_numbers (hseries : series.Grows) (h : p.Grows q) :
    List.Forall₂ (· ≤ ·) (series.numbers p) (series.numbers q) := by
  cases series with
  | single field => exact forall₂_toList (hseries p q h)
  | perDevice field =>
    rw [numbers, numbers, List.forall₂_map_left_iff, List.forall₂_map_right_iff]
    exact (forall₂_devices h).imp hseries
  | perPageSize field => exact hseries.elim

end Series

/-! ## The values -/

/-- The labels are the same, and the second value is not the lesser one, in double precision or in
print. -/
structure MetricValue.Grows (v w : MetricValue) : Prop where
  labels : v.labels = w.labels
  value : v.value.toNat ≤ w.value.toNat
  printed : ∃ m n, Decimal.Denotes v.value.print m ∧ Decimal.Denotes w.value.print n ∧ m ≤ n

/-- Rounding and printing keep the order of numbers. -/
theorem MetricValue.grows_of_le {m n : UInt64} (h : m ≤ n) (labels : List String) :
    Grows ⟨.ofUInt64 m, labels⟩ ⟨.ofUInt64 n, labels⟩ := by
  have hvalue := Double.toNat_ofUInt64_mono h
  exact ⟨rfl, hvalue, _, _, Decimal.denotes_print _, Decimal.denotes_print _,
    Double.shortest_mono hvalue⟩

/-- The values of the second payload are one by one at least those of the first. -/
theorem Series.forall₂_values {series : Series} (hseries : series.Grows) {p q : Unified.Stats}
    (h : p.Grows q) :
    List.Forall₂ MetricValue.Grows (series.values p) (series.values q) := by
  cases series with
  | single field =>
    rw [values, values, List.forall₂_map_left_iff, List.forall₂_map_right_iff]
    exact (forall₂_toList (hseries p q h)).imp fun m n hle => MetricValue.grows_of_le hle []
  | perDevice field =>
    rw [values, values, List.forall₂_map_left_iff, List.forall₂_map_right_iff]
    refine (forall₂_devices h).imp fun device device' hdevice => ?_
    rw [hdevice.major, hdevice.minor]
    exact MetricValue.grows_of_le (hseries device device' hdevice) _
  | perPageSize field => exact hseries.elim

/-! ## The catalog -/

namespace Metric

/-- **The counters of the catalog grow with the stats.** -/
theorem grows_of_counter : ∀ metric ∈ catalog, metric.kind = .counter → metric.series.Grows := by
  have hcpu : ∀ {field : Unified.Cpu → UInt64}, (∀ a b, a.Grows b → field a ≤ field b) →
      Series.Grows (.single fun stats => stats.cpu.map field) :=
        Series.grows_single fun _ _ h => h.cpu
  have hmemory : ∀ {field : Unified.Memory → UInt64}, (∀ a b, a.Grows b → field a ≤ field b) →
      Series.Grows (.single fun stats => stats.memory.map field) :=
        Series.grows_single fun _ _ h => h.memory
  have hevents : ∀ {field : Unified.MemoryEvents → UInt64}, (∀ a b, a.Grows b → field a ≤ field b) →
      Series.Grows (.single fun stats => stats.memoryEvents.map field) :=
    Series.grows_single fun _ _ h => h.memoryEvents
  simp only [catalog, List.forall_mem_append]
  refine ⟨⟨⟨⟨?pids, ?cpu⟩, ?memory⟩, ?io⟩, ?hugetlb⟩
  case pids => simp [pidsMetrics]
  case cpu =>
    simp only [cpuMetrics, List.forall_mem_cons, forall_const]
    exact ⟨hcpu fun _ _ h => h.usageUsec, hcpu fun _ _ h => h.userUsec,
      hcpu fun _ _ h => h.systemUsec, hcpu fun _ _ h => h.nrPeriods,
      hcpu fun _ _ h => h.nrThrottled, hcpu fun _ _ h => h.throttledUsec, List.forall_mem_nil _⟩
  case memory =>
    simp only [memoryMetrics, List.forall_mem_cons, reduceCtorEq, false_implies,
      true_and, forall_const]
    exact ⟨hmemory fun _ _ h => h.pgfault, hmemory fun _ _ h => h.pgmajfault,
      hevents fun _ _ h => h.oom, hevents fun _ _ h => h.oomKill, List.forall_mem_nil _⟩
  case io =>
    simp only [ioMetrics, List.forall_mem_cons, forall_const]
    exact ⟨fun _ _ h => h.rbytes, fun _ _ h => h.wbytes, fun _ _ h => h.rios, fun _ _ h => h.wios,
      List.forall_mem_nil _⟩
  case hugetlb => simp [hugetlbMetrics]

/-- **Counters never go backwards on their way out.** Of two payloads of one version, with the same
controllers and block devices, in the second of which no counter is lesser, every counter of the
catalog takes numbers that are one by one at least those of the first. Their values have the same
labels, and are no lesser in double precision or in print. -/
theorem counters_grow {p q : Content} (h : p.Grows q) {metric : Metric} (hmetric : metric ∈ catalog)
    (hkind : metric.kind = .counter) :
    (∀ stats, (metric.values stats).map (·.value) =
      (metric.series.numbers stats).map Double.ofUInt64) ∧
      List.Forall₂ (· ≤ ·) (metric.series.numbers p.toUnified) (metric.series.numbers q.toUnified) ∧
      List.Forall₂ MetricValue.Grows (metric.values p.toUnified) (metric.values q.toUnified) := by
  have hseries := grows_of_counter metric hmetric hkind
  exact ⟨metric.series.map_value_values, Series.forall₂_numbers hseries h.toUnified,
    Series.forall₂_values hseries h.toUnified⟩

/-- The time of a container is taken up between two legacy payloads, up to the greatest number there
is. -/
theorem counters_grow_legacy :
    let p : Content := .legacy { cpu := some {} }
    let q : Content := .legacy { cpu := some { usage := some ⟨18446744073709551615, 999, 1000⟩ } }
    p.Grows q ∧ ∀ metric ∈ cpuMetrics,
      List.Forall₂ MetricValue.Grows (metric.values p.toUnified) (metric.values q.toUnified) := by
  intro p q
  have h : p.Grows q :=
    .legacy ⟨.some ⟨by constructor <;> decide, by constructor <;> decide⟩, .none⟩
  refine ⟨h, fun metric hmetric => ?_⟩
  have hcatalog : metric ∈ catalog := by
    simp only [catalog, List.mem_append, hmetric, true_or, or_true]
  have hkind : ∀ metric ∈ cpuMetrics, metric.kind = .counter := by decide
  exact (counters_grow h hcatalog (hkind metric hmetric)).2.2

end Metric

end ContainerUsage
