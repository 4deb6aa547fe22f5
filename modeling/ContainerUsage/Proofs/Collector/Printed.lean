import Mathlib
import ContainerUsage.Proofs.Collector.Families
import ContainerUsage.Proofs.Metric.Counters
import ContainerUsage.Proofs.Numeric.Shortest

/-!
# The numbers of a scrape in print

Every sample is the number of a payload in double precision, and is printed in few digits. Nothing
is lost on the way but what double precision has no room for.

* `PrintedFor v text w` says what the text for a number is: the digits of a whole number that rounds
  to the same double, with as few significant digits as there can be. `printedFor_print` says that
  numbers are printed so.
* `reportedNumbers` are the numbers of a metric in the answers of the tasks, and
  `map_value_reported` says that the values of a scrape are these in double precision.
* `Collector.printed_collect` puts the two together for a scrape in any state.
-/

namespace ContainerUsage

/-! ## One number -/

/-- The text for a number: the decimal digits of a whole number, which rounds to the same double as
the number, has as few significant digits as such a number can have, and is the number itself if
double precision has room for it. -/
structure PrintedFor (v : UInt64) (text : String) (w : ℕ) : Prop where
  denotes : Decimal.Denotes text w
  noLeadingZero : text.toList.head? = some '0' → text = "0"
  sameDouble : SameDouble w v.toNat
  fewest : ∀ u, SameDouble u v.toNat → Decimal.significantDigits w ≤ Decimal.significantDigits u
  exact_of_le : v.toNat ≤ 2 ^ 53 → w = v.toNat

/-- **Numbers are printed so.** -/
theorem printedFor_print (v : UInt64) :
    PrintedFor v (Double.ofUInt64 v).print (Double.ofUInt64 v).shortest where
  denotes := Decimal.denotes_print _
  noLeadingZero := Decimal.eq_of_head?_print
  sameDouble := sameDouble_iff.2 (Double.nearestDouble_shortest _)
  fewest _ hu := Double.significantDigits_shortest_le _ (sameDouble_iff.1 hu)
  exact_of_le := Double.shortest_ofUInt64

/-- Two numbers have the same text exactly if they round to the same double. -/
theorem print_eq_iff_sameDouble {v w : UInt64} :
    (Double.ofUInt64 v).print = (Double.ofUInt64 w).print ↔ SameDouble v.toNat w.toNat := by
  rw [Double.print_inj, sameDouble_iff, Double.ext_iff, Double.toNat_ofUInt64,
    Double.toNat_ofUInt64]

namespace Collector

/-! ## The numbers of a scrape -/

/-- The numbers of a metric in the answers that can be read, task by task and, for one task, in the
order of its stats. -/
def reportedNumbers (answers : List (Registration × Answer)) (metric : Metric) : List UInt64 :=
  answers.flatMap fun entry =>
    match stats? entry.2 with
    | none => []
    | some stats => metric.series.numbers stats

/-- The reported values are the reported numbers in double precision. -/
theorem map_value_reported (answers : List (Registration × Answer)) (metric : Metric) :
    (reported answers metric).map (·.2.value) =
      (reportedNumbers answers metric).map Double.ofUInt64 := by
  rw [reported, reportedNumbers, List.map_flatMap, List.map_flatMap]
  refine congrArg (List.flatMap · answers) (funext fun entry => ?_)
  cases stats? entry.2 with
  | none => rfl
  | some stats =>
    rw [← Series.map_value_values]
    simp [Metric.values]

/-- The samples of a family have the reported numbers in double precision. -/
theorem map_value_samples {naming : Naming} {start : Collector} {calls : List Call}
    {answers : List (Registration × Answer)} {family : Family} {entry : Metric × Descriptor}
    (h : Exposes naming start calls answers family entry) :
    family.samples.map (·.value) = (reportedNumbers answers entry.1).map Double.ofUInt64 := by
  rw [← map_value_reported]
  have hvalues : List.Forall₂ (· = ·) (family.samples.map (·.value))
      ((reported answers entry.1).map (·.2.value)) := by
    rw [List.forall₂_map_left_iff, List.forall₂_map_right_iff]
    refine h.samples.imp fun sample source htaken => ?_
    obtain ⟨labels, -, hshows⟩ := htaken
    exact hshows.value
  rwa [List.forall₂_eq_eq_eq] at hvalues

/-! ## A scrape -/

/-- **Printed numbers lose nothing but what double precision has no room for**, for every state that
calls lead to, every order of the tasks and all answers of either version. The answers are those of
the sources of the tasks, where each has its own. The samples of a family print the numbers that
were reported, one by one. The text for a number is that of a whole number that rounds to the same
double, with as few significant digits as there can be, and of the number itself up to `2 ^ 53`.
Printing keeps the order of numbers, and tells two of them apart exactly if they round to different
doubles. -/
theorem printed_collect {naming : Naming} {start : Collector}
    (h : ofNaming (some naming) = .ok start) (calls : List Call) {order : List Registration}
    (hp : order.Perm (start.run calls).registrations) (host : Host) :
    let c := (start.run calls).inOrder order
    let answers := (askAll host order).1
    ((order.map (·.task.source)).Nodup →
      answers = order.map fun r => (r, host.answers r.task.source 0)) ∧
    List.Forall₂ (fun family entry => family.samples.map (·.value.print) =
        (reportedNumbers answers entry.1).map fun v => (Double.ofUInt64 v).print)
      (c.collect host).1.families
      ((Metric.catalog.zip c.descriptors).filter fun entry =>
        !(reported answers entry.1).isEmpty) ∧
    ∃ number : UInt64 → ℕ, (∀ v, PrintedFor v (Double.ofUInt64 v).print (number v)) ∧
      (∀ v w, v ≤ w → number v ≤ number w) ∧
      ∀ v w, (Double.ofUInt64 v).print ≠ (Double.ofUInt64 w).print ↔
        ¬SameDouble v.toNat w.toNat := by
  intro c answers
  refine ⟨fst_askAll host, ?_, fun v => (Double.ofUInt64 v).shortest, printedFor_print,
    fun v w hle => Double.shortest_mono (Double.toNat_ofUInt64_mono hle),
    fun v w => print_eq_iff_sameDouble.not⟩
  have hc : Registered naming start calls c := (run_registered h calls).inOrder hp
  refine (forall₂_collect hc (ofNaming_eq_ok h).2.2 host).1.imp fun family entry hexposes => ?_
  have hvalues := congrArg (List.map Double.print) (map_value_samples hexposes)
  rwa [List.map_map, List.map_map] at hvalues

/-- A task with one process more than double precision has room for, and with the greatest limit
there is: what the source answers is what the two families print. -/
theorem printed_collect_limits :
    ∃ start, ofNaming (some ⟨"container", none, .empty⟩) = .ok start ∧
      let stats : Payload.Unified.Stats :=
        { pids := some ⟨9007199254740993, 18446744073709551615⟩ }
      let host : Host := { sources := [.script (.ok (.ofUnified stats)) []] }
      let c := start.run [.add ⟨"a", "moby", ⟨0⟩⟩ .empty]
      let answers := (askAll host c.registrations).1
      answers = c.registrations.map (fun r => (r, host.answers r.task.source 0)) ∧
      List.Forall₂ (fun family entry => family.samples.map (·.value.print) =
          (reportedNumbers answers entry.1).map fun v => (Double.ofUInt64 v).print)
        (c.collect host).1.families
        ((Metric.catalog.zip c.descriptors).filter fun entry =>
          !(reported answers entry.1).isEmpty) ∧
      (c.collect host).1.families.map (fun family =>
          (family.name, family.samples.map (·.value.print))) =
        [("container_pids_current", ["9007199254740992"]),
          ("container_pids_limit", ["18446744073709552000"])] := by
  obtain ⟨start, h⟩ := exists_ofNaming_container
  refine ⟨start, h, ?_⟩
  intro stats host c answers
  obtain ⟨howns, hprinted, -⟩ := printed_collect h [.add ⟨"a", "moby", ⟨0⟩⟩ .empty]
    (List.Perm.refl _) host
  have hsources : c.registrations.map (·.task.source) = [⟨0⟩] := by
    refine eq_of_map_ofNaming h (f := fun start => (start.run
      [.add ⟨"a", "moby", ⟨0⟩⟩ .empty]).registrations.map (·.task.source)) ?_
    decide +kernel
  refine ⟨howns ?_, hprinted, ?_⟩
  · rw [hsources]
    decide
  · refine eq_of_map_ofNaming h (f := fun start =>
      ((start.run [.add ⟨"a", "moby", ⟨0⟩⟩ .empty]).collect host).1.families.map fun family =>
        (family.name, family.samples.map (·.value.print))) ?_
    decide +kernel

end Collector

end ContainerUsage
