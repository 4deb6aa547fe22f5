import Mathlib
import ContainerUsage.Proofs.Collector.Asking
import ContainerUsage.Proofs.Collector.Samples

/-!
# The families of a scrape

A scrape is determined by the history of the collector and by the answers of the tasks, and this
file says how. The registry may hand out its tasks in any order, which is the `order` of the
statements (`inOrder`).

* `forall₂_families` is the general form: the families of a list of answers are those of the metrics
  of which something was reported, in the order of the catalog, and the samples of each are exactly
  the reported values, taken under the labels that `Taken` names.
* `forall₂_collect` is the same for the answers of a scrape.
* `families_collect` is the result for a scrape of a collector in any state that calls lead to,
  with any answers: names, help texts and kinds are those of the catalog at the same index, the
  samples are the reported values in their order, and none is ever left out for the number of its
  labels. Where every task has a source of its own, the answers are the next ones of these sources.
-/

namespace ContainerUsage

namespace Collector

/-- The collector when its registry hands out the tasks in another order. -/
def inOrder (c : Collector) (order : List Registration) : Collector :=
  { c with registrations := order }

/-- The order in which tasks are handed out changes nothing that a history establishes. -/
theorem Registered.inOrder {naming : Naming} {start c : Collector} {calls : List Call}
    (h : Registered naming start calls c) {order : List Registration}
    (hp : order.Perm c.registrations) : Registered naming start calls (c.inOrder order) where
  enabled := h.enabled
  descriptors := h.descriptors
  nodup_keys := (hp.map fun r : Registration => r.task.key).nodup_iff.2 h.nodup_keys
  added := fun r hr => h.added r (hp.mem_iff.1 hr)

/-- Asking tasks gives an answer of each, in their order. -/
theorem map_fst_askAll (host : Host) (registrations : List Registration) :
    (askAll host registrations).1.map Prod.fst = registrations := by
  induction registrations generalizing host with
  | nil => rfl
  | cons r rest ih =>
    rw [askAll, List.map_cons, ih]

/-- Only the tasks that are asked answer. -/
theorem mem_of_mem_askAll {host : Host} {registrations : List Registration}
    {entry : Registration × Answer} (hentry : entry ∈ (askAll host registrations).1) :
    entry.1 ∈ registrations := by
  have hthere := List.mem_map_of_mem (f := Prod.fst) hentry
  rwa [map_fst_askAll] at hthere

/-- The tasks that answer have different keys. -/
theorem Registered.nodup_keys_askAll {naming : Naming} {start c : Collector} {calls : List Call}
    (h : Registered naming start calls c) (host : Host) :
    (((askAll host c.registrations).1.map Prod.fst).map fun r => r.task.key).Nodup := by
  rw [map_fst_askAll]
  exact h.nodup_keys

/-- A family exposes a metric of the catalog under its descriptor: it has the name, the help text
and the kind, and the reported values as its samples. -/
structure Exposes (naming : Naming) (start : Collector) (calls : List Call)
    (answers : List (Registration × Answer)) (family : Family) (entry : Metric × Descriptor) :
    Prop where
  name : family.name = entry.2.fqName
  help : family.help = entry.2.help
  kind : family.kind = entry.1.kind
  samples : List.Forall₂ (Taken naming start calls entry.1) family.samples
    (reported answers entry.1)

section families

variable {naming : Naming} {start c : Collector} {calls : List Call}
  {answers : List (Registration × Answer)}

/-- The family at an index of the catalog exposes the metric there, and leaves nothing out. -/
theorem exposes_familyAt (h : Registered naming start calls c)
    (hstart : Metric.describeAll naming Metric.catalog = .ok start.descriptors)
    (hanswers : ∀ entry ∈ answers, entry.1 ∈ c.registrations) {index : Nat} {metric : Metric}
    (hmetric : Metric.catalog[index]? = some metric) (d : Descriptor) :
    (c.familyAt (readings answers).1 index metric d).2 = [] ∧
      Exposes naming start calls answers (c.familyAt (readings answers).1 index metric d).1
        (metric, d) := by
  obtain ⟨hsamples, hnone⟩ :=
    forall₂_filterMap_toOption (forall₂_samplesAt h hstart hanswers hmetric)
  refine ⟨?_, ⟨rfl, rfl, rfl, hsamples⟩⟩
  rw [familyAt]
  refine List.filterMap_eq_nil_iff.2 fun result hmem => ?_
  cases result with
  | ok s => rfl
  | error notice => exact absurd hmem (hnone notice)

/-- Every entry of a list with indices stands at its index. -/
theorem forall₂_zipIdx {α : Type} (l : List α) :
    List.Forall₂ (fun indexed entry => indexed.1 = entry ∧ l[indexed.2]? = some entry)
      l.zipIdx l := by
  rw [List.forall₂_iff_get]
  refine ⟨List.length_zipIdx, fun i h₁ h₂ => ?_⟩
  simp [List.getElem?_eq_getElem h₂]

/-- The families before those without samples are left out: one for each metric of the catalog. -/
theorem forall₂_allFamilies (h : Registered naming start calls c)
    (hstart : Metric.describeAll naming Metric.catalog = .ok start.descriptors)
    (hanswers : ∀ entry ∈ answers, entry.1 ∈ c.registrations) :
    List.Forall₂ (fun (family : Family × List Notice) entry =>
        family.2 = [] ∧ Exposes naming start calls answers family.1 entry)
      ((c.metrics.zip c.descriptors).zipIdx.map fun entry =>
        c.familyAt (readings answers).1 entry.2 entry.1.1 entry.1.2)
      (Metric.catalog.zip c.descriptors) := by
  have hmetrics : c.metrics = Metric.catalog := by simp [metrics, h.enabled]
  rw [hmetrics, List.forall₂_map_left_iff]
  refine (forall₂_zipIdx _).imp fun indexed entry hentry => ?_
  obtain ⟨rfl, hindex⟩ := hentry
  have hmetric : Metric.catalog[indexed.2]? = some indexed.1.1 :=
    (List.getElem?_zip_eq_some.1 hindex).1
  exact exposes_familyAt h hstart hanswers hmetric indexed.1.2

/-- **The families of a list of answers** expose the metrics of which something was reported, in the
order of the catalog; and notices tell of answers only. -/
theorem forall₂_families (h : Registered naming start calls c)
    (hstart : Metric.describeAll naming Metric.catalog = .ok start.descriptors)
    (hanswers : ∀ entry ∈ answers, entry.1 ∈ c.registrations) :
    List.Forall₂ (Exposes naming start calls answers) (c.assemble answers).families
        ((Metric.catalog.zip c.descriptors).filter fun entry =>
          !(reported answers entry.1).isEmpty) ∧
      (c.assemble answers).notices = (readings answers).2 := by
  obtain ⟨hnone, hall⟩ := (List.forall₂_and_left _ _).1 (forall₂_allFamilies h hstart hanswers)
  constructor
  · rw [assemble]
    refine List.rel_filter (fun family entry hexposes => ?_) (List.forall₂_map_left_iff.2 hall)
    -- a family is without samples iff nothing was reported
    have hlength := hexposes.samples.length_eq
    simp only [Bool.not_eq_true', List.isEmpty_eq_false_iff, ← List.length_pos_iff, hlength]
  · rw [assemble]
    dsimp only
    rw [List.flatMap_eq_nil_iff.2 hnone, List.append_nil]

/-- **The families of a scrape** are those of the answers of all tasks. -/
theorem forall₂_collect (h : Registered naming start calls c)
    (hstart : Metric.describeAll naming Metric.catalog = .ok start.descriptors) (host : Host) :
    List.Forall₂ (Exposes naming start calls (askAll host c.registrations).1)
        (c.collect host).1.families
        ((Metric.catalog.zip c.descriptors).filter fun entry =>
          !(reported (askAll host c.registrations).1 entry.1).isEmpty) ∧
      (c.collect host).1.notices = (readings (askAll host c.registrations).1).2 :=
  forall₂_families h hstart fun _ hentry => mem_of_mem_askAll hentry

/-- Notices of answers never tell of a number of labels. -/
theorem labelMismatch_notMem_readings (answers : List (Registration × Answer)) (metric : String)
    (expected actual : Nat) : .labelMismatch metric expected actual ∉ (readings answers).2 := by
  induction answers with
  | nil => exact List.not_mem_nil
  | cons entry rest ih =>
    obtain ⟨r, answer⟩ := entry
    rw [readings]
    cases hstats : statsOf r.task answer with
    | ok stats => exact ih
    | error notice =>
      refine List.not_mem_cons_of_ne_of_not_mem (fun heq => ?_) ih
      rcases statsOf_eq_error hstats with ⟨cause, rfl⟩ | ⟨cause, rfl⟩ <;> simp at heq

end families

/-! ## A scrape -/

/-- **The families of a scrape**, for every state that calls lead to, every order of the tasks and
every host to ask them through. Each task is asked once, and where the tasks have sources of their
own, each gives the next answer of its source. No list of descriptors is shorter than the catalog;
the families are those of the metrics of which something was reported, in the order of the catalog,
and expose exactly the reported values; and no value is left out for the number of its labels. -/
theorem families_collect {naming : Naming} {start : Collector}
    (h : ofNaming (some naming) = .ok start) (calls : List Call) {order : List Registration}
    (hp : order.Perm (start.run calls).registrations) (host : Host) :
    let c := (start.run calls).inOrder order
    let answers := (askAll host order).1
    let scrape := (c.collect host).1
    answers.map Prod.fst = order ∧
      ((order.map (·.task.source)).Nodup →
        answers = order.map fun r => (r, host.answers r.task.source 0)) ∧
      c.descriptors.length = Metric.catalog.length ∧
      (∀ r ∈ order, (r.descriptors.getD c.descriptors).length = Metric.catalog.length) ∧
      List.Forall₂ (Exposes naming start calls answers) scrape.families
        ((Metric.catalog.zip c.descriptors).filter fun entry =>
          !(reported answers entry.1).isEmpty) ∧
      ∀ metric expected actual, .labelMismatch metric expected actual ∉ scrape.notices := by
  intro c answers scrape
  have hstart := (ofNaming_eq_ok h).2.2
  have hc : Registered naming start calls c := (run_registered h calls).inOrder hp
  obtain ⟨hfamilies, hnotices⟩ := forall₂_collect hc hstart host
  refine ⟨map_fst_askAll host order, fst_askAll host, ?_, ?_, hfamilies, ?_⟩
  · rw [hc.descriptors]
    exact (Metric.forall₂_describes hstart).length_eq.symm
  · intro r hr
    obtain ⟨labels, -, hds⟩ := hc.describes hstart hr
    exact hds.length_eq.symm
  · intro metric expected actual
    rw [show scrape.notices = (readings answers).2 from hnotices]
    exact labelMismatch_notMem_readings answers metric expected actual

/-- One task that reports its processes, and one that fails. The answers are those of the two
sources, and there are two families with a sample of the first task each. -/
theorem families_collect_two_tasks :
    ∃ start, ofNaming (some ⟨"container", none, .empty⟩) = .ok start ∧
      let calls := [.add ⟨"a", "moby", ⟨0⟩⟩ .empty, .add ⟨"b", "moby", ⟨1⟩⟩ .empty]
      let c := start.run calls
      let host : Host :=
        { sources := [.script (.ok (.ofUnified { pids := some ⟨5, 100⟩ })) [],
            .script (.error (.reported "task is gone")) []] }
      let answers := (askAll host c.registrations).1
      answers = c.registrations.map (fun r => (r, host.answers r.task.source 0)) ∧
        List.Forall₂ (Exposes ⟨"container", none, .empty⟩ start calls answers)
          (c.collect host).1.families
          ((Metric.catalog.zip c.descriptors).filter fun entry =>
            !(reported answers entry.1).isEmpty) ∧
        (c.collect host).1.families.map (fun family =>
            (family.name, family.help, family.kind, family.samples.map (·.value.print))) =
          [("container_pids_current", "The current number of pids", .gauge, ["5"]),
            ("container_pids_limit", "The limit to the number of pids allowed", .gauge,
              ["100"])] := by
  obtain ⟨start, h⟩ := exists_ofNaming_container
  refine ⟨start, h, ?_⟩
  intro calls c host answers
  obtain ⟨-, howns, -, -, hfamilies, -⟩ := families_collect h calls (List.Perm.refl _) host
  have hsources : c.registrations.map (·.task.source) = [⟨0⟩, ⟨1⟩] := by
    refine eq_of_map_ofNaming h
      (f := fun start => (start.run calls).registrations.map (·.task.source)) ?_
    decide +kernel
  refine ⟨howns ?_, hfamilies, ?_⟩
  · rw [hsources]
    decide
  · refine eq_of_map_ofNaming h (f := fun start =>
      ((start.run calls).collect host).1.families.map fun family =>
        (family.name, family.help, family.kind, family.samples.map (·.value.print))) ?_
    decide +kernel

end Collector

end ContainerUsage
