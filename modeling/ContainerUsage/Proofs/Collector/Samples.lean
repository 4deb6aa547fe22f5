import Mathlib
import ContainerUsage.Collector.Collect
import ContainerUsage.Proofs.Collector.History

/-!
# The samples of a scrape

What a scrape has to show of a metric is fixed by the answers alone: `reported answers metric` are
the values of the metric in the answers that can be read, task by task and, for one task, in the
order of its stats. This file shows that the samples of a metric are exactly these values.

* `Sample.Shows constant metric task v s` says what the sample of a value is: its number, and labels
  that are strictly sorted by name and are those of the task, those of the value and the constant
  ones, and no others.
* `exists_sample` is the main step: under a descriptor of the metric a value of the metric always
  has a sample. The number of labels fits because the labels of a value follow from the metric
  (`Series.length_labels_of_mem_values`), and no two labels share a name because a descriptor keeps
  its names apart (`Metric.Describes`).
* `forall₂_samplesAt` goes through the readings of all tasks: the samples of a metric and the
  reported values stand one to one, in one order.
-/

namespace ContainerUsage

/-! ## One sample -/

/-- The sample of a value of a task, under constant labels. -/
structure Sample.Shows (constant : LabelSet) (metric : Metric) (task : Task) (v : MetricValue)
    (s : Sample) : Prop where
  value : s.value = v.value
  /-- No name comes twice, and the names rise. -/
  sorted : s.labels.Pairwise fun a b => a.1 < b.1
  mem_labels : ∀ name value, (name, value) ∈ s.labels ↔
    (name, value) ∈ [("container_id", task.id), ("namespace", task.ns)] ∨
      (name, value) ∈ metric.labels.zip v.labels ∨ constant.get? name = some value

namespace Collector

/-- Sorting labels with different names makes the names rise strictly. -/
theorem pairwise_sortLabels {labels : List Label} (h : (labels.map Prod.fst).Nodup) :
    (sortLabels labels).Pairwise fun a b => a.1 < b.1 := by
  have hperm : (sortLabels labels).Perm labels := List.mergeSort_perm _ _
  have hle : (sortLabels labels).Pairwise fun a b => a.1 ≤ b.1 := by
    have hsort := @List.pairwise_mergeSort Label (fun a b => decide (a.1 ≤ b.1))
      (fun a b c hab hbc => by
        rw [decide_eq_true_iff] at hab hbc ⊢
        exact le_trans hab hbc)
      (fun a b => by
        rw [Bool.or_eq_true, decide_eq_true_iff, decide_eq_true_iff]
        exact le_total a.1 b.1) labels
    exact hsort.imp fun hab => of_decide_eq_true hab
  have hne : (sortLabels labels).Pairwise fun a b => a.1 ≠ b.1 :=
    List.pairwise_map.1 ((hperm.map Prod.fst).nodup_iff.2 h)
  exact hle.imp₂ (fun _ _ hab hne => lt_of_le_of_ne hab hne) hne

/-- The names of the labels of a sample are all different. -/
theorem nodup_names {naming : Naming} {metric : Metric} {d : Descriptor}
    (h : metric.Describes naming d) {values : List String}
    (hlength : d.variableLabels.length = values.length) :
    ((d.constLabels.pairs ++ d.variableLabels.zip values).map Prod.fst).Nodup := by
  rw [List.map_append, List.map_fst_zip (le_of_eq hlength)]
  refine List.nodup_append'.2 ⟨?_, h.nodup, fun name hconst hvar => ?_⟩
  · exact List.pairwise_map.2 (d.constLabels.sorted.imp fun hab => ne_of_lt hab)
  · -- a constant label with the name of a variable one is what a descriptor rules out
    obtain ⟨⟨_, value⟩, hpair, rfl⟩ := List.mem_map.1 hconst
    have hthere := (LabelSet.contains_eq_true_iff _ _).2 ⟨value, hpair⟩
    rw [h.disjoint _ hvar] at hthere
    simp at hthere

/-- A value of a metric has a sample under each descriptor of the metric. -/
theorem exists_sample {naming : Naming} {metric : Metric} {d : Descriptor}
    (h : metric.Describes naming d) (task : Task) {v : MetricValue}
    (hv : v.labels.length = metric.labels.length) :
    ∃ s, sample d task v = .ok s ∧ Sample.Shows naming.labels metric task v s := by
  have hlength : d.variableLabels.length = (task.id :: task.ns :: v.labels).length := by
    rw [h.variableLabels]
    simp [baseLabels, hv]
  refine ⟨⟨sortLabels (d.constLabels.pairs ++
    d.variableLabels.zip (task.id :: task.ns :: v.labels)), v.value⟩, ?_, ?_⟩
  · exact if_pos hlength
  · refine ⟨rfl, pairwise_sortLabels (nodup_names h hlength), ?_⟩
    intro name value
    have hzip : d.variableLabels.zip (task.id :: task.ns :: v.labels) =
        [("container_id", task.id), ("namespace", task.ns)] ++ metric.labels.zip v.labels := by
      rw [h.variableLabels]
      rfl
    rw [sortLabels, List.mem_mergeSort, hzip, List.mem_append, List.mem_append,
      ← LabelSet.get?_eq_some_iff, h.constLabels]
    tauto

/-! ## What the answers report -/

/-- The stats in an answer, if it can be read. -/
def stats? (answer : Answer) : Option Payload.Unified.Stats :=
  match answer with
  | .error _ => none
  | .ok envelope => envelope.content.toOption.map Payload.Content.toUnified

/-- The values of a metric in the answers that can be read, each with the task that gave it. -/
def reported (answers : List (Registration × Answer)) (metric : Metric) :
    List (Registration × MetricValue) :=
  answers.flatMap fun entry =>
    match stats? entry.2 with
    | none => []
    | some stats => (metric.values stats).map fun v => (entry.1, v)

/-- An answer that cannot be read reports nothing. -/
theorem reported_cons_of_none {answer : Answer} (h : stats? answer = none) (r : Registration)
    (rest : List (Registration × Answer)) (metric : Metric) :
    reported ((r, answer) :: rest) metric = reported rest metric := by
  rw [reported, List.flatMap_cons, h]
  rfl

/-- An answer that can be read reports the values of its stats, before those of the later answers.
-/
theorem reported_cons_of_some {answer : Answer} {stats : Payload.Unified.Stats}
    (h : stats? answer = some stats) (r : Registration) (rest : List (Registration × Answer))
    (metric : Metric) :
    reported ((r, answer) :: rest) metric =
      ((metric.values stats).map fun v => (r, v)) ++ reported rest metric := by
  rw [reported, List.flatMap_cons, h]
  rfl

/-- The stats of a task are those in its answer. -/
theorem statsOf_eq_ok_iff {task : Task} {answer : Answer} {stats : Payload.Unified.Stats} :
    statsOf task answer = .ok stats ↔ stats? answer = some stats := by
  unfold statsOf stats?
  cases answer with
  | error cause => simp
  | ok envelope => cases h : envelope.content <;> simp [h, Except.toOption]

/-- An answer that cannot be read is told as a task that gave no stats or one whose stats are
malformed. -/
theorem statsOf_eq_error {task : Task} {answer : Answer} {notice : Notice}
    (h : statsOf task answer = .error notice) :
    (∃ cause, notice = .fetchFailed task.id task.ns cause) ∨
      ∃ cause, notice = .decodeFailed task.id task.ns cause := by
  unfold statsOf at h
  split at h
  · next cause => exact .inl ⟨cause, (Except.error.inj h).symm⟩
  · split at h
    · next cause _ => exact .inr ⟨cause, (Except.error.inj h).symm⟩
    · simp at h

/-- The readings of a list of answers: those that can be read, in their order. -/
theorem fst_readings (answers : List (Registration × Answer)) :
    (readings answers).1 =
      answers.filterMap fun entry => (stats? entry.2).map (Reading.mk entry.1) := by
  induction answers with
  | nil => rfl
  | cons entry rest ih =>
    obtain ⟨r, answer⟩ := entry
    rw [readings, List.filterMap_cons]
    cases hstats : statsOf r.task answer with
    | ok stats => simp [statsOf_eq_ok_iff.1 hstats, ih]
    | error notice =>
      have hnone : stats? answer = none := by
        rw [Option.eq_none_iff_forall_ne_some]
        intro stats hsome
        rw [statsOf_eq_ok_iff.2 hsome] at hstats
        simp at hstats
      simp [hnone, ih]

/-- A reading is that of a task which gave an answer. -/
theorem exists_answer_of_mem_readings {answers : List (Registration × Answer)} {reading : Reading}
    (h : reading ∈ (readings answers).1) : ∃ entry ∈ answers, entry.1 = reading.registration := by
  rw [fst_readings, List.mem_filterMap] at h
  obtain ⟨entry, hentry, hsome⟩ := h
  obtain ⟨stats, -, rfl⟩ := Option.map_eq_some_iff.1 hsome
  exact ⟨entry, hentry, rfl⟩

/-! ## All samples of a metric -/

/-- A sample shows a value of a task, under the constant labels of the naming and the labels of the
add call that registered the task, which count where both have one. -/
def Taken (naming : Naming) (start : Collector) (calls : List Call) (metric : Metric) (s : Sample)
    (source : Registration × MetricValue) : Prop :=
  ∃ labels, AddedBy start calls source.1.task labels ∧
    Sample.Shows (naming.labels.union labels) metric source.1.task source.2 s

/-- The descriptors of a registered task, one for each metric of the catalog. -/
theorem Registered.describes {naming : Naming} {start c : Collector} {calls : List Call}
    (h : Registered naming start calls c)
    (hstart : Metric.describeAll naming Metric.catalog = .ok start.descriptors)
    {r : Registration} (hr : r ∈ c.registrations) :
    ∃ labels, AddedBy start calls r.task labels ∧
      List.Forall₂ (Metric.Describes (naming.withLabels labels)) Metric.catalog
        (r.descriptors.getD c.descriptors) := by
  obtain ⟨labels, hadded, hds⟩ := h.added r hr
  rw [h.descriptors]
  exact ⟨labels, hadded, forall₂_describes_of_describeTask hstart hds⟩

section samples

variable {naming : Naming} {start c : Collector} {calls : List Call}

/-- Every value of one reading is taken. -/
theorem forall₂_samplesOf (h : Registered naming start calls c)
    (hstart : Metric.describeAll naming Metric.catalog = .ok start.descriptors)
    {reading : Reading} (hr : reading.registration ∈ c.registrations) {index : Nat}
    {metric : Metric} (hmetric : Metric.catalog[index]? = some metric) :
    List.Forall₂ (fun result source => ∃ s, result = .ok s ∧
        Taken naming start calls metric s source)
      (c.samplesOf index metric reading)
      ((metric.values reading.stats).map fun v => (reading.registration, v)) := by
  obtain ⟨labels, hadded, hds⟩ := h.describes hstart hr
  obtain ⟨hindex, rfl⟩ := List.getElem?_eq_some_iff.1 hmetric
  have hindex' : index < (reading.registration.descriptors.getD c.descriptors).length :=
    hds.length_eq ▸ hindex
  have hd := hds.get hindex hindex'
  rw [samplesOf, List.getElem?_eq_getElem hindex', List.forall₂_map_left_iff,
    List.forall₂_map_right_iff, List.forall₂_same]
  intro v hv
  obtain ⟨s, hs, hshows⟩ := exists_sample hd reading.registration.task
    (Series.length_labels_of_mem_values hv)
  exact ⟨s, hs, labels, hadded, hshows⟩

/-- Every value that was reported is taken, and nothing else is. -/
theorem forall₂_samplesAt (h : Registered naming start calls c)
    (hstart : Metric.describeAll naming Metric.catalog = .ok start.descriptors)
    {answers : List (Registration × Answer)} (hanswers : ∀ entry ∈ answers,
      entry.1 ∈ c.registrations) {index : Nat} {metric : Metric}
    (hmetric : Metric.catalog[index]? = some metric) :
    List.Forall₂ (fun result source => ∃ s, result = .ok s ∧
        Taken naming start calls metric s source)
      (c.samplesAt (readings answers).1 index metric) (reported answers metric) := by
  rw [samplesAt, fst_readings]
  induction answers with
  | nil => exact .nil
  | cons entry rest ih =>
    obtain ⟨r, answer⟩ := entry
    have hrest := ih fun other hother => hanswers other (List.mem_cons_of_mem _ hother)
    rw [List.filterMap_cons]
    cases hstats : stats? answer with
    | none =>
      rw [reported_cons_of_none hstats]
      exact hrest
    | some stats =>
      rw [reported_cons_of_some hstats]
      exact List.rel_append
        (forall₂_samplesOf h hstart (hanswers (r, answer) List.mem_cons_self) hmetric) hrest

end samples

/-- What stands in the first of two lists has a partner in the second. -/
theorem exists_of_mem_forall₂ {α β : Type} {R : α → β → Prop} {as : List α} {bs : List β}
    (h : List.Forall₂ R as bs) {a : α} (ha : a ∈ as) : ∃ b ∈ bs, R a b := by
  induction h with
  | nil => exact absurd ha List.not_mem_nil
  | cons hhead _ ih =>
    rcases List.mem_cons.1 ha with rfl | hmem
    · exact ⟨_, List.mem_cons_self, hhead⟩
    · obtain ⟨b, hb, hab⟩ := ih hmem
      exact ⟨b, List.mem_cons_of_mem _ hb, hab⟩

/-- Where all results are samples, none is left out. -/
theorem forall₂_filterMap_toOption {α : Type} {R : Sample → α → Prop}
    {results : List (Except Notice Sample)} {sources : List α}
    (h : List.Forall₂ (fun result source => ∃ s, result = .ok s ∧ R s source) results sources) :
    List.Forall₂ R (results.filterMap Except.toOption) sources ∧
      ∀ notice, .error notice ∉ results := by
  induction h with
  | nil => exact ⟨.nil, fun _ => List.not_mem_nil⟩
  | cons hhead _ ih =>
    obtain ⟨s, rfl, hs⟩ := hhead
    refine ⟨.cons hs ih.1, ?_⟩
    intro notice hmem
    rcases List.mem_cons.1 hmem with heq | hmem
    · simp at heq
    · exact ih.2 notice hmem

end Collector

end ContainerUsage
