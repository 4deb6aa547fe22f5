import Mathlib
import ContainerUsage.Collector.Exposition
import ContainerUsage.Proofs.Collector.Families
import ContainerUsage.Proofs.Metric.Describable

/-!
# The names in a scrape

Names are checked when a metric is described, so a scrape has no others: each family has a name that
a metric can have, and each label a name that a label can have, whatever the tasks are and whatever
they answer. And the families have different names, because the metrics of the catalog have.

* `Descriptor.Valid` is what the checks leave behind. All descriptors of a collector have passed
  them (`Registered.valid`).
* `Naming.toList_fqName` says what full names have in common, so under one naming they differ where
  the metrics do (`Metric.nodup_fqName_catalog`).
* `valid_of_mem_assemble` and `Registered.nodup_names` are the results for the families of any
  answers.
* `Exposition.merge_eq_self` is what follows for the text of a scrape: gathering neither leaves a
  family out nor makes one of two.
-/

namespace ContainerUsage

/-! ## Valid descriptors -/

namespace Descriptor

/-- The parts of a descriptor pass their checks. -/
structure Valid (d : Descriptor) : Prop where
  fqName : isMetricName d.fqName = true
  help : d.help ≠ ""
  constLabels : ∀ name ∈ d.constLabels.names, isLabelName name = true
  variableLabels : ∀ name ∈ d.variableLabels, isLabelName name = true

/-- Variable labels that pass the check have names that a label can have. -/
theorem isLabelName_of_checkVariableLabels {seen labels : List String}
    (h : checkVariableLabels seen labels = .ok ()) :
    ∀ label ∈ labels, isLabelName label = true := by
  induction labels generalizing seen with
  | nil => exact List.forall_mem_nil _
  | cons label rest ih =>
    rw [checkVariableLabels] at h
    split at h
    · simp at h
    · next hname =>
      split at h
      · simp at h
      · exact List.forall_mem_cons.2 ⟨by simpa using hname, ih h⟩

end Descriptor

namespace Metric

/-- A metric is described by a descriptor that passes the checks. -/
theorem valid_of_describe {naming : Naming} {metric : Metric} {d : Descriptor}
    (h : metric.describe naming = .ok d) : d.Valid := by
  obtain ⟨hhelp, hname, hfits, hvariable⟩ := Naming.exists_describe_iff.1 ⟨d, h⟩
  obtain ⟨rfl, -, -⟩ := Naming.describe_eq_ok h
  exact ⟨hname, hhelp, fun name hmem => (hfits name hmem).1,
    Descriptor.isLabelName_of_checkVariableLabels hvariable⟩

/-- Whatever is described is valid. -/
theorem valid_of_describeAll {naming : Naming} {metrics : List Metric} {ds : List Descriptor}
    (h : describeAll naming metrics = .ok ds) : ∀ d ∈ ds, d.Valid := by
  induction describeAll_eq_ok_iff.1 h with
  | nil => exact List.forall_mem_nil _
  | cons hd hrest ih =>
    refine List.forall_mem_cons.2 ⟨valid_of_describe hd, ?_⟩
    exact ih (describeAll_eq_ok_iff.2 hrest)

/-- Descriptors have the full names of their metrics. -/
theorem map_fqName_of_forall₂ {naming : Naming} {metrics : List Metric} {ds : List Descriptor}
    (h : List.Forall₂ (Describes naming) metrics ds) :
    ds.map (·.fqName) = metrics.map fun metric => naming.fqName metric.name metric.unit := by
  induction h with
  | nil => rfl
  | cons hd _ ih => rw [List.map_cons, List.map_cons, ih, hd.fqName]

end Metric

/-! ## Full names -/

/-- What a part of a naming puts in front of the rest of a full name. -/
def Naming.lead (part : String) : List Char := if part = "" then [] else part.toList ++ ['_']

/-- Full names start with what the naming adds, and end with the metric and the unit. -/
theorem Naming.toList_fqName (naming : Naming) {metric unit : String} (hmetric : metric ≠ "")
    (hunit : unit ≠ "") :
    (naming.fqName metric unit).toList =
      lead naming.name ++
        (lead (naming.subsystem.getD "") ++ (metric.toList ++ '_' :: unit.toList)) := by
  by_cases hname : naming.name = "" <;> by_cases hsubsystem : naming.subsystem.getD "" = "" <;>
    simp [fqName, lead, hname, hsubsystem, hmetric, hunit]

/-- The metrics of the catalog have different full names under every naming. -/
theorem Metric.nodup_fqName_catalog (naming : Naming) :
    (catalog.map fun metric => naming.fqName metric.name metric.unit).Nodup := by
  have hparts : ∀ metric ∈ catalog, metric.name ≠ "" ∧ metric.unit ≠ "" := by decide
  have hdistinct :
      (catalog.map fun metric => metric.name.toList ++ '_' :: metric.unit.toList).Nodup := by
    decide +kernel
  apply (List.nodup_map_iff_inj_on hdistinct.of_map).2
  intro metric hmetric other hother heq
  obtain ⟨hname, hunit⟩ := hparts metric hmetric
  obtain ⟨hname', hunit'⟩ := hparts other hother
  have htext := congrArg String.toList heq
  rw [naming.toList_fqName hname hunit, naming.toList_fqName hname' hunit'] at htext
  exact List.inj_on_of_nodup_map hdistinct hmetric hother
    (List.append_cancel_left (List.append_cancel_left htext))

namespace Collector

/-! ## The families of answers -/

/-- All descriptors of a collector pass their checks. -/
structure Valid (c : Collector) : Prop where
  descriptors : ∀ d ∈ c.descriptors, d.Valid
  own : ∀ r ∈ c.registrations, ∀ d ∈ r.descriptors.getD c.descriptors, d.Valid

variable {naming : Naming} {start c : Collector} {calls : List Call}
  {answers : List (Registration × Answer)}

/-- A task is registered with descriptors that pass the checks. -/
theorem valid_of_describeTask {labels : LabelSet} {own : List Descriptor}
    (hown : ∀ d ∈ own, d.Valid)
    {ds : Option (List Descriptor)} (h : describeTask naming labels = .ok ds) :
    ∀ d ∈ ds.getD own, d.Valid := by
  unfold describeTask at h
  split at h
  · obtain rfl := Except.ok.inj h
    exact hown
  · cases hds : Metric.describeAll (naming.withLabels labels) Metric.catalog with
    | error e =>
      rw [hds] at h
      cases h
    | ok others =>
      rw [hds] at h
      obtain rfl := Except.ok.inj h
      exact Metric.valid_of_describeAll hds

/-- A collector that calls lead to has valid descriptors only, its own and those of its tasks. -/
theorem Registered.valid (h : Registered naming start calls c)
    (hstart : Metric.describeAll naming Metric.catalog = .ok start.descriptors) : c.Valid := by
  have hown : ∀ d ∈ c.descriptors, d.Valid := by
    rw [h.descriptors]
    exact Metric.valid_of_describeAll hstart
  refine ⟨hown, fun r hr => ?_⟩
  obtain ⟨labels, -, hds⟩ := h.added r hr
  exact valid_of_describeTask hown hds

/-- The labels of a sample have names that labels can have. -/
theorem isLabelName_of_sample {d : Descriptor} (hd : d.Valid) {task : Task}
    {v : MetricValue} {s : Sample}
    (h : sample d task v = .ok s) : ∀ label ∈ s.labels, isLabelName label.1 = true := by
  unfold sample at h
  dsimp only at h
  split at h
  · obtain rfl := Except.ok.inj h
    intro label hlabel
    rcases List.mem_append.1 (List.mem_mergeSort.1 hlabel) with hconst | hvariable
    · exact hd.constLabels _ (List.mem_map_of_mem hconst)
    · exact hd.variableLabels _ (List.of_mem_zip hvariable).1
  · simp at h

/-- What is checked of a family before it is written, and the names of its labels. -/
structure Shown (family : Family) : Prop where
  name : isMetricName family.name = true
  help : family.help ≠ ""
  samples : family.samples ≠ []
  labels : ∀ s ∈ family.samples, ∀ label ∈ s.labels, isLabelName label.1 = true

/-- **The names in a scrape are valid**, whatever the answers are. -/
theorem valid_of_mem_assemble (hc : c.Valid)
    (hanswers : ∀ entry ∈ answers, entry.1 ∈ c.registrations)
    {family : Family} (h : family ∈ (c.assemble answers).families) : Shown family := by
  obtain ⟨hall, hsamples⟩ := List.mem_filter.1 h
  obtain ⟨made, hmade, rfl⟩ := List.mem_map.1 hall
  obtain ⟨⟨⟨metric, d⟩, index⟩, hentry, rfl⟩ := List.mem_map.1 hmade
  have hd : d.Valid := hc.descriptors d (List.of_mem_zip (List.fst_mem_of_mem_zipIdx hentry)).2
  refine ⟨hd.fqName, hd.help, by simpa using hsamples, fun s hs => ?_⟩
  -- the sample comes from a reading of a registered task
  obtain ⟨result, hresult, hok⟩ := List.mem_filterMap.1 hs
  obtain ⟨reading, hreading, hmem⟩ := List.mem_flatMap.1 hresult
  obtain ⟨entry, hentry, heq⟩ := exists_answer_of_mem_readings hreading
  unfold samplesOf at hmem
  split at hmem
  · exact absurd hmem List.not_mem_nil
  · next own hown =>
    obtain ⟨v, -, rfl⟩ := List.mem_map.1 hmem
    have hvalid := hc.own _ (heq ▸ hanswers entry hentry) own (List.mem_of_getElem? hown)
    cases hsample : sample own reading.registration.task v with
    | error notice => simp [hsample, Except.toOption] at hok
    | ok shown =>
      obtain rfl : shown = s := by simpa [hsample, Except.toOption] using hok
      exact isLabelName_of_sample hvalid hsample

/-- A disabled collector shows nothing. -/
theorem families_of_disabled (h : c.naming = none) (answers : List (Registration × Answer)) :
    (c.assemble answers).families = [] := by
  simp [assemble, metrics, h]

/-- **The families of a scrape have different names.** -/
theorem Registered.nodup_names (h : Registered naming start calls c)
    (hstart : Metric.describeAll naming Metric.catalog = .ok start.descriptors)
    (answers : List (Registration × Answer)) :
    ((c.assemble answers).families.map (·.name)).Nodup := by
  have hdescribes := Metric.forall₂_describes hstart
  have hmetrics : c.metrics = Metric.catalog := by simp [metrics, h.enabled]
  have hzip : (Metric.catalog.zip c.descriptors).map Prod.snd = start.descriptors := by
    rw [h.descriptors]
    exact List.map_snd_zip (le_of_eq hdescribes.length_eq.symm)
  -- before some are left out, there is a family for each descriptor
  have hall : (((c.metrics.zip c.descriptors).zipIdx.map fun entry =>
      c.familyAt (readings answers).1 entry.2 entry.1.1 entry.1.2).map Prod.fst).map (·.name) =
        Metric.catalog.map fun metric => naming.fqName metric.name metric.unit :=
    calc _ = (((c.metrics.zip c.descriptors).zipIdx.map Prod.fst).map Prod.snd).map (·.fqName) := by
          simp only [List.map_map]
          rfl
      _ = start.descriptors.map (·.fqName) := by rw [List.zipIdx_map_fst, hmetrics, hzip]
      _ = _ := Metric.map_fqName_of_forall₂ hdescribes
  have hnodup := Metric.nodup_fqName_catalog naming
  rw [← hall] at hnodup
  exact hnodup.sublist (List.filter_sublist.map _)

end Collector

/-! ## Gathered families -/

namespace Exposition

/-- A family with its samples as they are written. -/
def sorted (family : Family) : Family :=
  { family with samples := family.samples.mergeSort sampleLE }

/-- Families are arranged by their names, each with its samples sorted. -/
theorem arrange_eq (families : List Family) :
    arrange families = (families.map sorted).mergeSort fun a b => a.name ≤ b.name :=
  List.map_mergeSort fun _ _ _ _ => rfl

/-- Families are arranged in another order, and so are the samples of each. -/
theorem arrange_perm (families : List Family) : (arrange families).Perm (families.map sorted) := by
  rw [arrange_eq]
  exact List.mergeSort_perm _ _

/-- A family whose name is new is put at the end. -/
theorem put_of_forall_ne {family : Family} {families : List Family}
    (h : ∀ other ∈ families, other.name ≠ family.name) :
    put family families = families ++ [family] := by
  induction families with
  | nil => rfl
  | cons first rest ih =>
    obtain ⟨hfirst, hrest⟩ := List.forall_mem_cons.1 h
    rw [put, if_neg hfirst, ih hrest, List.cons_append]

/-- Where all families have samples and different names, they stay as they are. -/
theorem merge_eq_self {families : List Family} (hsamples : ∀ family ∈ families, family.samples ≠ [])
    (hnames : (families.map (·.name)).Nodup) : merge families = families := by
  have hfilter : families.filter (!·.samples.isEmpty) = families := by
    apply List.filter_eq_self.2
    intro family hfamily
    simpa using hsamples family hfamily
  rw [merge, hfilter]
  clear hsamples hfilter
  induction families using List.reverseRecOn with
  | nil => rfl
  | append_singleton families family ih =>
    rw [List.map_append, List.nodup_append'] at hnames
    obtain ⟨hfront, -, hdisjoint⟩ := hnames
    rw [List.foldl_append, ih hfront]
    apply put_of_forall_ne
    intro other hother heq
    exact hdisjoint (List.mem_map_of_mem hother) (List.mem_singleton.2 heq)

end Exposition

end ContainerUsage
