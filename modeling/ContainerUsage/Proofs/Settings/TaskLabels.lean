import Mathlib
import ContainerUsage.Settings.Basic
import ContainerUsage.Proofs.Collector.Holdings
import ContainerUsage.Proofs.Metric.Describable

/-!
# Labels that every task can carry

The labels for all tasks are checked when the settings are read, against one descriptor that has the
labels of every task and no others. A task is added with descriptors for the whole catalog, whose
metrics have labels of their own: the numbers of a device and a page size.

* `Settings.checkLabels_eq_ok_iff` and `Collector.exists_describeTask_iff` say which labels pass the
  one check and which the other.
* `Settings.exists_add_taskLabels_iff` compares them: labels from the settings are accepted with any
  task and at any time, unless one of them is named like a label that tells devices or page sizes
  apart. Then every task that is not registered is refused, with an error that names the label.
* `Settings.refused_of_major` is such a case: settings that are accepted, a collector that can be
  made for them, and no task that it takes.
-/

namespace ContainerUsage

/-- The empty set fits beside all labels. -/
theorem LabelSet.fits_of_isEmpty {labels : LabelSet} (h : labels.isEmpty = true)
    (variableLabels : List String) : labels.Fits variableLabels := by
  intro name hname
  rw [names, List.isEmpty_iff.1 h] at hname
  exact absurd hname List.not_mem_nil

/-! ## The two checks -/

namespace Settings

/-- Labels pass the check of the settings iff they fit beside the labels of every task. -/
theorem checkLabels_eq_ok_iff {labels : LabelSet} :
    checkLabels labels = .ok () ↔ labels.Fits baseLabels := by
  have hplain : ((Naming.mk "task" none .empty).describe "labels" "" "Task label validation."
      baseLabels).toOption.isSome = true := by
    decide +kernel
  cases hd : (Naming.mk "task" none .empty).describe "labels" "" "Task label validation."
      baseLabels with
  | error cause =>
    rw [hd] at hplain
    cases hplain
  | ok d =>
    have hiff := Naming.exists_describe_withLabels_iff hd labels
    rw [Naming.withLabels, LabelSet.union_empty_left] at hiff
    unfold checkLabels
    split
    · next hempty => exact iff_of_true rfl (LabelSet.fits_of_isEmpty hempty _)
    · rw [← hiff]
      split
      · next cause hcause => simp [hcause]
      · next other hok => exact iff_of_true rfl ⟨other, hok⟩

/-- The labels of settings have passed their check. -/
theorem fits_taskLabels {lookup : Variable → Option String} {settings : Settings}
    (h : ofLookup lookup = .ok settings) : settings.taskLabels.Fits baseLabels := by
  unfold ofLookup at h
  split at h
  · simp at h
  · split at h
    · simp at h
    · split at h
      · simp at h
      · next taskLabels _ =>
        split at h
        · simp at h
        · next hcheck =>
          obtain rfl := Except.ok.inj h
          exact checkLabels_eq_ok_iff.1 hcheck

end Settings

namespace Collector

variable {naming : Naming} {own : List Descriptor}

/-- Labels are accepted with a task iff they fit beside all labels that samples use themselves. -/
theorem exists_describeTask_iff (h : Metric.describeAll naming Metric.catalog = .ok own)
    (labels : LabelSet) :
    (∃ ds, describeTask naming labels = .ok ds) ↔
      labels.Fits (baseLabels ++ ["major", "minor", "page"]) := by
  unfold describeTask
  split
  · next hempty => exact iff_of_true ⟨none, rfl⟩ (LabelSet.fits_of_isEmpty hempty _)
  · rw [← Metric.exists_describeAll_withLabels_iff h labels]
    cases Metric.describeAll (naming.withLabels labels) Metric.catalog <;> simp [Except.map]

/-- Labels that fit beside the labels of every task are refused with a conflict with a label of a
metric. -/
theorem describeTask_eq_error (h : Metric.describeAll naming Metric.catalog = .ok own)
    {labels : LabelSet} (hfits : labels.Fits baseLabels) {cause : MetricError}
    (herror : describeTask naming labels = .error cause) :
    ∃ label ∈ labels.names, label ∈ ["major", "minor", "page"] ∧
      ∃ metric, cause = .labelConflict label metric := by
  unfold describeTask at herror
  split at herror
  · simp at herror
  · cases hds : Metric.describeAll (naming.withLabels labels) Metric.catalog with
    | ok ds =>
      rw [hds] at herror
      cases herror
    | error e =>
      rw [hds] at herror
      obtain rfl : e = cause := Except.error.inj herror
      obtain ⟨metric, hmetric, hd⟩ := Metric.describeAll_eq_error hds
      obtain ⟨d, hplain⟩ := Metric.exists_describeAll_iff.1 ⟨own, h⟩ metric hmetric
      obtain ⟨label, hvariable, hname, rfl⟩ := Naming.describe_withLabels_eq_error hplain
        (fun name hname => (hfits name hname).1) hd
      refine ⟨label, hname, ?_, _, rfl⟩
      rcases List.mem_append.1 hvariable with hbase | hown
      · exact absurd hbase (hfits label hname).2
      · exact Metric.mem_labels_catalog_iff.1 ⟨metric, hmetric, hown⟩

/-- A task that is missing is refused exactly with the error of its labels. -/
theorem add_eq_error_iff {c : Collector} (hn : c.naming = some naming) {task : Task}
    {labels : LabelSet} {cause : MetricError} (hc : c.contains task.id task.ns = false) :
    c.add task labels = .error cause ↔ describeTask naming labels = .error cause := by
  unfold add
  rw [hn]
  cases hds : describeTask naming labels <;> simp [hc, hds]

/-- A task that is registered can be added again. -/
theorem add_of_contains {c : Collector} {task : Task} (labels : LabelSet)
    (hc : c.contains task.id task.ns = true) : c.add task labels = .ok c := by
  unfold add
  split
  · rfl
  · rw [if_pos hc]

end Collector

/-! ## From the settings to a task -/

namespace Settings

variable {lookup : Variable → Option String} {settings : Settings} {naming : Naming}
  {start : Collector}

/-- **Labels from the settings are accepted with every task, unless one of them is named like a
label of a metric.** This holds for every collector that can be made for the settings and at any
time; a task that is refused is refused with a conflict that names the label. -/
theorem exists_add_taskLabels_iff (h : ofLookup lookup = .ok settings)
    (hnaming : settings.naming = some naming)
    (hstart : Collector.ofNaming settings.naming = .ok start) (calls : List Collector.Call)
    (task : Task) :
    ((∃ c, (start.run calls).add task settings.taskLabels = .ok c) ↔
        (start.run calls).contains task.id task.ns = true ∨
          ∀ name ∈ settings.taskLabels.names, name ∉ ["major", "minor", "page"]) ∧
      ∀ cause, (start.run calls).add task settings.taskLabels = .error cause →
        ∃ label ∈ settings.taskLabels.names, label ∈ ["major", "minor", "page"] ∧
          ∃ metric, cause = .labelConflict label metric := by
  rw [hnaming] at hstart
  have hfits := fits_taskLabels h
  have hown := (Collector.ofNaming_eq_ok hstart).2.2
  have henabled := (Collector.run_registered hstart calls).enabled
  cases hc : (start.run calls).contains task.id task.ns with
  | true =>
    have hadd := Collector.add_of_contains settings.taskLabels hc
    refine ⟨iff_of_true ⟨_, hadd⟩ (.inl rfl), ?_⟩
    intro cause herror
    cases hadd.symm.trans herror
  | false =>
    constructor
    · rw [Collector.exists_add_eq_ok_iff henabled task _ hc, Collector.exists_describeTask_iff hown]
      constructor
      · intro hall
        exact .inr fun name hname hmem => (hall name hname).2 (List.mem_append_right _ hmem)
      · rintro (hthere | hnew) name hname
        · simp at hthere
        · refine ⟨(hfits name hname).1, fun hmem => ?_⟩
          exact (List.mem_append.1 hmem).elim (hfits name hname).2 (hnew name hname)
    · intro cause herror
      exact Collector.describeTask_eq_error hown hfits
        ((Collector.add_eq_error_iff henabled hc).1 herror)

/-- An environment in which nothing is set but the labels of all tasks. -/
def onlyTaskLabels (value : String) (source : Variable) : Option String :=
  if source = .taskLabels then some value else none

/-- What settings are read where nothing is set but labels that pass their check. -/
theorem exists_ofLookup_onlyTaskLabels {value : String} {labels : LabelSet}
    (hparse : parseLabels value = .ok labels) (hfits : labels.Fits baseLabels) :
    ∃ settings, ofLookup (onlyTaskLabels value) = .ok settings ∧
      settings.naming = some ⟨"container", none, .empty⟩ ∧ settings.taskLabels = labels := by
  have hlisten : (parseListenAddr defaultListenAddr).toOption.isSome = true := by decide +kernel
  cases haddress : parseListenAddr defaultListenAddr with
  | error e =>
    rw [haddress] at hlisten
    cases hlisten
  | ok address =>
    refine ⟨⟨defaultCgroupRoot, address, some ⟨"container", none, .empty⟩, defaultScanInterval,
      labels⟩, ?_, rfl, rfl⟩
    have hcheck : checkLabels labels = .ok () := checkLabels_eq_ok_iff.2 hfits
    unfold ofLookup
    simp [onlyTaskLabels, haddress, hparse, hcheck, namingOf, defaultNamespace]

/-- Two labels and blanks around them, a task that is registered and removed again, and a further
one. -/
theorem exists_add_taskLabels_host_zone :
    ∃ settings start, ofLookup (onlyTaskLabels "host=node-1, zone = eu") = .ok settings ∧
      settings.naming = some ⟨"container", none, .empty⟩ ∧
      Collector.ofNaming settings.naming = .ok start ∧
      ∃ c, (start.run [.add ⟨"a", "moby", ⟨0⟩⟩ settings.taskLabels, .remove "a" "moby"]).add
        ⟨"b", "k8s.io", ⟨1⟩⟩ settings.taskLabels = .ok c := by
  have hparse : parseLabels "host=node-1, zone = eu" =
      .ok (.ofList [("host", "node-1"), ("zone", "eu")]) := by
    cbv
  have hnames : (LabelSet.ofList [("host", "node-1"), ("zone", "eu")]).names =
      ["host", "zone"] := by
    cbv
  have hfits : (LabelSet.ofList [("host", "node-1"), ("zone", "eu")]).Fits baseLabels := by
    unfold LabelSet.Fits
    rw [hnames]
    decide
  obtain ⟨settings, h, hnaming, hlabels⟩ := exists_ofLookup_onlyTaskLabels hparse hfits
  obtain ⟨start, hstart⟩ := Collector.exists_ofNaming_container
  rw [← hnaming] at hstart
  refine ⟨settings, start, h, hnaming, hstart, ?_⟩
  have hiff := (exists_add_taskLabels_iff h hnaming hstart
    [.add ⟨"a", "moby", ⟨0⟩⟩ settings.taskLabels, .remove "a" "moby"] ⟨"b", "k8s.io", ⟨1⟩⟩).1
  refine hiff.2 (.inr ?_)
  rw [hlabels, hnames]
  decide

/-- A label that is named like the first number of a device is accepted by the settings, and keeps
every task out of the collector. -/
theorem refused_of_major :
    ∃ settings start, ofLookup (onlyTaskLabels "major=8") = .ok settings ∧
      settings.naming = some ⟨"container", none, .empty⟩ ∧
      Collector.ofNaming settings.naming = .ok start ∧
      ∀ task, ∃ cause, start.add task settings.taskLabels = .error cause := by
  have hparse : parseLabels "major=8" = .ok (.ofList [("major", "8")]) := by cbv
  have hnames : (LabelSet.ofList [("major", "8")]).names = ["major"] := by cbv
  have hfits : (LabelSet.ofList [("major", "8")]).Fits baseLabels := by
    unfold LabelSet.Fits
    rw [hnames]
    decide
  obtain ⟨settings, h, hnaming, hlabels⟩ := exists_ofLookup_onlyTaskLabels hparse hfits
  obtain ⟨start, hstart⟩ := Collector.exists_ofNaming_container
  refine ⟨settings, start, h, hnaming, by rw [hnaming]; exact hstart, ?_⟩
  intro task
  have hmissing := Collector.contains_of_ofNaming hstart task.id task.ns
  obtain ⟨henabled, -, hown⟩ := Collector.ofNaming_eq_ok hstart
  cases hadd : start.add task settings.taskLabels with
  | error cause => exact ⟨cause, rfl⟩
  | ok c =>
    have hds := (Collector.exists_add_eq_ok_iff henabled task _ hmissing).1 ⟨c, hadd⟩
    rw [hlabels, Collector.exists_describeTask_iff hown] at hds
    have hname : "major" ∈ (LabelSet.ofList [("major", "8")]).names := by simp [hnames]
    exact absurd (by decide) (hds "major" hname).2

end Settings

end ContainerUsage
