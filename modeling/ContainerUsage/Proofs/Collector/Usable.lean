import Mathlib
import ContainerUsage.Proofs.Collector.Isolation
import ContainerUsage.Proofs.Collector.Names
import ContainerUsage.Proofs.Collector.Samples
import ContainerUsage.Proofs.Metric.Identifier
import ContainerUsage.Proofs.Metric.Refusal

/-!
# Under which names a collector can be made

A collector is made for a naming if all metrics of the catalog can be described under it, and this
file says for which namings that is so, and what such a collector describes.

* A full name goes on with the metric and the unit, so whether it is an identifier depends on what
  the naming puts in front of them (`Naming.isMetricName_fqName_iff`).
* `Usable` is what the parts of a naming must be, and `exists_describeAll_iff_usable` says that this
  is enough.
* `Collector.ofNaming_iff_usable` adds what the collector describes, which no call and no scrape
  changes.
-/

namespace ContainerUsage

/-! ## Full names -/

namespace Naming

/-- The lead of a part begins as the part does. -/
theorem head?_lead (part : String) : (lead part).head? = part.toList.head? := by
  by_cases hpart : part = ""
  · simp [lead, hpart]
  · have hne : part.toList ≠ [] := fun h => hpart (String.toList_eq_nil_iff.1 h)
    rw [lead, if_neg hpart, List.head?_append_of_ne_nil _ hne]

/-- The characters of a lead are those of its part and the underscore behind it. -/
theorem mem_lead {part : String} {c : Char} (h : c ∈ lead part) : c ∈ part.toList ∨ c = '_' := by
  by_cases hpart : part = ""
  · simp [lead, hpart] at h
  · simpa [lead, hpart] using h

/-- Every character of a part is in its lead. -/
theorem mem_lead_of_mem {part : String} {c : Char} (h : c ∈ part.toList) : c ∈ lead part := by
  by_cases hpart : part = ""
  · simp [hpart] at h
  · simp [lead, hpart, h]

variable {naming : Naming} {metric unit : String}

/-- **Whether a full name is one** depends on the two parts of the naming only. -/
theorem isMetricName_fqName_iff (hmetric : isMetricName metric = true)
    (hunit : isMetricName unit = true) :
    isMetricName (naming.fqName metric unit) = true ↔
      IsIdentifier ['_', ':'] (naming.name.toList ++ (naming.subsystem.getD "").toList) := by
  obtain ⟨hmetricNe, hmetric⟩ := isMetricName_iff.1 hmetric
  obtain ⟨hunitNe, hunit⟩ := isMetricName_iff.1 hunit
  have hhead : (naming.fqName metric unit).toList.head? =
      (naming.name.toList ++ (naming.subsystem.getD "").toList).head?.or metric.toList.head? := by
    have hne : metric.toList ≠ [] := fun h => hmetricNe (String.toList_eq_nil_iff.1 h)
    rw [naming.toList_fqName hmetricNe hunitNe, List.head?_append, List.head?_append,
      List.head?_append_of_ne_nil _ hne, head?_lead, head?_lead, List.head?_append, Option.or_assoc]
  have hfqNameNe : naming.fqName metric unit ≠ "" := by
    rw [ne_eq, ← String.toList_eq_nil_iff, naming.toList_fqName hmetricNe hunitNe]
    simp
  rw [isMetricName_iff, and_iff_right hfqNameNe]
  constructor
  · intro h
    refine ⟨fun c hc => h.chars c ?_, fun c hc => h.start c ?_⟩
    · rw [naming.toList_fqName hmetricNe hunitNe]
      rcases List.mem_append.1 hc with hc | hc
      · exact List.mem_append_left _ (mem_lead_of_mem hc)
      · exact List.mem_append_right _ (List.mem_append_left _ (mem_lead_of_mem hc))
    · rw [hhead, hc, Option.some_or]
  · intro h
    refine ⟨fun c hc => ?_, fun c hc => ?_⟩
    · have hjoint : c = '_' → c.isAlphanum = true ∨ c ∈ ['_', ':'] := by
        rintro rfl
        exact .inr List.mem_cons_self
      rw [naming.toList_fqName hmetricNe hunitNe] at hc
      simp only [List.mem_append, List.mem_cons] at hc
      rcases hc with hc | hc | hc | hc | hc
      · exact (mem_lead hc).elim (fun hc => h.chars c (List.mem_append_left _ hc)) hjoint
      · exact (mem_lead hc).elim (fun hc => h.chars c (List.mem_append_right _ hc)) hjoint
      · exact hmetric.chars c hc
      · exact hjoint hc
      · exact hunit.chars c hc
    · rw [hhead, Option.or_eq_some_iff] at hc
      rcases hc with hc | ⟨-, hc⟩
      · exact h.start c hc
      · exact hmetric.start c hc

end Naming

/-! ## Labels -/

/-- A set made of labels with different names has them in the order of the names. -/
theorem LabelSet.pairs_ofList {labels : List Label} (h : (labels.map Prod.fst).Nodup) :
    (LabelSet.ofList labels).pairs = Collector.sortLabels labels := by
  have hreverse : (labels.reverse.map Prod.fst).Nodup := by
    rwa [List.map_reverse, List.nodup_reverse]
  have hsorted := Collector.pairwise_sortLabels h
  refine LabelSet.eq_of_forall_lookup_eq (LabelSet.ofList labels).sorted hsorted fun name =>
    Option.ext fun value => ?_
  rw [lookup_eq_some_iff_of_sorted hsorted, Collector.sortLabels, List.mem_mergeSort,
    ← LabelSet.get?, LabelSet.get?_ofList, lookup_eq_some_iff_of_nodup hreverse, List.mem_reverse]

/-- A list of labels with different names fits if each label does. -/
theorem LabelSet.fits_ofList_iff {labels : List Label} (h : (labels.map Prod.fst).Nodup)
    {variableLabels : List String} : (LabelSet.ofList labels).Fits variableLabels ↔
      ∀ label ∈ labels, isLabelName label.1 = true ∧ label.1 ∉ variableLabels := by
  have hnames : ∀ name, name ∈ (LabelSet.ofList labels).names ↔ name ∈ labels.map Prod.fst := by
    intro name
    rw [LabelSet.names, LabelSet.pairs_ofList h]
    exact ((List.mergeSort_perm _ _).map Prod.fst).mem_iff
  rw [LabelSet.Fits]
  simp only [hnames, List.forall_mem_map]

/-! ## The catalog -/

/-- What names and labels must be for the metrics of an exporter: together the names are the start
of an identifier, and the labels are named by identifiers that samples do not use themselves. -/
structure Usable (name subsystem : String) (labels : List Label) : Prop where
  names : IsIdentifier ['_', ':'] (name.toList ++ subsystem.toList)
  labels : ∀ label ∈ labels, (label.1 ≠ "" ∧ IsIdentifier ['_'] label.1.toList) ∧
    label.1 ∉ ["container_id", "namespace", "major", "minor", "page"]

namespace Metric

variable {naming : Naming} {metric : Metric}

/-- The metrics of the catalog pass all checks that do not depend on the naming. -/
theorem checked_of_mem_catalog (h : metric ∈ catalog) : isMetricName metric.name = true ∧
    isMetricName metric.unit = true ∧ metric.help ≠ "" ∧
      Descriptor.checkVariableLabels [] (baseLabels ++ metric.labels) = .ok () := by
  revert metric
  decide +kernel

/-- A metric of the catalog can be described iff its full name is one and the labels fit. -/
theorem exists_describe_iff_of_mem_catalog (h : metric ∈ catalog) :
    (∃ d, metric.describe naming = .ok d) ↔
      IsIdentifier ['_', ':'] (naming.name.toList ++ (naming.subsystem.getD "").toList) ∧
        naming.labels.Fits (baseLabels ++ metric.labels) := by
  obtain ⟨hname, hunit, hhelp, hlabels⟩ := checked_of_mem_catalog h
  rw [Metric.describe, Naming.exists_describe_iff, Naming.isMetricName_fqName_iff hname hunit]
  constructor
  · rintro ⟨-, hnames, hfits, -⟩
    exact ⟨hnames, hfits⟩
  · rintro ⟨hnames, hfits⟩
    exact ⟨hhelp, hnames, hfits, hlabels⟩

/-- **The catalog can be described under a naming iff its parts are usable.** -/
theorem exists_describeAll_iff_usable {name : String} {subsystem : Option String}
    {labels : List Label} (h : (labels.map Prod.fst).Nodup) :
    (∃ ds, describeAll ⟨name, subsystem, .ofList labels⟩ catalog = .ok ds) ↔
      Usable name (subsystem.getD "") labels := by
  rw [exists_describeAll_iff]
  have hmetrics :
    (∀ metric ∈ catalog, ∃ d, metric.describe ⟨name, subsystem, .ofList labels⟩ = .ok d) ↔
      ∀ metric ∈ catalog, IsIdentifier ['_', ':'] (name.toList ++ (subsystem.getD "").toList) ∧
        (LabelSet.ofList labels).Fits (baseLabels ++ metric.labels) :=
    forall₂_congr fun metric hmem => exists_describe_iff_of_mem_catalog hmem
  rw [hmetrics, forall₂_and, forall_fits_catalog_iff, LabelSet.fits_ofList_iff h]
  simp only [isLabelName_iff]
  constructor
  · rintro ⟨hnames, hlabels⟩
    exact ⟨hnames _ List.mem_cons_self, hlabels⟩
  · rintro ⟨hnames, hlabels⟩
    exact ⟨fun _ _ => hnames, hlabels⟩

/-- What the catalog is described by. -/
theorem eq_map_of_describeAll {metrics : List Metric} {ds : List Descriptor}
    (h : describeAll naming metrics = .ok ds) :
    ds = metrics.map fun metric =>
      ⟨naming.fqName metric.name metric.unit, metric.help, baseLabels ++ metric.labels,
        naming.labels⟩ := by
  induction describeAll_eq_ok_iff.1 h with
  | nil => rfl
  | cons hd hrest ih =>
    rw [List.map_cons, ← ih (describeAll_eq_ok_iff.2 hrest), (Naming.describe_eq_ok hd).1]

end Metric

namespace Collector

/-- A collector can be made for a naming exactly if the catalog can be described under it. -/
theorem exists_ofNaming_iff {naming : Naming} :
    (∃ start, ofNaming (some naming) = .ok start) ↔
      ∃ ds, Metric.describeAll naming Metric.catalog = .ok ds := by
  rw [ofNaming]
  cases Metric.describeAll naming Metric.catalog <;> simp [Except.map]

/-- **A collector can be made for a naming iff its parts are usable.** Its metrics then have
different full names that are names of metrics, and after every run of calls and scrapes it
describes them all in the order of the catalog, with the constant labels in the order of their
names. -/
theorem ofNaming_iff_usable (name : String) (subsystem : Option String) (labels : List Label)
    (h : (labels.map Prod.fst).Nodup) :
    let naming : Naming := ⟨name, subsystem, .ofList labels⟩
    let fqNames := Metric.catalog.map fun metric => naming.fqName metric.name metric.unit
    ((∃ start, ofNaming (some naming) = .ok start) ↔ Usable name (subsystem.getD "") labels) ∧
      ∀ start, ofNaming (some naming) = .ok start →
        fqNames.Nodup ∧ (∀ fqName ∈ fqNames, isMetricName fqName = true) ∧
          naming.labels.pairs = sortLabels labels ∧
          ∀ (host : Host) (events : List Event) (scrapes : List Scrape) (s : Session),
            Session.Runs ⟨start, host⟩ events scrapes s →
              s.collector.descriptors = Metric.catalog.map fun metric =>
                ⟨naming.fqName metric.name metric.unit, metric.help, baseLabels ++ metric.labels,
                  naming.labels⟩ := by
  intro naming fqNames
  refine ⟨exists_ofNaming_iff.trans (Metric.exists_describeAll_iff_usable h),
    fun start hstart => ?_⟩
  obtain ⟨-, -, hdescribed⟩ := ofNaming_eq_ok hstart
  refine ⟨Metric.nodup_fqName_catalog naming, fun fqName hmem => ?_, LabelSet.pairs_ofList h,
    fun host events scrapes s hrun => ?_⟩
  · obtain ⟨metric, hmetric, rfl⟩ := List.mem_map.1 hmem
    obtain ⟨d, hd⟩ := Metric.exists_describeAll_iff.1 ⟨_, hdescribed⟩ metric hmetric
    exact (Naming.exists_describe_iff.1 ⟨d, hd⟩).2.1
  · have hreached := hrun.reached hstart (Session.reached_start hstart host _) subset_rfl
    obtain ⟨calls, hregistered⟩ := hreached.registered hstart
    rw [hregistered.descriptors]
    exact Metric.eq_map_of_describeAll hdescribed

/-- A subsystem with no name in front of it, and labels that are not in order, one of them named
like one of the samples' own but for a capital; and a subsystem that starts with a digit. -/
theorem ofNaming_iff_usable_subsystem :
    (∃ start, ofNaming (some ⟨"", some "cgroup:v2",
          .ofList [("zone", "eu"), ("Page", "1"), ("_host", "a")]⟩) = .ok start ∧
      ∀ (host : Host) (events : List Event) (scrapes : List Scrape) (s : Session),
        Session.Runs ⟨start, host⟩ events scrapes s →
          (s.collector.descriptors.map (·.fqName)).take 2 =
            ["cgroup:v2_pids_current", "cgroup:v2_pids_limit"] ∧
          ∀ d ∈ s.collector.descriptors,
            d.constLabels.pairs = [("Page", "1"), ("_host", "a"), ("zone", "eu")]) ∧
      ¬∃ start, ofNaming (some ⟨"", some "2nd", .ofList []⟩) = .ok start := by
  have husable : Usable "" "cgroup:v2" [("zone", "eu"), ("Page", "1"), ("_host", "a")] := by
    refine ⟨⟨by simp [Char.isAlphanum, Char.isAlpha], by simp⟩, ?_⟩
    simp only [← isLabelName_iff]
    decide +kernel
  obtain ⟨hiff, hdescribes⟩ :=
    ofNaming_iff_usable "" (some "cgroup:v2") [("zone", "eu"), ("Page", "1"), ("_host", "a")]
      (by decide)
  obtain ⟨start, hstart⟩ := hiff.2 husable
  refine ⟨⟨start, hstart, fun host events scrapes s hrun => ?_⟩, fun hsecond => ?_⟩
  · have hpairs : (LabelSet.ofList [("zone", "eu"), ("Page", "1"), ("_host", "a")]).pairs =
        [("Page", "1"), ("_host", "a"), ("zone", "eu")] := by
      decide +kernel
    rw [(hdescribes start hstart).2.2.2 host events scrapes s hrun]
    exact ⟨by decide +kernel, List.forall_mem_map.2 fun _ _ => hpairs⟩
  · have hdigit :=
      ((ofNaming_iff_usable "" (some "2nd") [] .nil).1.1 hsecond).names.start '2' (by decide)
    cases hdigit

end Collector

end ContainerUsage
