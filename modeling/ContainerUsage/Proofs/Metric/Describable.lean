import Mathlib
import ContainerUsage.Proofs.Metric.Describe
import ContainerUsage.Proofs.Metric.LabelSet

/-!
# When metrics can be described

A metric that can be described without some labels can be described with them iff they *fit* its
variable labels: each is named by a word that can name a label, and none is named like a variable
label (`LabelSet.Fits`). Nothing else that is checked depends on the constant labels.

* `Naming.exists_describe_withLabels_iff` is this for one metric, and
  `Naming.describe_withLabels_eq_error` says which error a label that does not fit gives.
* `Metric.exists_describeAll_withLabels_iff` is it for the catalog. The variable labels of its
  metrics are those of every task and the three that tell devices and page sizes apart
  (`Metric.mem_labels_catalog_iff`).
-/

namespace ContainerUsage

/-! ## Labels beside variable labels -/

namespace LabelSet

/-- Labels can be constant labels beside some variable ones. -/
def Fits (labels : LabelSet) (variableLabels : List String) : Prop :=
  ∀ name ∈ labels.names, isLabelName name = true ∧ name ∉ variableLabels

/-- A name is the name of a label iff the set has it. -/
theorem mem_names_iff (m : LabelSet) (name : String) : name ∈ m.names ↔ m.contains name = true := by
  rw [contains_eq_true_iff, names, List.mem_map]
  constructor
  · rintro ⟨⟨other, value⟩, hmem, rfl⟩
    exact ⟨value, hmem⟩
  · rintro ⟨value, hmem⟩
    exact ⟨(name, value), hmem, rfl⟩

/-- The names in a union are those in one of the sets. -/
theorem mem_names_union (m n : LabelSet) (name : String) :
    name ∈ (m.union n).names ↔ name ∈ m.names ∨ name ∈ n.names := by
  rw [mem_names_iff, mem_names_iff, mem_names_iff, contains, get?_union, Option.isSome_or,
    Bool.or_eq_true, contains, contains]
  exact or_comm

/-- A union fits iff both sets do. -/
theorem fits_union_iff {m n : LabelSet} {variableLabels : List String} :
    (m.union n).Fits variableLabels ↔ m.Fits variableLabels ∧ n.Fits variableLabels := by
  unfold Fits
  constructor
  · intro h
    exact ⟨fun name hname => h name ((mem_names_union m n name).2 (.inl hname)),
      fun name hname => h name ((mem_names_union m n name).2 (.inr hname))⟩
  · rintro ⟨hm, hn⟩ name hname
    exact ((mem_names_union m n name).1 hname).elim (hm name) (hn name)

/-- The empty set adds nothing to the left of a union. -/
theorem union_empty_left (m : LabelSet) : empty.union m = m := by
  refine ext_get? fun name => ?_
  rw [get?_union, get?_empty, Option.or_none]

end LabelSet

/-! ## One metric -/

/-- A descriptor can be made of parts that pass their checks. -/
theorem Descriptor.exists_make_iff {fqName help : String} {variableLabels : List String}
    {constLabels : LabelSet} :
    (∃ d, make fqName help variableLabels constLabels = .ok d) ↔
      help ≠ "" ∧ isMetricName fqName = true ∧
        (∀ name ∈ constLabels.names, isLabelName name = true) ∧
        checkVariableLabels [] variableLabels = .ok () := by
  have hfind : (∀ name ∈ constLabels.names, isLabelName name = true) ↔
      constLabels.names.find? (!isLabelName ·) = none := by
    simp [List.find?_eq_none]
  rw [hfind]
  unfold make
  split
  · next hhelp => simp [hhelp]
  · next hhelp =>
    split
    · next hname =>
      have hname : isMetricName fqName = false := by simpa using hname
      simp [hname]
    · next hname =>
      have hname : isMetricName fqName = true := by simpa using hname
      cases hbad : constLabels.names.find? (!isLabelName ·) with
      | some label => simp
      | none => cases hcheck : checkVariableLabels [] variableLabels <;> simp [hhelp, hname]

namespace Naming

variable {naming : Naming} {metric unit help : String} {variableLabels : List String}

/-- A naming describes a metric iff its labels are none of the variable ones and the parts of the
descriptor pass their checks. -/
theorem exists_describe_iff :
    (∃ d, naming.describe metric unit help variableLabels = .ok d) ↔
      help ≠ "" ∧ isMetricName (naming.fqName metric unit) = true ∧
        naming.labels.Fits variableLabels ∧
        Descriptor.checkVariableLabels [] variableLabels = .ok () := by
  have hfits : naming.labels.Fits variableLabels ↔
      variableLabels.find? naming.labels.contains = none ∧
        ∀ name ∈ naming.labels.names, isLabelName name = true := by
    rw [List.find?_eq_none, LabelSet.Fits]
    simp only [← LabelSet.mem_names_iff]
    constructor
    · intro h
      exact ⟨fun label hvariable hconst => (h label hconst).2 hvariable,
        fun name hn => (h name hn).1⟩
    · rintro ⟨hdisjoint, hnames⟩ name hn
      exact ⟨hnames name hn, fun hvariable => hdisjoint name hvariable hn⟩
  have hmake : (∃ d, Descriptor.make (naming.fqName metric unit) help variableLabels
      naming.labels = .ok d) ↔ _ := Descriptor.exists_make_iff
  rw [hfits]
  unfold describe
  dsimp only
  cases hfind : variableLabels.find? naming.labels.contains with
  | some label => simp
  | none =>
    cases hd : Descriptor.make (naming.fqName metric unit) help variableLabels naming.labels with
    | ok d =>
      obtain ⟨hhelp, hname, hlabels, hvariable⟩ := hmake.1 ⟨d, hd⟩
      exact iff_of_true ⟨d, rfl⟩ ⟨hhelp, hname, ⟨rfl, hlabels⟩, hvariable⟩
    | error fault =>
      refine iff_of_false ?_ ?_
      · rintro ⟨d, h⟩
        cases h
      · rintro ⟨hhelp, hname, ⟨-, hlabels⟩, hvariable⟩
        obtain ⟨d, hok⟩ := hmake.2 ⟨hhelp, hname, hlabels, hvariable⟩
        cases hd.symm.trans hok

/-- A metric that can be described can be described with further labels iff these fit. -/
theorem exists_describe_withLabels_iff {d : Descriptor}
    (h : naming.describe metric unit help variableLabels = .ok d) (labels : LabelSet) :
    (∃ d, (naming.withLabels labels).describe metric unit help variableLabels = .ok d) ↔
      labels.Fits variableLabels := by
  obtain ⟨hhelp, hname, hfits, hvariable⟩ := exists_describe_iff.1 ⟨d, h⟩
  rw [exists_describe_iff]
  constructor
  · rintro ⟨-, -, hunion, -⟩
    exact (LabelSet.fits_union_iff.1 hunion).2
  · intro hlabels
    exact ⟨hhelp, hname, LabelSet.fits_union_iff.2 ⟨hfits, hlabels⟩, hvariable⟩

/-- If proper labels keep a metric from being described, then one of them conflicts with a variable
label, and the error names it. -/
theorem describe_withLabels_eq_error {d : Descriptor}
    (h : naming.describe metric unit help variableLabels = .ok d) {labels : LabelSet}
    (hlabels : ∀ name ∈ labels.names, isLabelName name = true) {cause : MetricError}
    (herror : (naming.withLabels labels).describe metric unit help variableLabels = .error cause) :
    ∃ label ∈ variableLabels, label ∈ labels.names ∧
      cause = .labelConflict label (naming.fqName metric unit) := by
  by_cases hfits : labels.Fits variableLabels
  · obtain ⟨other, hok⟩ := (exists_describe_withLabels_iff h labels).2 hfits
    cases herror.symm.trans hok
  unfold describe at herror
  dsimp only at herror
  split at herror
  · next label hfind =>
    have hvariable := List.mem_of_find?_eq_some hfind
    have hconst := (LabelSet.mem_names_iff _ _).2 (List.find?_some hfind)
    refine ⟨label, hvariable, ?_, (Except.error.inj herror).symm⟩
    -- the labels of the naming itself are no variable ones, as the metric could be described
    rcases (LabelSet.mem_names_union _ _ _).1 hconst with hown | hnew
    · exact absurd hvariable ((exists_describe_iff.1 ⟨d, h⟩).2.2.1 label hown).2
    · exact hnew
  · next hfind =>
    -- without a conflict the labels fit
    refine absurd (fun name hname => ⟨hlabels name hname, fun hvariable => ?_⟩) hfits
    have hmem := (LabelSet.mem_names_union naming.labels labels name).2 (.inr hname)
    exact List.find?_eq_none.1 hfind name hvariable ((LabelSet.mem_names_iff _ _).1 hmem)

end Naming

/-! ## The catalog -/

namespace Metric

/-- Metrics can be described together iff each can be. -/
theorem exists_describeAll_iff {naming : Naming} {metrics : List Metric} :
    (∃ ds, describeAll naming metrics = .ok ds) ↔
      ∀ metric ∈ metrics, ∃ d, metric.describe naming = .ok d := by
  simp only [describeAll_eq_ok_iff]
  induction metrics with
  | nil => simp
  | cons metric rest ih => simp [List.forall₂_cons_left_iff, ← ih]

/-- If metrics cannot be described together, then the error is that of one of them. -/
theorem describeAll_eq_error {naming : Naming} {metrics : List Metric} {cause : MetricError}
    (h : describeAll naming metrics = .error cause) :
    ∃ metric ∈ metrics, metric.describe naming = .error cause := by
  induction metrics with
  | nil => cases h
  | cons metric rest ih =>
    rw [describeAll] at h
    cases hd : metric.describe naming with
    | error e =>
      rw [hd] at h
      exact ⟨metric, List.mem_cons_self, by rw [hd, Except.error.inj h]⟩
    | ok d =>
      rw [hd] at h
      cases hrest : describeAll naming rest with
      | ok ds =>
        rw [hrest] at h
        cases h
      | error e =>
        rw [hrest] at h
        obtain rfl : e = cause := Except.error.inj h
        obtain ⟨other, hmem, hother⟩ := ih hrest
        exact ⟨other, List.mem_cons_of_mem _ hmem, hother⟩

/-- The labels of the metrics of the catalog, besides those of every task. -/
theorem mem_labels_catalog_iff {name : String} :
    (∃ metric ∈ catalog, name ∈ metric.labels) ↔ name ∈ ["major", "minor", "page"] := by
  have hlabels : (catalog.flatMap labels).dedup = ["major", "minor", "page"] := by decide
  rw [← hlabels, List.mem_dedup, List.mem_flatMap]

/-- Labels fit every metric of the catalog iff they fit the labels of all of them. -/
theorem forall_fits_catalog_iff {labels : LabelSet} :
    (∀ metric ∈ catalog, labels.Fits (baseLabels ++ metric.labels)) ↔
      labels.Fits (baseLabels ++ ["major", "minor", "page"]) := by
  constructor
  · intro hall name hname
    -- the catalog is not empty, so the name was looked at once
    have hfirst := hall _ List.mem_cons_self name hname
    refine ⟨hfirst.1, fun hmem => ?_⟩
    rcases List.mem_append.1 hmem with hbase | hown
    · exact hfirst.2 (List.mem_append_left _ hbase)
    · obtain ⟨metric, hmetric, hlabel⟩ := mem_labels_catalog_iff.2 hown
      exact (hall metric hmetric name hname).2 (List.mem_append_right _ hlabel)
  · refine fun hall metric hmetric name hname => ⟨(hall name hname).1, fun hmem => ?_⟩
    refine (hall name hname).2 ?_
    rcases List.mem_append.1 hmem with hbase | hown
    · exact List.mem_append_left _ hbase
    · exact List.mem_append_right _ (mem_labels_catalog_iff.1 ⟨metric, hmetric, hown⟩)

/-- **A catalog that can be described can be described with further labels** iff each of these is
named by a word that can name a label, and that is none of the names that samples use themselves. -/
theorem exists_describeAll_withLabels_iff {naming : Naming} {ds : List Descriptor}
    (h : describeAll naming catalog = .ok ds) (labels : LabelSet) :
    (∃ ds, describeAll (naming.withLabels labels) catalog = .ok ds) ↔
      labels.Fits (baseLabels ++ ["major", "minor", "page"]) := by
  have hmetrics := exists_describeAll_iff.1 ⟨ds, h⟩
  rw [exists_describeAll_iff, ← forall_fits_catalog_iff]
  exact forall₂_congr fun metric hmem =>
    Naming.exists_describe_withLabels_iff (hmetrics metric hmem).choose_spec labels

end Metric

end ContainerUsage
