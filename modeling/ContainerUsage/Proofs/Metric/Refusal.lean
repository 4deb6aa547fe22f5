import Mathlib
import ContainerUsage.Proofs.Metric.Describable

/-!
# Why labels are refused

Metrics that can be described may be refused with further labels, and this file says for which
reason. Metrics are described in the order of the catalog, so the reason is that of the first one
that is refused; and for one metric conflicts are looked for before names are checked.

* `Naming.describe_withLabels_of_conflict` and `Naming.describe_withLabels_of_invalid` are the two
  reasons for one metric.
* `Metric.describeAll_withLabels_of_valid` goes through the metrics of a list with labels that have
  proper names: what is refused is the first of their labels, in their order, that is among the
  further ones. For the catalog this order is that of `Metric.usedLabels`
  (`Metric.find?_flatMap_catalog`).
* `Metric.refusal_of_describeAll` puts this together as a `Metric.Refusal`: labels with other names
  are refused by the first metric already.
-/

namespace ContainerUsage

/-- A union has the names of both sets. -/
theorem LabelSet.contains_union (m n : LabelSet) (name : String) :
    (m.union n).contains name = (n.contains name || m.contains name) := by
  rw [contains, get?_union, Option.isSome_or, contains, contains]

/-! ## One metric -/

namespace Naming

variable {naming : Naming} {metric unit help : String} {variableLabels : List String}
    {d : Descriptor}
  {labels : LabelSet}

/-- A conflict of a metric that can be described is one with the further labels. -/
theorem find?_contains_union (h : naming.describe metric unit help variableLabels = .ok d)
    (labels : LabelSet) :
    variableLabels.find? (naming.labels.union labels).contains =
      variableLabels.find? labels.contains := by
  have hdisjoint := (describe_eq_ok h).2.2
  refine List.find?_congr fun label hmem => ?_
  rw [LabelSet.contains_union, hdisjoint label hmem, Bool.or_false]

/-- A further label with the name of a variable label is refused, and the first of these variable
labels is named. -/
theorem describe_withLabels_of_conflict
    (h : naming.describe metric unit help variableLabels = .ok d)
    {label : String} (hfind : variableLabels.find? labels.contains = some label) :
    (naming.withLabels labels).describe metric unit help variableLabels =
      .error (.labelConflict label (naming.fqName metric unit)) := by
  rw [describe, withLabels]
  dsimp only
  rw [find?_contains_union h, hfind]
  rfl

/-- Without such a label, one with an improper name is refused. -/
theorem describe_withLabels_of_invalid (h : naming.describe metric unit help variableLabels = .ok d)
    (hfind : variableLabels.find? labels.contains = none) {name : String}
    (hname : name ∈ labels.names) (hinvalid : isLabelName name = false) :
    ∃ label ∈ labels.names, isLabelName label = false ∧
      (naming.withLabels labels).describe metric unit help variableLabels =
        .error (.descriptor (naming.fqName metric unit) (.invalidLabelName label)) := by
  obtain ⟨hhelp, hfqName, hfits, -⟩ := exists_describe_iff.1 ⟨d, h⟩
  obtain ⟨label, hlabel⟩ : ∃ label, (naming.labels.union labels).names.find? (!isLabelName ·) =
      some label := by
    rw [← Option.isSome_iff_exists, List.find?_isSome]
    exact ⟨name, (LabelSet.mem_names_union _ _ _).2 (.inr hname), by rw [hinvalid]; rfl⟩
  have himproper : isLabelName label = false := by simpa using List.find?_some hlabel
  refine ⟨label, ?_, himproper, ?_⟩
  · -- the labels of the naming itself have proper names
    rcases (LabelSet.mem_names_union _ _ _).1 (List.mem_of_find?_eq_some hlabel) with hown | hnew
    · rw [(hfits label hown).1] at himproper
      cases himproper
    · exact hnew
  · rw [describe, withLabels]
    dsimp only
    rw [find?_contains_union h, hfind]
    dsimp only
    have hname : isMetricName
        (fqName { naming with labels := naming.labels.union labels } metric unit) = true := hfqName
    rw [Descriptor.make, if_neg hhelp, hname, hlabel]
    rfl

end Naming

/-! ## The catalog -/

namespace Metric

variable {naming : Naming} {labels : LabelSet}

/-- The labels that samples use themselves, in the order in which the metrics of the catalog come to
them. -/
def usedLabels : List String := baseLabels ++ ["major", "minor", "page"]

example : usedLabels = ["container_id", "namespace", "major", "minor", "page"] := rfl

/-- **Labels with proper names are refused for the first label of the metrics that is among
them.** -/
theorem describeAll_withLabels_of_valid {metrics : List Metric}
    (hmetrics : ∀ metric ∈ metrics, ∃ d, metric.describe naming = .ok d)
    (hvalid : ∀ name ∈ labels.names, isLabelName name = true) {cause : MetricError}
    (h : describeAll (naming.withLabels labels) metrics = .error cause) :
    ∃ label, (metrics.flatMap fun metric => baseLabels ++ metric.labels).find?
      labels.contains = some label ∧
      ∃ metric ∈ metrics, label ∈ baseLabels ++ metric.labels ∧
        cause = .labelConflict label (naming.fqName metric.name metric.unit) := by
  induction metrics with
  | nil => cases h
  | cons metric rest ih =>
    obtain ⟨⟨d, hd⟩, hrest⟩ := List.forall_mem_cons.1 hmetrics
    rw [describeAll] at h
    rw [List.flatMap_cons, List.find?_append]
    cases hfind : (baseLabels ++ metric.labels).find? labels.contains with
    | some label =>
      have herror := Naming.describe_withLabels_of_conflict hd hfind
      rw [Metric.describe, herror] at h
      obtain rfl := Except.error.inj h
      exact ⟨label, rfl, metric, List.mem_cons_self, List.mem_of_find?_eq_some hfind, rfl⟩
    | none =>
      have hfits : labels.Fits (baseLabels ++ metric.labels) := by
        intro name hname
        exact ⟨hvalid name hname, fun hmem =>
          List.find?_eq_none.1 hfind name hmem ((LabelSet.mem_names_iff _ _).1 hname)⟩
      obtain ⟨described, hdescribed⟩ := (Naming.exists_describe_withLabels_iff hd labels).2 hfits
      rw [Metric.describe, hdescribed] at h
      dsimp only at h
      cases hothers : describeAll (naming.withLabels labels) rest with
      | ok ds =>
        rw [hothers] at h
        cases h
      | error other =>
        rw [hothers] at h
        obtain rfl : other = cause := Except.error.inj h
        obtain ⟨label, hlabel, conflicting, hmem, hconflict⟩ := ih hrest hothers
        exact ⟨label, by rw [Option.none_or, hlabel], conflicting,
          List.mem_cons_of_mem _ hmem, hconflict⟩

/-- Where labels come again and again in front of others, only the first time counts. -/
theorem find?_flatMap_append {α : Type} (base : List String) (own : α → List String)
    (p : String → Bool) (a : α) (rest : List α) :
    ((a :: rest).flatMap fun a => base ++ own a).find? p =
      (base ++ (a :: rest).flatMap own).find? p := by
  cases hbase : base.find? p with
  | some label => simp [List.find?_append, hbase]
  | none => simp [List.find?_append, List.find?_flatMap, hbase]

/-- The first label of the catalog with some property is the first such one of `usedLabels`. -/
theorem find?_flatMap_catalog (p : String → Bool) :
    (catalog.flatMap fun metric => baseLabels ++ metric.labels).find? p = usedLabels.find? p := by
  have hown : catalog.flatMap Metric.labels =
      ["major", "minor", "major", "minor", "major", "minor", "major", "minor", "page", "page"] := by
    decide
  have hnames : (catalog.flatMap Metric.labels).find? p = ["major", "minor", "page"].find? p := by
    rw [hown]
    cases hmajor : p "major" <;> cases hminor : p "minor" <;> cases hpage : p "page" <;>
      simp [List.find?, hmajor, hminor, hpage]
  obtain ⟨first, rest, hcatalog⟩ : ∃ first rest, catalog = first :: rest := ⟨_, _, rfl⟩
  rw [hcatalog] at hnames ⊢
  rw [find?_flatMap_append, List.find?_append, hnames, usedLabels, List.find?_append]

/-- Why labels are refused: for the first of the labels that samples use themselves, if it is one of
every sample or there are no improper names; or else for an improper name, by the first metric. -/
inductive Refusal (naming : Naming) (labels : LabelSet) : MetricError → Prop
  | conflict {label : String} {metric : Metric}
    (hfirst : usedLabels.find? labels.contains = some label)
      (hmetric : metric ∈ catalog) (hown : label ∈ baseLabels ++ metric.labels)
      (hwhen : label ∈ baseLabels ∨ ∀ name ∈ labels.names, isLabelName name = true) :
      Refusal naming labels (.labelConflict label (naming.fqName metric.name metric.unit))
  | name {label : String} {metric : Metric} (hfirst : catalog.head? = some metric)
      (hbase : ∀ name ∈ baseLabels, name ∉ labels.names) (hname : label ∈ labels.names)
      (hinvalid : isLabelName label = false) :
      Refusal naming labels
        (.descriptor (naming.fqName metric.name metric.unit) (.invalidLabelName label))

/-- **Labels that the catalog refuses are refused for one of these reasons.** -/
theorem refusal_of_describeAll {ds : List Descriptor} (h : describeAll naming catalog = .ok ds)
    {cause : MetricError} (herror : describeAll (naming.withLabels labels) catalog = .error cause) :
    Refusal naming labels cause := by
  have hmetrics := exists_describeAll_iff.1 ⟨ds, h⟩
  by_cases hvalid : ∀ name ∈ labels.names, isLabelName name = true
  · obtain ⟨label, hfind, metric, hmetric, hown, rfl⟩ :=
      describeAll_withLabels_of_valid hmetrics hvalid herror
    rw [find?_flatMap_catalog] at hfind
    exact .conflict hfind hmetric hown (.inr hvalid)
  · push Not at hvalid
    obtain ⟨name, hname, hinvalid⟩ := hvalid
    -- the first metric has no labels of its own
    obtain ⟨first, rest, hcatalog, hfirst⟩ :
        ∃ first rest, catalog = first :: rest ∧ baseLabels ++ first.labels = baseLabels :=
          ⟨_, _, rfl, rfl⟩
    obtain ⟨d, hd⟩ := hmetrics first (hcatalog ▸ List.mem_cons_self)
    rw [Metric.describe, hfirst] at hd
    rw [hcatalog, describeAll, Metric.describe, hfirst] at herror
    cases hfind : baseLabels.find? labels.contains with
    | some label =>
      rw [Naming.describe_withLabels_of_conflict hd hfind] at herror
      obtain rfl := Except.error.inj herror
      have hbase := List.mem_of_find?_eq_some hfind
      refine .conflict ?_ (hcatalog ▸ List.mem_cons_self)
        (List.mem_append_left _ hbase) (.inl hbase)
      rw [usedLabels, List.find?_append, hfind, Option.some_or]
    | none =>
      obtain ⟨label, hlabel, himproper, hdescribe⟩ :=
        Naming.describe_withLabels_of_invalid hd hfind hname (Bool.eq_false_of_not_eq_true hinvalid)
      rw [hdescribe] at herror
      obtain rfl := Except.error.inj herror
      refine .name (by rw [hcatalog, List.head?_cons]) (fun name hmem hname => ?_) hlabel himproper
      exact List.find?_eq_none.1 hfind name hmem ((LabelSet.mem_names_iff _ _).1 hname)

end Metric

end ContainerUsage
