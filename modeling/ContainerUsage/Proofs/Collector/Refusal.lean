import Mathlib
import ContainerUsage.Proofs.Collector.Isolation
import ContainerUsage.Proofs.Metric.Refusal
import ContainerUsage.Proofs.Settings.TaskLabels

/-!
# Refused tasks

Whether a task is refused is decided by the names of its labels, and by nothing that is registered
besides. This file says when, with which error, and that nothing comes of it.

* `exists_add_eq_error_iff` says when a task is refused, and `refusal_of_add` why.
* `Session.runs_add_of_eq_error` leaves a refused call out of a run: what comes after it, scrapes
  included, is the same without it.
* `add_outcome` puts this together for every state that calls lead to.
-/

namespace ContainerUsage

/-- Labels do not fit iff one of them has an improper name or that of a variable label. -/
theorem LabelSet.not_fits_iff {labels : LabelSet} {variableLabels : List String} :
    ¬labels.Fits variableLabels ↔
      ∃ name ∈ labels.names, isLabelName name = false ∨ name ∈ variableLabels := by
  unfold Fits
  push Not
  refine exists_congr fun name => and_congr_right fun _ => ?_
  cases isLabelName name <;> simp

/-- A refusal is a conflict iff a label has the name of one of every sample, or no name is improper
and a label has the name of one of some samples. -/
theorem Metric.Refusal.isConflict_iff {naming : Naming} {labels : LabelSet} {cause : MetricError}
    (h : Metric.Refusal naming labels cause) :
    (∃ label metric, cause = .labelConflict label metric) ↔
      (∃ name ∈ baseLabels, name ∈ labels.names) ∨
        (∀ name ∈ labels.names, isLabelName name = true) ∧
          ∃ name ∈ ["major", "minor", "page"], name ∈ labels.names := by
  cases h with
  | @conflict label metric hfirst hmetric hown hwhen =>
    refine iff_of_true ⟨_, _, rfl⟩ ?_
    have hname : label ∈ labels.names := (LabelSet.mem_names_iff _ _).2 (List.find?_some hfirst)
    rcases List.mem_append.1 (List.mem_of_find?_eq_some hfirst) with hbase | hown
    · exact .inl ⟨label, hbase, hname⟩
    · rcases hwhen with hbase | hvalid
      · exact .inl ⟨label, hbase, hname⟩
      · exact .inr ⟨hvalid, label, hown, hname⟩
  | @name label metric _ hbase hname hinvalid =>
    refine iff_of_false (by simp) ?_
    rintro (⟨other, hmem, hother⟩ | ⟨hvalid, -⟩)
    · exact hbase other hmem hother
    · rw [hvalid label hname] at hinvalid
      cases hinvalid

namespace Collector

variable {naming : Naming} {start c : Collector} {own : List Descriptor}

/-- A task is refused iff it is not registered and one of its labels is named improperly or like a
label that samples use themselves. -/
theorem exists_add_eq_error_iff (hn : c.naming = some naming)
    (hown : Metric.describeAll naming Metric.catalog = .ok own) (task : Task) (labels : LabelSet) :
    (∃ cause, c.add task labels = .error cause) ↔ c.contains task.id task.ns = false ∧
      ∃ name ∈ labels.names, isLabelName name = false ∨ name ∈ Metric.usedLabels := by
  cases hc : c.contains task.id task.ns with
  | true =>
    refine iff_of_false ?_ (by simp)
    rintro ⟨cause, herror⟩
    rw [add_of_contains labels hc] at herror
    cases herror
  | false =>
    rw [← LabelSet.not_fits_iff, Metric.usedLabels, ← exists_describeTask_iff hown,
      ← exists_add_eq_ok_iff hn task labels hc]
    cases c.add task labels <;> simp

/-- Why a task is refused. -/
theorem refusal_of_add (hn : c.naming = some naming)
    (hown : Metric.describeAll naming Metric.catalog = .ok own)
    {task : Task} {labels : LabelSet} {cause : MetricError} (h : c.add task labels = .error cause) :
    Metric.Refusal naming labels cause := by
  have hc := ((exists_add_eq_error_iff hn hown task labels).1 ⟨cause, h⟩).1
  have hdescribe := (add_eq_error_iff hn hc).1 h
  unfold describeTask at hdescribe
  split at hdescribe
  · simp at hdescribe
  · refine Metric.refusal_of_describeAll hown ?_
    cases hall : Metric.describeAll (naming.withLabels labels) Metric.catalog with
    | ok ds =>
      rw [hall] at hdescribe
      cases hdescribe
    | error other =>
      rw [hall] at hdescribe
      exact congrArg Except.error (Except.error.inj hdescribe)

/-- A refused call may be left out of a run. -/
theorem Session.runs_add_of_eq_error {task : Task} {labels : LabelSet} {cause : MetricError}
    (h : c.add task labels = .error cause) {host : Host} {events : List Event}
    {scrapes : List Scrape} {s : Session} :
    Runs ⟨c, host⟩ (.call (.add task labels) :: events) scrapes s ↔
      Runs ⟨c, host⟩ events scrapes s := by
  have hsame : (Session.mk c host).after (.add task labels) = ⟨c, host⟩ := by
    simp only [Session.after, Collector.after, h]
  constructor
  · intro hrun
    cases hrun with
    | call hrest => rwa [hsame] at hrest
  · intro hrun
    exact .call (by rwa [hsame])

/-- **Adding a task is decided by the names of its labels**, in every state that calls lead to. A
task that is not registered is refused exactly if one of its labels is named improperly or like a
label that samples use themselves. What comes after a refusal, scrapes included, is what would come
without the call. The error is a conflict iff a label is named like one of every sample, or no name
is improper and a label is named like one of some samples; it then names the first such label, in
the order of the catalog, and a metric that has it. In all other cases the first metric of the
catalog cannot be described, for an improper name. -/
theorem add_outcome (h : ofNaming (some naming) = .ok start) (calls : List Call) (task : Task)
    (labels : LabelSet) :
    let c := start.run calls
    ((∃ cause, c.add task labels = .error cause) ↔ c.contains task.id task.ns = false ∧
      ∃ name ∈ labels.names, isLabelName name = false ∨ name ∈ Metric.usedLabels) ∧
    ∀ cause, c.add task labels = .error cause →
      (∀ host events scrapes s,
        Session.Runs ⟨c, host⟩ (.call (.add task labels) :: events) scrapes s ↔
          Session.Runs ⟨c, host⟩ events scrapes s) ∧
      ((∃ label metric, cause = .labelConflict label metric) ↔
        (∃ name ∈ baseLabels, name ∈ labels.names) ∨
          (∀ name ∈ labels.names, isLabelName name = true) ∧
            ∃ name ∈ ["major", "minor", "page"], name ∈ labels.names) ∧
      (∀ label metric, cause = .labelConflict label metric →
        Metric.usedLabels.find? (· ∈ labels.names) = some label ∧
          ∃ entry ∈ Metric.catalog, label ∈ baseLabels ++ entry.labels ∧
            metric = naming.fqName entry.name entry.unit) ∧
      ((∀ label metric, cause ≠ .labelConflict label metric) → ∃ first label,
        Metric.catalog.head? = some first ∧ label ∈ labels.names ∧ isLabelName label = false ∧
          cause = .descriptor (naming.fqName first.name first.unit) (.invalidLabelName label)) := by
  intro c
  have hn : c.naming = some naming := (run_registered h calls).enabled
  have hown := (ofNaming_eq_ok h).2.2
  refine ⟨exists_add_eq_error_iff hn hown task labels, fun cause herror => ?_⟩
  have hrefusal := refusal_of_add hn hown herror
  refine ⟨fun host events scrapes s => Session.runs_add_of_eq_error herror,
    hrefusal.isConflict_iff, ?_, ?_⟩
  · rintro label metric rfl
    have hnames : (fun name => decide (name ∈ labels.names)) = labels.contains := by
      funext name
      rw [Bool.eq_iff_iff, decide_eq_true_iff, LabelSet.mem_names_iff]
    rw [hnames]
    cases hrefusal with
    | @conflict _ entry hfirst hentry hlabel _ => exact ⟨hfirst, entry, hentry, hlabel, rfl⟩
  · intro hno
    cases hrefusal with
    | conflict => exact absurd rfl (hno _ _)
    | @name label first hfirst _ hname hinvalid =>
      exact ⟨first, label, hfirst, hname, hinvalid, rfl⟩

/-- Beside a registered task, another one is refused for the first of two labels of metrics, unless
there is an improper name: that is found before. -/
theorem add_outcome_beside :
    ∃ start, ofNaming (some ⟨"container", none, .empty⟩) = .ok start ∧
      let c := start.run [.add ⟨"a", "moby", ⟨0⟩⟩ .empty]
      let task : Task := ⟨"b", "moby", ⟨1⟩⟩
      (∃ metric, c.add task (.ofList [("page", "2MB"), ("minor", "0")]) =
        .error (.labelConflict "minor" metric)) ∧
      c.add task (.ofList [("0", ""), ("minor", "0")]) =
        .error (.descriptor "container_pids_current" (.invalidLabelName "0")) := by
  obtain ⟨start, h⟩ := exists_ofNaming_container
  obtain ⟨hnaming, hempty, -⟩ := ofNaming_eq_ok h
  refine ⟨start, h, ?_⟩
  intro c task
  have hmissing : c.contains task.id task.ns = false := by
    simp [c, task, run, after, add, contains, keys, hnaming, hempty, describeTask, LabelSet.isEmpty,
      LabelSet.empty, Task.key, taskKey]
  constructor
  · have hnames : (LabelSet.ofList [("page", "2MB"), ("minor", "0")]).names =
        ["minor", "page"] := by cbv
    obtain ⟨hrefused, hall⟩ := add_outcome h [.add ⟨"a", "moby", ⟨0⟩⟩ .empty] task
      (.ofList [("page", "2MB"), ("minor", "0")])
    rw [hnames] at hrefused hall
    obtain ⟨cause, hcause⟩ := hrefused.2 ⟨hmissing, by decide⟩
    obtain ⟨-, hconflict, hlabel, -⟩ := hall cause hcause
    obtain ⟨label, metric, rfl⟩ := hconflict.2 (by decide)
    obtain rfl : "minor" = label := Option.some.inj (hlabel label metric rfl).1
    exact ⟨metric, hcause⟩
  · have hnames : (LabelSet.ofList [("0", ""), ("minor", "0")]).names = ["0", "minor"] := by cbv
    obtain ⟨hrefused, hall⟩ := add_outcome h [.add ⟨"a", "moby", ⟨0⟩⟩ .empty] task
      (.ofList [("0", ""), ("minor", "0")])
    rw [hnames] at hrefused hall
    obtain ⟨cause, hcause⟩ := hrefused.2 ⟨hmissing, by decide⟩
    obtain ⟨-, hconflict, -, hname⟩ := hall cause hcause
    obtain ⟨first, label, hfirst, hlabel, himproper, rfl⟩ := hname fun label metric heq =>
      absurd (hconflict.1 ⟨label, metric, heq⟩) (by decide)
    obtain rfl := Option.some.inj hfirst
    obtain rfl : label = "0" := by
      rcases List.mem_cons.1 hlabel with hzero | hminor
      · exact hzero
      · rw [List.mem_singleton.1 hminor] at himproper
        exact absurd himproper (by decide)
    have hfqName : Naming.fqName ⟨"container", none, .empty⟩ "pids" "current" =
        "container_pids_current" := by
      decide
    rw [hcause, hfqName]

end Collector

end ContainerUsage
