import Mathlib
import ContainerUsage.Collector.Basic
import ContainerUsage.Proofs.Metric.Describe
import ContainerUsage.Proofs.Metric.LabelSet

/-!
# The history of a collector

A collector starts without tasks and is changed by two calls only, adding and removing. `Call` is
such a call, `after` the collector after it and `run` the collector after a list of calls; a task
that is refused changes nothing, so a state that is reached by calls is one of a `run`.

* `after_cases` says once what a call can do: nothing, one new registration at the end, or a
  removal.
* `AddedBy start calls task labels` finds the add call to which the registration of a task goes
  back: the task was missing before it, and has never been missing since. `AddedBy.unique` says
  that there is one such call only.
* `run_registered` is the invariant of all histories. No two tasks have one key, the naming and the
  descriptors are those of the start, and each registration goes back to an add call and holds what
  the labels of that call describe.
* `forall₂_describes_of_describeTask` turns the last part into descriptors: those that a task uses
  are, one for each metric of the catalog, the ones under the naming with the labels of its call.
-/

namespace ContainerUsage

namespace Collector

/-! ## Calls -/

/-- A call that may change which tasks are registered. -/
inductive Call where
  | add (task : Task) (labels : LabelSet)
  | remove (id ns : String)

/-- The collector after a call. A refused task leaves it as it was. -/
def after (c : Collector) : Call → Collector
  | .add task labels =>
    match c.add task labels with
    | .ok c' => c'
    | .error _ => c
  | .remove id ns => c.remove id ns

/-- The collector after a list of calls. -/
def run (c : Collector) (calls : List Call) : Collector := calls.foldl after c

/-- Without calls nothing changes. -/
@[simp] theorem run_nil (c : Collector) : c.run [] = c := rfl

/-- A run is continued by one call at its end, which is how inductions over runs go on. -/
@[simp] theorem run_concat (c : Collector) (calls : List Call) (call : Call) :
    c.run (calls ++ [call]) = (c.run calls).after call := by
  simp [run]

/-- Calls leave a collector enabled, or disabled. -/
theorem naming_run (c : Collector) (calls : List Call) : (c.run calls).naming = c.naming := by
  induction calls using List.reverseRecOn with
  | nil => rfl
  | append_singleton calls call ih =>
    rw [run_concat]
    cases call with
    | remove id ns => exact ih
    | add task labels =>
      unfold after
      dsimp only
      split
      · next hadd => rw [naming_of_add hadd, ih]
      · exact ih

/-- A task is there if its key is. -/
theorem contains_eq_true_iff {c : Collector} {id ns : String} :
    c.contains id ns = true ↔ taskKey id ns ∈ c.keys := by
  simp [contains]

/-- Adding to an enabled collector either finds the task, or describes it and registers it last. -/
theorem add_eq_ok {c c' : Collector} {naming : Naming} (hn : c.naming = some naming) {task : Task}
    {labels : LabelSet} (h : c.add task labels = .ok c') :
    (c.contains task.id task.ns = true ∧ c' = c) ∨
      (c.contains task.id task.ns = false ∧ ∃ ds, describeTask naming labels = .ok ds ∧
        c' = { c with registrations := c.registrations ++ [⟨task, ds⟩] }) := by
  unfold add at h
  split at h
  · next hnone =>
    rw [hn] at hnone
    simp at hnone
  · next hsome =>
    obtain rfl := Option.some.inj (hn.symm.trans hsome)
    split at h
    · next hc => exact .inl ⟨hc, (Except.ok.inj h).symm⟩
    · next hc =>
      split at h
      · simp at h
      · next ds hds => exact .inr ⟨by simpa using hc, ds, hds, (Except.ok.inj h).symm⟩

/-- What adding a task does to an enabled collector. -/
theorem after_add {c : Collector} {naming : Naming} (hn : c.naming = some naming) (task : Task)
    (labels : LabelSet) :
    c.after (.add task labels) = if c.contains task.id task.ns then c else
      match describeTask naming labels with
      | .error _ => c
      | .ok ds => { c with registrations := c.registrations ++ [⟨task, ds⟩] } := by
  cases hc : c.contains task.id task.ns with
  | true => simp [after, add, hc, hn]
  | false => cases hds : describeTask naming labels <;> simp [after, add, hc, hn, hds]

/-- What a call can do to an enabled collector. -/
theorem after_cases {c : Collector} {naming : Naming} (hn : c.naming = some naming) (call : Call) :
    c.after call = c ∨
      (∃ task labels ds, call = .add task labels ∧ c.contains task.id task.ns = false ∧
        describeTask naming labels = .ok ds ∧
        c.after call = { c with registrations := c.registrations ++ [⟨task, ds⟩] }) ∨
      ∃ id ns, call = .remove id ns ∧ c.after call = c.remove id ns := by
  cases call with
  | remove id ns => exact .inr (.inr ⟨id, ns, rfl, rfl⟩)
  | add task labels =>
    cases h : c.add task labels with
    | error e =>
      refine .inl ?_
      simp only [after, h]
    | ok c' =>
      have hafter : c.after (.add task labels) = c' := by simp only [after, h]
      rw [hafter]
      rcases add_eq_ok hn h with ⟨-, rfl⟩ | ⟨hc, ds, hds, rfl⟩
      · exact .inl rfl
      · exact .inr (.inl ⟨task, labels, ds, rfl, hc, hds, rfl⟩)

/-! ## The call that registered a task -/

/-- The registration of a task goes back to an add call with the labels: the task was missing
before that call, and after it there was no state without it. -/
def AddedBy (start : Collector) (calls : List Call) (task : Task) (labels : LabelSet) : Prop :=
  ∃ earlier since, calls = earlier ++ .add task labels :: since ∧
    (start.run earlier).contains task.id task.ns = false ∧
    ∀ part, part <+: since →
      (start.run (earlier ++ .add task labels :: part)).contains task.id task.ns = true

/-- The last call has registered a task that was missing before it. -/
theorem addedBy_last {start : Collector} {calls : List Call} {task : Task} {labels : LabelSet}
    (hmissing : (start.run calls).contains task.id task.ns = false)
    (hthere : (start.run (calls ++ [.add task labels])).contains task.id task.ns = true) :
    AddedBy start (calls ++ [.add task labels]) task labels := by
  refine ⟨calls, [], rfl, hmissing, ?_⟩
  intro part hpart
  obtain rfl : part = [] := List.prefix_nil.1 hpart
  exact hthere

/-- A registration that a further call leaves in place still goes back to the same call. -/
theorem AddedBy.concat {start : Collector} {calls : List Call} {task : Task} {labels : LabelSet}
    (h : AddedBy start calls task labels) {call : Call}
    (hthere : (start.run (calls ++ [call])).contains task.id task.ns = true) :
    AddedBy start (calls ++ [call]) task labels := by
  obtain ⟨earlier, since, rfl, hmissing, hsince⟩ := h
  refine ⟨earlier, since ++ [call], by simp, hmissing, ?_⟩
  intro part hpart
  rcases List.prefix_concat_iff.1 hpart with rfl | hpart
  · simpa using hthere
  · exact hsince part hpart

/-- Where a task has never been missing since it was added, no later call has added it again. -/
theorem labels_eq_of_since {start : Collector} {earlier part since later : List Call} {task : Task}
    {labels other : LabelSet} (hsince : ∀ part, part <+: since →
      (start.run (earlier ++ .add task labels :: part)).contains task.id task.ns = true)
    (hmissing : (start.run (earlier ++ part)).contains task.id task.ns = false)
    (heq : .add task labels :: since = part ++ .add task other :: later) : labels = other := by
  cases part with
  | nil => exact (Call.add.inj (List.cons.inj heq).1).2
  | cons call part =>
    obtain ⟨rfl, rfl⟩ := List.cons.inj heq
    rw [hsince part (List.prefix_append _ _)] at hmissing
    cases hmissing

/-- The call to which a registration goes back is the only one. -/
theorem AddedBy.unique {start : Collector} {calls : List Call} {task : Task}
    {labels other : LabelSet} (h : AddedBy start calls task labels)
    (hother : AddedBy start calls task other) : labels = other := by
  obtain ⟨earlier, since, rfl, hmissing, hsince⟩ := h
  obtain ⟨earlier', since', heq, hmissing', hsince'⟩ := hother
  -- the call that was made later would have found the task
  rcases List.append_eq_append_iff.1 heq with ⟨part, rfl, hrest⟩ | ⟨part, rfl, hrest⟩
  · exact labels_eq_of_since hsince hmissing' hrest
  · exact (labels_eq_of_since hsince' hmissing hrest).symm

/-! ## The invariant of a history -/

/-- What holds of the registry after every history of calls. -/
structure Registered (naming : Naming) (start : Collector) (calls : List Call) (c : Collector) :
    Prop where
  enabled : c.naming = some naming
  descriptors : c.descriptors = start.descriptors
  /-- No two tasks have one key. -/
  nodup_keys : c.keys.Nodup
  /-- A registration goes back to an add call, and holds what is described for its labels. -/
  added : ∀ r ∈ c.registrations, ∃ labels, AddedBy start calls r.task labels ∧
    describeTask naming labels = .ok r.descriptors

/-- A registered task is there. -/
theorem contains_of_mem {c : Collector} {r : Registration} (h : r ∈ c.registrations) :
    c.contains r.task.id r.task.ns = true :=
  contains_eq_true_iff.2 (List.mem_map.2 ⟨r, h, rfl⟩)

/-- A collector that is made for a naming has no tasks, and its descriptors are those of the
catalog under the naming. -/
theorem ofNaming_eq_ok {naming : Naming} {start : Collector}
    (h : ofNaming (some naming) = .ok start) :
    start.naming = some naming ∧ start.registrations = [] ∧
      Metric.describeAll naming Metric.catalog = .ok start.descriptors := by
  rw [ofNaming] at h
  cases hds : Metric.describeAll naming Metric.catalog with
  | error e =>
    rw [hds] at h
    cases h
  | ok ds =>
    rw [hds] at h
    obtain rfl := Except.ok.inj h
    exact ⟨rfl, rfl, rfl⟩

/-- There is a collector for the naming of an exporter without settings. -/
theorem exists_ofNaming_container :
    ∃ start, ofNaming (some ⟨"container", none, .empty⟩) = .ok start := by
  have hsome : (Metric.describeAll ⟨"container", none, .empty⟩ Metric.catalog).toOption.isSome =
      true := by
    decide +kernel
  cases hds : Metric.describeAll ⟨"container", none, .empty⟩ Metric.catalog with
  | error e =>
    rw [hds] at hsome
    cases hsome
  | ok ds => exact ⟨⟨some ⟨"container", none, .empty⟩, ds, []⟩, by rw [ofNaming, hds]; rfl⟩

/-- What is computed from a naming is what the collector that is made for the naming has. -/
theorem eq_of_map_ofNaming {α : Type} {naming : Option Naming} {start : Collector}
    (h : ofNaming naming = .ok start) {f : Collector → α} {value : α}
    (hvalue : (ofNaming naming).toOption.map f = some value) : f start = value := by
  rw [h] at hvalue
  exact Option.some.inj hvalue

/-- A call keeps the invariant. -/
theorem Registered.after {naming : Naming} {start : Collector} {calls : List Call}
    (h : Registered naming start calls (start.run calls)) (call : Call) :
    Registered naming start (calls ++ [call]) (start.run (calls ++ [call])) := by
  -- what stays registered keeps its call, whatever the last call does to the rest
  have kept : ∀ r ∈ (start.run calls).registrations,
      r ∈ (start.run (calls ++ [call])).registrations → ∃ labels,
        AddedBy start (calls ++ [call]) r.task labels ∧
        describeTask naming labels = .ok r.descriptors := by
    intro r hold hnew
    obtain ⟨labels, hadded, hds⟩ := h.added r hold
    exact ⟨labels, hadded.concat (contains_of_mem hnew), hds⟩
  have hrun := run_concat start calls call
  rcases after_cases h.enabled call with hsame | ⟨task, labels, ds, rfl, hc, hds, hadd⟩ |
    ⟨id, ns, rfl, hremove⟩
  · -- nothing changes
    rw [hsame] at hrun
    rw [hrun] at kept ⊢
    exact ⟨h.enabled, h.descriptors, h.nodup_keys, fun r hr => kept r hr hr⟩
  · -- one registration more, of a task that was missing
    rw [hadd] at hrun
    have hkeys : (start.run (calls ++ [.add task labels])).keys =
        (start.run calls).keys ++ [task.key] := by
      rw [hrun]
      simp [keys]
    have hnot : task.key ∉ (start.run calls).keys := fun hmem => by
      rw [contains_eq_true_iff.2 hmem] at hc
      simp at hc
    refine ⟨by rw [hrun]; exact h.enabled, by rw [hrun]; exact h.descriptors, ?_, ?_⟩
    · rw [hkeys]
      exact List.nodup_append_comm.1 (List.nodup_cons.2 ⟨hnot, h.nodup_keys⟩)
    · intro r hr
      have hmem := hr
      rw [hrun] at hmem
      rcases List.mem_append.1 hmem with hold | hlast
      · exact kept r hold hr
      · obtain rfl := List.mem_singleton.1 hlast
        exact ⟨labels, addedBy_last hc (contains_of_mem hr), hds⟩
  · -- some registrations fewer
    rw [hremove] at hrun
    refine ⟨by rw [hrun]; exact h.enabled, by rw [hrun]; exact h.descriptors, ?_, ?_⟩
    · rw [hrun, keys_remove]
      exact h.nodup_keys.filter _
    · intro r hr
      have hmem := hr
      rw [hrun] at hmem
      exact kept r (List.mem_of_mem_filter hmem) hr

/-- The invariant holds after every history. -/
theorem run_registered {naming : Naming} {start : Collector}
    (h : ofNaming (some naming) = .ok start) (calls : List Call) :
    Registered naming start calls (start.run calls) := by
  obtain ⟨hnaming, hempty, -⟩ := ofNaming_eq_ok h
  induction calls using List.reverseRecOn with
  | nil => exact ⟨hnaming, rfl, by simp [keys, hempty], by simp [hempty]⟩
  | append_singleton calls call ih => exact ih.after call

/-! ## The descriptors of a task -/

/-- The descriptors that a task uses are those of the catalog under the naming with the labels of
the task. -/
theorem forall₂_describes_of_describeTask {naming : Naming} {labels : LabelSet}
    {own : List Descriptor} {ds : Option (List Descriptor)}
    (hown : Metric.describeAll naming Metric.catalog = .ok own)
    (h : describeTask naming labels = .ok ds) :
    List.Forall₂ (Metric.Describes (naming.withLabels labels)) Metric.catalog (ds.getD own) := by
  unfold describeTask at h
  split at h
  · -- without labels of its own a task uses the descriptors of the collector
    next hempty =>
    have hsame : naming.withLabels labels = naming := by
      rw [Naming.withLabels, LabelSet.union_eq_left_of_isEmpty _ hempty]
    obtain rfl := Except.ok.inj h
    rw [hsame]
    exact Metric.forall₂_describes hown
  · cases hds : Metric.describeAll (naming.withLabels labels) Metric.catalog with
    | error e =>
      rw [hds] at h
      cases h
    | ok others =>
      rw [hds] at h
      obtain rfl := Except.ok.inj h
      exact Metric.forall₂_describes hds

end Collector

end ContainerUsage
