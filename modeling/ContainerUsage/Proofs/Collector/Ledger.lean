import Mathlib
import ContainerUsage.Proofs.Collector.Holdings
import ContainerUsage.Proofs.Metric.Describable
import ContainerUsage.Proofs.Settings.TaskLabels
import ContainerUsage.Proofs.Task.Key

/-!
# The registry as a map

Whoever uses a collector thinks of its registry as a map from containers, which are told apart by
their identifier and their namespace, to the task that was added first and its labels. A `Ledger` is
such a map and knows nothing of keys and descriptors: an add call with labels that can be attached
puts a missing container in, and a remove call takes its own container out.

* `Follows` relates a collector to a ledger. `Follows.after` says that one call keeps it, and
  `run_follows` that a collector follows its ledger through any calls.
* `run_refines` reads the result off the public operations. It needs namespaces without hyphens, as
  the registry joins identifiers and namespaces by one.
-/

namespace ContainerUsage.Collector

/-! ## Ledgers -/

/-- The containers that are registered, each with the first task that was added and its labels. -/
abbrev Ledger := Std.ExtHashMap (String × String) (Task × LabelSet)

/-- Labels that can be attached to the samples of every metric. -/
def Attachable (labels : LabelSet) : Prop := labels.Fits (baseLabels ++ ["major", "minor", "page"])

instance (labels : LabelSet) : Decidable (Attachable labels) :=
  inferInstanceAs (Decidable (∀ name ∈ labels.names, isLabelName name = true ∧
    name ∉ baseLabels ++ ["major", "minor", "page"]))

/-- The container that a call is about. -/
def Call.container : Call → String × String
  | .add task _ => (task.id, task.ns)
  | .remove id ns => (id, ns)

/-- A call about a container whose namespace has no hyphen. -/
def Call.Plain (call : Call) : Prop := '-' ∉ call.container.2.toList

namespace Ledger

/-- The ledger after a call. -/
def after (ledger : Ledger) : Call → Ledger
  | .add task labels =>
    if Attachable labels then ledger.insertIfNew (task.id, task.ns) (task, labels) else ledger
  | .remove id ns => ledger.erase (id, ns)

/-- The ledger after a list of calls. -/
def run (calls : List Call) : Ledger := calls.foldl after ∅

/-- At first nothing is in the ledger. -/
@[simp] theorem run_nil : run [] = ∅ := rfl

/-- A run of the ledger is continued by one call at its end. -/
@[simp] theorem run_concat (calls : List Call) (call : Call) :
    run (calls ++ [call]) = (run calls).after call := by
  simp [run]

/-- A call changes the entry of its own container only. -/
theorem getElem?_after_of_ne {ledger : Ledger} {call : Call} {container : String × String}
    (h : container ≠ call.container) : (ledger.after call)[container]? = ledger[container]? := by
  cases call with
  | add task labels =>
    have hne : (task.id, task.ns) ≠ container := Ne.symm h
    by_cases hlabels : Attachable labels <;>
      simp [after, hlabels, Std.ExtHashMap.getElem?_insertIfNew, hne]
  | remove id ns =>
    have hne : (id, ns) ≠ container := Ne.symm h
    simp [after, Std.ExtHashMap.getElem?_erase, hne]

/-- A container that is there is not put in again. -/
theorem after_add_of_mem {ledger : Ledger} {task : Task} (h : (task.id, task.ns) ∈ ledger)
    (labels : LabelSet) : ledger.after (.add task labels) = ledger := by
  by_cases hlabels : Attachable labels
  · refine Std.ExtHashMap.ext_getElem? fun container => ?_
    simp [after, hlabels, Std.ExtHashMap.getElem?_insertIfNew, h]
  · simp [after, hlabels]

end Ledger

/-! ## Following a ledger -/

/-- A registration is what the ledger has for its container: the same task, with what is described
for its labels. -/
def Recorded (naming : Naming) (ledger : Ledger) (r : Registration) : Prop :=
  ∃ labels, ledger[(r.task.id, r.task.ns)]? = some (r.task, labels) ∧
    describeTask naming labels = .ok r.descriptors

/-- The registry has what the ledger has. -/
structure Follows (naming : Naming) (ledger : Ledger) (c : Collector) : Prop where
  mem_iff : ∀ r, r ∈ c.registrations ↔ Recorded naming ledger r
  size_eq : c.size = ledger.size
  /-- Each entry of the ledger has been described. -/
  described : ∀ container ∈ ledger, ∃ r, Recorded naming ledger r ∧
    (r.task.id, r.task.ns) = container
  /-- No namespace has a hyphen. -/
  plain : ∀ container ∈ ledger, '-' ∉ container.2.toList

variable {naming : Naming} {ledger : Ledger} {c : Collector}

/-- The container of a recorded registration is in the ledger. -/
theorem Recorded.mem {r : Registration} (h : Recorded naming ledger r) :
    (r.task.id, r.task.ns) ∈ ledger := by
  obtain ⟨labels, hentry, -⟩ := h
  simp [Std.ExtHashMap.mem_iff_isSome_getElem?, hentry]

/-- A call keeps what is recorded for other containers. -/
theorem recorded_after_iff {r : Registration} {call : Call}
    (h : (r.task.id, r.task.ns) ≠ call.container) :
    Recorded naming (ledger.after call) r ↔ Recorded naming ledger r := by
  rw [Recorded, Recorded, Ledger.getElem?_after_of_ne h]

/-- Removing a container makes the registry smaller by one, if it is there. -/
theorem size_remove (h : c.keys.Nodup) (id ns : String) :
    (c.remove id ns).size = if c.contains id ns then c.size - 1 else c.size := by
  have hsize : ∀ c : Collector, c.size = c.keys.length := fun c => by simp [size, keys]
  have hfilter : c.keys.filter (· ≠ taskKey id ns) = c.keys.erase (taskKey id ns) := by
    rw [h.erase_eq_filter]
    congr 1
    funext key
    rw [bne, beq_eq_decide, decide_not]
  rw [hsize, hsize, keys_remove, hfilter, List.length_erase]
  simp [contains_eq_true_iff]

namespace Follows

/-- A container is registered iff the ledger has it. -/
theorem contains_eq (h : Follows naming ledger c) {id ns : String} (hns : '-' ∉ ns.toList) :
    c.contains id ns = ledger.contains (id, ns) := by
  rw [Bool.eq_iff_iff, contains_eq_true_iff, ← Std.ExtHashMap.mem_iff_contains, keys, List.mem_map]
  constructor
  · rintro ⟨r, hmem, hkey⟩
    have hthere := ((h.mem_iff r).1 hmem).mem
    obtain ⟨rfl, rfl⟩ := (taskKey_inj (h.plain _ hthere) hns).1 hkey
    exact hthere
  · intro hthere
    obtain ⟨r, hr, hcontainer⟩ := h.described _ hthere
    obtain ⟨rfl, rfl⟩ := Prod.mk.inj hcontainer
    exact ⟨r, (h.mem_iff r).2 hr, rfl⟩

/-- A missing container is put in with its labels. -/
theorem insert (h : Follows naming ledger c) {task : Task} {labels : LabelSet}
    {ds : Option (List Descriptor)} (hns : '-' ∉ task.ns.toList)
    (hmissing : c.contains task.id task.ns = false) (hds : describeTask naming labels = .ok ds) :
    Follows naming (ledger.insertIfNew (task.id, task.ns) (task, labels))
      { c with registrations := c.registrations ++ [⟨task, ds⟩] } := by
  have hnot : (task.id, task.ns) ∉ ledger := by
    rw [Std.ExtHashMap.mem_iff_contains, ← h.contains_eq hns, hmissing]
    exact Bool.false_ne_true
  have hentry : ∀ container : String × String,
      (ledger.insertIfNew (task.id, task.ns) (task, labels))[container]? =
        if (task.id, task.ns) = container then some (task, labels) else ledger[container]? := by
    intro container
    simp [Std.ExtHashMap.getElem?_insertIfNew, hnot]
  have hnew : Recorded naming (ledger.insertIfNew (task.id, task.ns) (task, labels)) ⟨task, ds⟩ :=
    ⟨labels, by rw [hentry, if_pos rfl], hds⟩
  -- what is recorded for other containers stays so
  have hrecorded : ∀ r : Registration, (task.id, task.ns) ≠ (r.task.id, r.task.ns) →
      (Recorded naming (ledger.insertIfNew (task.id, task.ns) (task, labels)) r ↔
        Recorded naming ledger r) := by
    intro r hne
    rw [Recorded, Recorded, hentry, if_neg hne]
  refine ⟨fun r => ?_, ?_, fun container hmem => ?_, fun container hmem => ?_⟩
  · by_cases heq : (task.id, task.ns) = (r.task.id, r.task.ns)
    · have hold : r ∉ c.registrations := fun hmem => by
        have hthere := ((h.mem_iff r).1 hmem).mem
        rw [← heq] at hthere
        exact hnot hthere
      simp only [List.mem_append, hold, List.mem_singleton, false_or, Recorded, hentry, if_pos heq]
      constructor
      · rintro rfl
        exact ⟨labels, rfl, hds⟩
      · rintro ⟨labels', hsome, hds'⟩
        obtain ⟨htask, rfl⟩ := Prod.mk.inj (Option.some.inj hsome)
        obtain ⟨task', ds'⟩ := r
        rw [htask, Except.ok.inj (hds.symm.trans hds')]
    · have hne : r ≠ ⟨task, ds⟩ := by
        rintro rfl
        exact heq rfl
      simp [hrecorded r heq, h.mem_iff, hne]
  · have hsize := h.size_eq
    rw [size] at hsize
    simp [size, Std.ExtHashMap.size_insertIfNew, hnot, hsize]
  · by_cases heq : (task.id, task.ns) = container
    · exact ⟨_, hnew, heq⟩
    · have hmem : container ∈ ledger := by simpa [heq] using hmem
      obtain ⟨r, hr, rfl⟩ := h.described container hmem
      exact ⟨r, (hrecorded r heq).2 hr, rfl⟩
  · by_cases heq : (task.id, task.ns) = container
    · rw [← heq]
      exact hns
    · exact h.plain container (by simpa [heq] using hmem)

/-- A container is taken out. -/
theorem erase (h : Follows naming ledger c) (hnodup : c.keys.Nodup) {id ns : String}
    (hns : '-' ∉ ns.toList) : Follows naming (ledger.erase (id, ns)) (c.remove id ns) := by
  have hrecorded : ∀ r : Registration, Recorded naming (ledger.erase (id, ns)) r ↔
      (id, ns) ≠ (r.task.id, r.task.ns) ∧ Recorded naming ledger r := by
    intro r
    by_cases heq : (id, ns) = (r.task.id, r.task.ns) <;>
      simp [Recorded, Std.ExtHashMap.getElem?_erase, heq]
  refine ⟨fun r => ?_, ?_, fun container hmem => ?_, fun container hmem => ?_⟩
  · rw [hrecorded, remove, List.mem_filter, h.mem_iff, and_comm]
    refine and_congr_left fun hr => ?_
    have hkey : taskKey r.task.id r.task.ns = taskKey id ns ↔ r.task.id = id ∧ r.task.ns = ns :=
      taskKey_inj (h.plain _ hr.mem) hns
    simp only [Task.key, ne_eq, decide_not, Bool.not_eq_true', decide_eq_false_iff_not, hkey,
      Prod.mk.injEq]
    exact not_congr ⟨fun hpair => ⟨hpair.1.symm, hpair.2.symm⟩,
      fun hpair => ⟨hpair.1.symm, hpair.2.symm⟩⟩
  · rw [size_remove hnodup, Std.ExtHashMap.size_erase, h.contains_eq hns, h.size_eq]
    simp
  · obtain ⟨hne, hmem⟩ : (id, ns) ≠ container ∧ container ∈ ledger := by simpa using hmem
    obtain ⟨r, hr, rfl⟩ := h.described container hmem
    exact ⟨r, (hrecorded r).2 ⟨hne, hr⟩, rfl⟩
  · obtain ⟨-, hmem⟩ : (id, ns) ≠ container ∧ container ∈ ledger := by simpa using hmem
    exact h.plain container hmem

/-- **One call keeps a collector and its ledger together.** -/
theorem after {own : List Descriptor} (hown : Metric.describeAll naming Metric.catalog = .ok own)
    (h : Follows naming ledger c) (hn : c.naming = some naming)
    (hnodup : c.keys.Nodup) {call : Call}
    (hplain : call.Plain) : Follows naming (ledger.after call) (c.after call) := by
  cases call with
  | remove id ns => exact h.erase hnodup hplain
  | add task labels =>
    have hattach := exists_describeTask_iff hown labels
    have hns : '-' ∉ task.ns.toList := hplain
    have hthere : c.contains task.id task.ns = _ := h.contains_eq hns
    cases hc : c.contains task.id task.ns with
    | true =>
      have hmem : (task.id, task.ns) ∈ ledger := by
        rw [Std.ExtHashMap.mem_iff_contains, ← hthere, hc]
      rw [Ledger.after_add_of_mem hmem, Collector.after, add_of_contains labels hc]
      exact h
    | false =>
      by_cases hlabels : Attachable labels
      · obtain ⟨c', hadd⟩ := (exists_add_eq_ok_iff hn task labels hc).2 (hattach.2 hlabels)
        rcases add_eq_ok hn hadd with ⟨hcontains, -⟩ | ⟨-, ds, hds, rfl⟩
        · rw [hc] at hcontains
          cases hcontains
        · rw [Ledger.after, if_pos hlabels, Collector.after, hadd]
          exact h.insert hns hc hds
      · rw [Ledger.after, if_neg hlabels, Collector.after]
        cases hadd : c.add task labels with
        | error cause => exact h
        | ok c' =>
          exact absurd (hattach.1 ((exists_add_eq_ok_iff hn task labels hc).1 ⟨c', hadd⟩)) hlabels

/-- The registry is empty iff the ledger is. -/
theorem isEmpty_eq (h : Follows naming ledger c) : c.isEmpty = ledger.isEmpty := by
  have hsize : c.registrations.length = ledger.size := h.size_eq
  rw [Bool.eq_iff_iff, isEmpty, List.isEmpty_iff_length_eq_zero, hsize,
    Std.ExtHashMap.isEmpty_iff, Std.ExtHashMap.eq_empty_iff_size_eq_zero]

end Follows

/-! ## Runs -/

section Runs

variable {start : Collector}

/-- A collector follows its ledger through any calls. -/
theorem run_follows (h : ofNaming (some naming) = .ok start) {calls : List Call}
    (hplain : ∀ call ∈ calls, call.Plain) :
    Follows naming (Ledger.run calls) (start.run calls) := by
  obtain ⟨-, hempty, hown⟩ := ofNaming_eq_ok h
  induction calls using List.reverseRecOn with
  | nil =>
    refine ⟨fun r => ?_, ?_, fun container hmem => ?_, fun container hmem => ?_⟩
    · simp [hempty, Recorded]
    · simp [size, hempty]
    · simp at hmem
    · simp at hmem
  | append_singleton calls call ih =>
    have hregistered := run_registered h calls
    rw [run_concat, Ledger.run_concat]
    exact (ih fun call hmem => hplain call (List.mem_append_left _ hmem)).after hown
      hregistered.enabled hregistered.nodup_keys (hplain call (by simp))

/-- A collector without a naming is left as it is by all calls. -/
theorem run_disabled (calls : List Call) : disabled.run calls = disabled := by
  induction calls using List.reverseRecOn with
  | nil => rfl
  | append_singleton calls call ih =>
    rw [run_concat, ih]
    cases call <;> rfl

/-- **The registry refines a map from containers to the tasks that were added first and their
labels.** At any time it has the containers of the map, and for each the task and the descriptors of
the labels. A task is refused only if its container is missing and its labels cannot be attached,
and a call leaves all other containers alone. A disabled collector ignores all calls. -/
theorem run_refines :
    (∀ {naming : Naming} {start : Collector}, ofNaming (some naming) = .ok start →
      ∀ calls : List Call, (∀ call ∈ calls, call.Plain) →
        (∀ id ns, '-' ∉ ns.toList →
          (start.run calls).contains id ns = (Ledger.run calls).contains (id, ns)) ∧
        (start.run calls).size = (Ledger.run calls).size ∧
        (start.run calls).isEmpty = (Ledger.run calls).isEmpty ∧
        (∀ r, r ∈ (start.run calls).registrations ↔ Recorded naming (Ledger.run calls) r) ∧
        (∀ task labels, '-' ∉ task.ns.toList →
          ((task.id, task.ns) ∈ Ledger.run calls →
            (start.run calls).add task labels = .ok (start.run calls)) ∧
          ((task.id, task.ns) ∉ Ledger.run calls →
            ((∃ c, (start.run calls).add task labels = .ok c) ↔ Attachable labels))) ∧
        ∀ call : Call, call.Plain → ∀ r : Registration, (r.task.id, r.task.ns) ≠ call.container →
          (r ∈ ((start.run calls).after call).registrations ↔
            r ∈ (start.run calls).registrations)) ∧
    ∀ {start : Collector}, ofNaming none = .ok start → ∀ calls : List Call,
      start.run calls = start ∧ start.size = 0 ∧ start.isEmpty = true ∧
        (∀ id ns, start.contains id ns = false) ∧
        ∀ task labels, start.add task labels = .ok start := by
  constructor
  · intro naming start h calls hplain
    have hfollows := run_follows h hplain
    have hregistered := run_registered h calls
    have hown := (ofNaming_eq_ok h).2.2
    refine ⟨fun id ns hns => hfollows.contains_eq hns, hfollows.size_eq, hfollows.isEmpty_eq,
      hfollows.mem_iff, fun task labels hns => ⟨fun hmem => ?_, fun hmem => ?_⟩,
      fun call hcall r hne => ?_⟩
    · apply add_of_contains
      rwa [hfollows.contains_eq hns, ← Std.ExtHashMap.mem_iff_contains]
    · have hmissing : (start.run calls).contains task.id task.ns = false := by
        rwa [hfollows.contains_eq hns, Bool.eq_false_iff, Ne, ← Std.ExtHashMap.mem_iff_contains]
      rw [exists_add_eq_ok_iff hregistered.enabled task labels hmissing]
      exact exists_describeTask_iff hown labels
    · have hafter := hfollows.after hown hregistered.enabled hregistered.nodup_keys hcall
      rw [hafter.mem_iff, hfollows.mem_iff, recorded_after_iff hne]
  · intro start h calls
    obtain rfl : disabled = start := Except.ok.inj h
    exact ⟨run_disabled calls, rfl, rfl, fun id ns => rfl, fun task labels => rfl⟩

/-- A task that is added twice, the second time with a source and with labels that it cannot have,
and another one that is refused for these labels. -/
theorem run_refines_twice :
    ∃ start, ofNaming (some ⟨"container", none, .empty⟩) = .ok start ∧
      let conflicting := LabelSet.ofList [("major", "8")]
      let calls := [.add ⟨"a", "moby", ⟨0⟩⟩ .empty, .add ⟨"a", "moby", ⟨1⟩⟩ conflicting,
        .add ⟨"b", "moby", ⟨2⟩⟩ conflicting, .remove "a" "k8s.io"]
      (start.run calls).size = 1 ∧ (start.run calls).contains "a" "moby" = true ∧
        (start.run calls).contains "b" "moby" = false ∧
        ⟨⟨"a", "moby", ⟨0⟩⟩, none⟩ ∈ (start.run calls).registrations ∧
        ¬ (∃ c, (start.run calls).add ⟨"b", "moby", ⟨2⟩⟩ conflicting = .ok c) ∧
        disabled.run calls = disabled := by
  obtain ⟨start, hstart⟩ := exists_ofNaming_container
  refine ⟨start, hstart, ?_⟩
  intro conflicting calls
  have hplain : ∀ call ∈ calls, call.Plain := by
    simp only [calls, Call.Plain, Call.container, List.forall_mem_cons]
    decide
  have hnone : Attachable .empty := by decide
  have hconflict : ¬ Attachable conflicting := by
    have hnames : conflicting.names = ["major"] := by cbv
    unfold Attachable LabelSet.Fits
    rw [hnames]
    decide
  have hledger : Ledger.run calls =
      (∅ : Ledger).insertIfNew ("a", "moby") (⟨"a", "moby", ⟨0⟩⟩, .empty) := by
    refine Std.ExtHashMap.ext_getElem? fun container => ?_
    have hrun : Ledger.run calls = ((∅ : Ledger).insertIfNew ("a", "moby")
        (⟨"a", "moby", ⟨0⟩⟩, .empty)).erase ("a", "k8s.io") := by
      simp [calls, Ledger.run, Ledger.after, hnone, hconflict]
    rw [hrun, Std.ExtHashMap.getElem?_erase, Std.ExtHashMap.getElem?_insertIfNew]
    by_cases heq : ("a", "k8s.io") = container
    · subst heq
      simp
    · simp [heq]
  obtain ⟨hcontains, hsize, -, hmem, hadd, -⟩ := run_refines.1 hstart calls hplain
  refine ⟨?_, ?_, ?_, ?_, ?_, ?_⟩
  · rw [hsize, hledger]
    simp [Std.ExtHashMap.size_insertIfNew]
  · rw [hcontains "a" "moby" (by decide), hledger]
    simp
  · rw [hcontains "b" "moby" (by decide), hledger]
    simp
  · refine (hmem _).2 ⟨.empty, ?_, rfl⟩
    rw [hledger, Std.ExtHashMap.getElem?_insertIfNew, if_pos (by simp)]
  · rw [(hadd _ _ (by decide)).2 (by rw [hledger]; simp)]
    exact hconflict
  · exact (run_refines.2 rfl calls).1

end Runs

end ContainerUsage.Collector
