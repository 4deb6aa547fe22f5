import Mathlib
import ContainerUsage.Collector.Collect
import ContainerUsage.Proofs.Collector.History

/-!
# The tasks that a collector holds

Whoever adds and removes tasks wants to know which tasks are registered. `Holds naming host tasks c`
says that the enabled collector `c` holds exactly the given tasks, each once, and that they are open
in the host. Each has a source of its own there, so a task in the list is the very task that was
opened and not another one for the same container.

* `Holds.add` and `Holds.filter` say what adding a task and removing some do to the list.
* `Holds.contains_iff`, `Holds.size_eq` and `Holds.nodup_keys_tasks` read it off the collector.
-/

namespace ContainerUsage

/-! ## Opening a task -/

section Opening

variable {host host' : Host} {id : ContainerId} {ns : String} {path : Path} {task : Task}

/-- An opened task has a source that no other task had before. -/
theorem Host.openTask_eq_ok (h : host.openTask id ns path = .ok (task, host')) :
    task = ⟨id.text, ns, ⟨host.sources.length⟩⟩ ∧
      ∃ source, host' = { host with sources := host.sources ++ [source] } := by
  unfold openTask at h
  split at h
  · simp at h
  · next reader hreader =>
    obtain ⟨htask, hhost⟩ := Prod.mk.inj (Except.ok.inj h)
    exact ⟨htask.symm, .cgroup reader, hhost.symm⟩

/-- A task can be opened exactly if the directory of its cgroup can be listed. -/
theorem Host.openTask_eq_error_iff {cause : IoError} :
    host.openTask id ns path = .error cause ↔ host.files.list path = .error cause := by
  unfold openTask Cgroup.StatReader.ofCgroup
  cases host.files.list path <;> simp

end Opening

namespace Collector

/-! ## Labels that are accepted -/

/-- Whether labels are accepted does not depend on the task, or on what is registered. -/
theorem exists_add_eq_ok_iff {c : Collector} {naming : Naming} (hn : c.naming = some naming)
    (task : Task) (labels : LabelSet) (hc : c.contains task.id task.ns = false) :
    (∃ c', c.add task labels = .ok c') ↔ ∃ ds, describeTask naming labels = .ok ds := by
  unfold add
  rw [hn]
  cases hds : describeTask naming labels <;> simp [hc, hds]

/-- Adding a task loses no container. Where the collector is disabled, nothing is added either. -/
theorem contains_of_add {c c' : Collector} {task : Task} {labels : LabelSet}
    (h : c.add task labels = .ok c')
    {id ns : String} (hc : c.contains id ns = true) : c'.contains id ns = true := by
  cases hn : c.naming with
  | none =>
    rw [add, hn] at h
    obtain rfl := Except.ok.inj h
    exact hc
  | some naming =>
    have hkeys := keys_of_add h (by rw [hn]; rfl)
    rw [contains_eq_true_iff] at hc ⊢
    rw [hkeys]
    split
    · exact hc
    · exact List.mem_append_left _ hc

/-- A collector that was just made has no tasks. -/
theorem contains_of_ofNaming {naming : Naming} {c : Collector}
    (h : ofNaming (some naming) = .ok c) (id ns : String) : c.contains id ns = false := by
  obtain ⟨-, hempty, -⟩ := ofNaming_eq_ok h
  rw [contains, keys, hempty]
  rfl

/-! ## Holdings -/

/-- The enabled collector holds exactly the tasks of a list, and they are open in the host. -/
structure Holds (naming : Naming) (host : Host) (tasks : List Task) (c : Collector) : Prop where
  enabled : c.naming = some naming
  nodup_keys : c.keys.Nodup
  perm : (c.registrations.map (·.task)).Perm tasks
  nodup_sources : (tasks.map (·.source.index)).Nodup
  opened : ∀ task ∈ tasks, task.source.index < host.sources.length

namespace Holds

variable {naming : Naming} {host host' : Host} {tasks tasks' : List Task} {c c' : Collector}

/-- A collector that was just made holds nothing. -/
theorem of_ofNaming (h : ofNaming (some naming) = .ok c) (host : Host) :
    c.Holds naming host [] := by
  obtain ⟨hnaming, hempty, -⟩ := ofNaming_eq_ok h
  exact ⟨hnaming, by simp [keys, hempty], by simp [hempty], by simp, by simp⟩

/-- The order of the list does not matter. -/
theorem of_perm (h : c.Holds naming host tasks) (hperm : tasks.Perm tasks') :
    c.Holds naming host tasks' :=
  ⟨h.enabled, h.nodup_keys, h.perm.trans hperm, (hperm.map _).nodup_iff.1 h.nodup_sources,
    fun task hmem => h.opened task (hperm.mem_iff.2 hmem)⟩

/-- The host may change, as long as it keeps the sources. -/
theorem of_length_le (h : c.Holds naming host tasks)
    (hlength : host.sources.length ≤ host'.sources.length) : c.Holds naming host' tasks :=
  ⟨h.enabled, h.nodup_keys, h.perm, h.nodup_sources,
    fun task hmem => Nat.lt_of_lt_of_le (h.opened task hmem) hlength⟩

/-- The registry has one entry for each task. -/
theorem size_eq (h : c.Holds naming host tasks) : c.size = tasks.length := by
  rw [size, ← h.perm.length_eq, List.length_map]

/-- The keys of the registry are those of the tasks. -/
theorem perm_keys (h : c.Holds naming host tasks) : c.keys.Perm (tasks.map Task.key) := by
  have hmap := h.perm.map Task.key
  rwa [List.map_map] at hmap

/-- No two of the tasks have one key. -/
theorem nodup_keys_tasks (h : c.Holds naming host tasks) : (tasks.map Task.key).Nodup :=
  h.perm_keys.nodup_iff.1 h.nodup_keys

/-- A container is registered if one of the tasks has its key. -/
theorem contains_iff (h : c.Holds naming host tasks) {id ns : String} :
    c.contains id ns = true ↔ ∃ task ∈ tasks, task.key = taskKey id ns := by
  rw [contains_eq_true_iff, h.perm_keys.mem_iff, List.mem_map]

/-- The registered tasks are the ones of the list. -/
theorem exists_registration_iff (h : c.Holds naming host tasks) {task : Task} :
    (∃ r ∈ c.registrations, r.task = task) ↔ task ∈ tasks := by
  rw [← h.perm.mem_iff, List.mem_map]

/-- Adding a task that was just opened puts it on the list, unless its key is there. -/
theorem add (h : c.Holds naming host tasks) {id : ContainerId} {ns : String} {path : Path}
    {task : Task} {labels : LabelSet} (hc : c.contains id.text ns = false)
    (hopen : host.openTask id ns path = .ok (task, host')) (hadd : c.add task labels = .ok c') :
    c'.Holds naming host' (tasks ++ [task]) := by
  obtain ⟨rfl, source, rfl⟩ := Host.openTask_eq_ok hopen
  rcases add_eq_ok h.enabled hadd with ⟨hthere, -⟩ | ⟨-, ds, -, rfl⟩
  · rw [hc] at hthere
    simp at hthere
  · have hnot : taskKey id.text ns ∉ c.keys := fun hmem => by
      rw [contains_eq_true_iff.2 hmem] at hc
      simp at hc
    refine ⟨h.enabled, ?_, ?_, ?_, ?_⟩
    · rw [keys, List.map_append]
      exact List.nodup_append_comm.1 (List.nodup_cons.2 ⟨hnot, h.nodup_keys⟩)
    · rw [List.map_append]
      exact h.perm.append_right _
    · -- the sources of the others were there before
      rw [List.map_append]
      refine List.nodup_append_comm.1 (List.nodup_cons.2 ⟨fun hmem => ?_, h.nodup_sources⟩)
      obtain ⟨other, hother, hindex⟩ := List.mem_map.1 hmem
      exact Nat.ne_of_lt (h.opened other hother) hindex
    · intro task hmem
      rw [List.length_append]
      rcases List.mem_append.1 hmem with hold | hlast
      · exact Nat.lt_succ_of_lt (h.opened task hold)
      · obtain rfl := List.mem_singleton.1 hlast
        exact Nat.lt_succ_self _

/-- Keeping the registrations of some tasks only keeps these tasks on the list. -/
theorem filter (h : c.Holds naming host tasks) (p : Task → Bool) :
    ({ c with registrations := c.registrations.filter fun r => p r.task } : Collector).Holds
      naming host (tasks.filter p) := by
  refine ⟨h.enabled, ?_, ?_, ?_, fun task hmem => h.opened task (List.mem_of_mem_filter hmem)⟩
  · exact h.nodup_keys.sublist (List.filter_sublist.map _)
  · have hperm := h.perm.filter p
    rwa [List.filter_map] at hperm
  · exact h.nodup_sources.sublist (List.filter_sublist.map _)

end Holds

/-! ## Removing several tasks -/

/-- Removing tasks one after the other removes the registrations with one of their keys. -/
theorem foldl_remove (entries : List (Path × Task)) (c : Collector) :
    entries.foldl (fun c entry => c.remove entry.2.id entry.2.ns) c =
      { c with registrations := c.registrations.filter fun r =>
          r.task.key ∉ entries.map fun entry => entry.2.key } := by
  induction entries generalizing c with
  | nil => simp
  | cons entry rest ih =>
    rw [List.foldl_cons, ih, remove, List.filter_filter]
    simp only [List.map_cons, List.mem_cons, not_or, Bool.decide_and, Bool.and_comm]
    rfl

end Collector

end ContainerUsage
