import Mathlib
import ContainerUsage.Proofs.Collector.Ledger
import ContainerUsage.Proofs.Task.Key

/-!
# Containers that share a registration

The registry knows containers by their keys. `taskKey_eq_iff` says which containers have one key:
the identifier of one goes on with what the namespace of the other starts with. To the registry they
are one container.

* `Collector.contains_congr` says that it finds both if it finds one.
* `Collector.remove_eq_of_mem`: there is one registration for a key, so that removing either of the
  two takes out this one and no other.
* `Collector.registration_shared` puts this together, and says that nothing is shared among
  containers whose namespaces have no hyphen.
-/

namespace ContainerUsage.Collector

variable {c : Collector} {id ns id' ns' : String}

/-- Whether a container is registered depends on its key. -/
theorem contains_congr (h : taskKey id ns = taskKey id' ns') :
    c.contains id ns = c.contains id' ns' := by
  rw [contains, contains, h]

/-- No container is registered after it was removed. -/
theorem contains_remove_self (c : Collector) (id ns : String) :
    (c.remove id ns).contains id ns = false := by
  simp [contains_remove]

/-- Where no two registrations have one key, removing a container takes out one registration. -/
theorem remove_eq_of_mem (hkeys : c.keys.Nodup) {before after : List Registration}
    {r : Registration}
    (hr : c.registrations = before ++ r :: after) (hkey : r.task.key = taskKey id ns) :
    c.remove id ns = { c with registrations := before ++ after } := by
  have hother : ∀ other ∈ before ++ after, other.task.key ≠ taskKey id ns := by
    intro other hmem heq
    have hperm : c.registrations.Perm (r :: (before ++ after)) := by
      rw [hr]
      exact List.perm_middle
    rw [keys, (hperm.map _).nodup_iff, List.map_cons, List.nodup_cons] at hkeys
    exact hkeys.1 (List.mem_map.2 ⟨other, hmem, heq.trans hkey.symm⟩)
  have hbefore := List.filter_eq_self.2 fun other hmem =>
    decide_eq_true (hother other (List.mem_append_left _ hmem))
  have hafter := List.filter_eq_self.2 fun other hmem =>
    decide_eq_true (hother other (List.mem_append_right _ hmem))
  rw [remove, hr, List.filter_append, List.filter_cons_of_neg (by simpa using hkey),
    hbefore, hafter]

/-- No two registrations of a collector have one key, whatever calls led to it. -/
theorem nodup_keys_run {naming : Option Naming} {start : Collector}
    (h : ofNaming naming = .ok start) (calls : List Call) : (start.run calls).keys.Nodup := by
  cases naming with
  | none =>
    obtain rfl : disabled = start := Except.ok.inj h
    rw [run_disabled]
    exact List.nodup_nil
  | some naming => exact (run_registered h calls).nodup_keys

/-- **Containers share a registration in one way only.** Two containers have one key exactly if they
are equal, or if the identifier of one goes on, behind a hyphen, with what the namespace of the
other starts with; this does not happen among containers whose namespaces have no hyphen. While the
first of two containers with one key is registered, adding the second changes nothing, whatever its
labels are, and removing either of them takes out the one registration that they have in common. The
last part holds of all collectors in which no two registrations have one key, and there are no
others. -/
theorem registration_shared :
    (∀ id ns id' ns', taskKey id ns = taskKey id' ns' ↔ (id, ns) = (id', ns') ∨
      (∃ middle, id = id' ++ "-" ++ middle ∧ ns' = middle ++ "-" ++ ns) ∨
        ∃ middle, id' = id ++ "-" ++ middle ∧ ns = middle ++ "-" ++ ns') ∧
    (∀ containers : Set (String × String), (∀ container ∈ containers, '-' ∉ container.2.toList) →
      containers.InjOn fun container => taskKey container.1 container.2) ∧
    (∀ naming start, ofNaming naming = .ok start → ∀ calls, (start.run calls).keys.Nodup) ∧
    ∀ c : Collector, c.keys.Nodup → ∀ first second : Task, first.key = second.key →
      c.contains first.id first.ns = true →
        (∀ labels, c.add second labels = .ok c) ∧
        ∃ before r after, c.registrations = before ++ r :: after ∧ r.task.key = first.key ∧
          ∀ task ∈ [first, second], c.remove task.id task.ns =
            { c with registrations := before ++ after } ∧
            (c.remove task.id task.ns).contains first.id first.ns = false ∧
            (c.remove task.id task.ns).contains second.id second.ns = false := by
  refine ⟨fun id ns id' ns' => taskKey_eq_iff, ?_, fun naming start => nodup_keys_run, ?_⟩
  · intro containers hplain container hmem container' hmem' hkey
    obtain ⟨hid, hns⟩ := (taskKey_inj (hplain container hmem) (hplain container' hmem')).1 hkey
    exact Prod.ext hid hns
  · intro c hkeys first second hkey hfirst
    have hsecond : c.contains second.id second.ns = true := contains_congr hkey ▸ hfirst
    refine ⟨fun labels => add_of_contains labels hsecond, ?_⟩
    obtain ⟨r, hmem, hr⟩ := List.mem_map.1 (contains_eq_true_iff.1 hfirst)
    obtain ⟨before, after, hsplit⟩ := List.append_of_mem hmem
    refine ⟨before, r, after, hsplit, hr, fun task htask => ?_⟩
    have hsame : task.key = first.key := by
      rcases List.mem_pair.1 htask with rfl | rfl
      · rfl
      · exact hkey.symm
    have hgone := contains_remove_self c task.id task.ns
    exact ⟨remove_eq_of_mem hkeys hsplit (hr.trans hsame.symm), contains_congr hsame ▸ hgone,
      contains_congr (hsame.trans hkey) ▸ hgone⟩

/-- The identifier of one container ends where the namespace of the other starts. Adding the other
one changes nothing, and removing it takes the first one out. Two containers without such a
namespace do not share a key. -/
theorem registration_shared_web :
    ∃ start, ofNaming (some ⟨"container", none, .empty⟩) = .ok start ∧
      let c := start.run [.add ⟨"web-eu", "moby", ⟨0⟩⟩ .empty, .add ⟨"web", "moby", ⟨1⟩⟩ .empty]
      taskKey "web-eu" "moby" = taskKey "web" "eu-moby" ∧
        c.add ⟨"web", "eu-moby", ⟨2⟩⟩ .empty = .ok c ∧
        (c.remove "web" "eu-moby").contains "web-eu" "moby" = false ∧
        taskKey "web" "moby" ≠ taskKey "web" "k8s.io" := by
  obtain ⟨start, hstart⟩ := exists_ofNaming_container
  refine ⟨start, hstart, ?_⟩
  intro c
  obtain ⟨hiff, hinj, hnodup, hshared⟩ := registration_shared
  have hkey : taskKey "web-eu" "moby" = taskKey "web" "eu-moby" :=
    (hiff _ _ _ _).2 (.inr (.inl ⟨"eu", by decide, by decide⟩))
  have hmissing := contains_of_ofNaming hstart "web-eu" "moby"
  have hthere : c.contains "web-eu" "moby" = true := by
    obtain ⟨hnaming, hempty, -⟩ := ofNaming_eq_ok hstart
    simp [c, run, after, add, contains, keys, hnaming, hempty, describeTask, LabelSet.isEmpty,
      LabelSet.empty, Task.key, taskKey]
  obtain ⟨hadd, before, r, after, -, -, hremove⟩ :=
    hshared c (hnodup _ _ hstart _) ⟨"web-eu", "moby", ⟨0⟩⟩
    ⟨"web", "eu-moby", ⟨2⟩⟩ hkey hthere
  refine ⟨hkey, hadd _, (hremove ⟨"web", "eu-moby", ⟨2⟩⟩ (by simp)).2.1, fun heq => ?_⟩
  have hplain : ∀ container ∈ ({("web", "moby"), ("web", "k8s.io")} : Set (String × String)),
      '-' ∉ container.2.toList := by
    rintro container (rfl | rfl) <;> decide
  have hmoby : ("web", "moby") ∈ ({("web", "moby"), ("web", "k8s.io")} : Set (String × String)) :=
    .inl rfl
  have hother :
      ("web", "k8s.io") ∈ ({("web", "moby"), ("web", "k8s.io")} : Set (String × String)) := .inr rfl
  exact absurd (hinj _ hplain hmoby hother heq) (by decide)

end ContainerUsage.Collector
