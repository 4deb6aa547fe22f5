import Mathlib
import ContainerUsage.Collector.Collect

/-!
# Asking several tasks

A task is asked through a source of the host, which gives one answer each time. `Host.answers` are
the answers that a source gives from now on.

* `Collector.fst_askAll` and `Collector.sources_askAll` say what asking tasks does that have a
  source each: every task gives its next answer, the sources of these tasks are asked once, and all
  others are left alone.
-/

namespace ContainerUsage

/-! ## One source -/

/-- The answers of a source, from now on. -/
def Source.answers (fs : FileSystem) (source : Source) : Nat → Answer
  | 0 => (source.ask fs).1
  | n + 1 => (source.ask fs).2.answers fs n

namespace Host

/-- The answers that are given through one of the sources, from now on. -/
def answers (host : Host) (source : SourceId) (n : Nat) : Answer :=
  match host.sources[source.index]? with
  | none => .error .gone
  | some asked => asked.answers host.files n

variable (host : Host) (source : SourceId)

/-- Asking changes no file. -/
@[simp] theorem files_ask : (host.ask source).2.files = host.files := by
  unfold ask
  split <;> rfl

/-- Asking a source gives its next answer. -/
theorem fst_ask : (host.ask source).1 = host.answers source 0 := by
  unfold ask answers
  cases host.sources[source.index]? <;> rfl

/-- Asking a source takes its next answer away. -/
theorem sources_ask_self : (host.ask source).2.sources[source.index]? =
    host.sources[source.index]?.map fun asked => (asked.ask host.files).2 := by
  unfold ask
  cases hsource : host.sources[source.index]? with
  | none => simp [hsource]
  | some asked => simp [List.getElem?_set_self', hsource]

/-- A source that is left alone gives the same answers. -/
theorem answers_congr {host host' : Host} {source : SourceId} (hfiles : host'.files = host.files)
    (h : host'.sources[source.index]? = host.sources[source.index]?) (n : Nat) :
    host'.answers source n = host.answers source n := by
  rw [answers, answers, h, hfiles]

/-- What is left of a source that was asked gives the answers that are left. -/
theorem answers_of_asked {host host' : Host} {source : SourceId} (hfiles : host'.files = host.files)
    (h : host'.sources[source.index]? =
      host.sources[source.index]?.map fun asked => (asked.ask host.files).2) (n : Nat) :
    host'.answers source n = host.answers source (n + 1) := by
  unfold answers
  rw [h, hfiles]
  cases host.sources[source.index]? <;> rfl

/-- **Asking a source moves it on to its next answer**, and leaves the others where they are. -/
theorem answers_ask (other : SourceId) (n : Nat) : (host.ask source).2.answers other n =
    host.answers other (if other = source then n + 1 else n) := by
  split
  · next heq =>
    subst heq
    exact answers_of_asked (files_ask host other) (sources_ask_self host other) n
  · next hne => exact answers_congr (files_ask host source) (sources_ask_of_ne host hne) n

end Host

/-! ## Several sources -/

namespace Collector

variable {registrations : List Registration}

/-- Asking any number of tasks changes no file. -/
@[simp] theorem files_askAll (host : Host) (registrations : List Registration) :
    (askAll host registrations).2.files = host.files := by
  induction registrations generalizing host with
  | nil => rfl
  | cons r rest ih => rw [askAll, ih, Host.files_ask]

/-- A source that no task has is left alone. -/
theorem sources_askAll_of_notMem (host : Host) {source : SourceId}
    (h : source ∉ registrations.map (·.task.source)) :
    (askAll host registrations).2.sources[source.index]? = host.sources[source.index]? := by
  induction registrations generalizing host with
  | nil => rfl
  | cons r rest ih =>
    obtain ⟨hne, hrest⟩ := not_or.1 (mt List.mem_cons.2 h)
    rw [askAll, ih _ hrest]
    exact Host.sources_ask_of_ne host hne

/-- The source of a task is asked once. -/
theorem sources_askAll_of_mem (host : Host) (hnodup : (registrations.map (·.task.source)).Nodup)
    {source : SourceId} (h : source ∈ registrations.map (·.task.source)) :
    (askAll host registrations).2.sources[source.index]? =
      host.sources[source.index]?.map fun asked => (asked.ask host.files).2 := by
  induction registrations generalizing host with
  | nil => exact absurd h List.not_mem_nil
  | cons r rest ih =>
    obtain ⟨hnot, hnodup⟩ := List.nodup_cons.1 hnodup
    rw [askAll]
    rcases List.mem_cons.1 h with rfl | hrest
    · rw [sources_askAll_of_notMem _ hnot]
      exact Host.sources_ask_self host r.task.source
    · have hne : source ≠ r.task.source := by
        rintro rfl
        exact hnot hrest
      rw [ih _ hnodup hrest, Host.files_ask, Host.sources_ask_of_ne host hne]

/-- Every task gives its next answer. -/
theorem fst_askAll (host : Host) (hnodup : (registrations.map (·.task.source)).Nodup) :
    (askAll host registrations).1 = registrations.map fun r =>
      (r, host.answers r.task.source 0) := by
  induction registrations generalizing host with
  | nil => rfl
  | cons r rest ih =>
    obtain ⟨hnot, hnodup⟩ := List.nodup_cons.1 hnodup
    rw [askAll, List.map_cons, ih _ hnodup, Host.fst_ask]
    -- the other tasks have sources of their own, which are as they were
    refine congrArg (List.cons _) (List.map_congr_left fun other hother => ?_)
    have hne : other.task.source ≠ r.task.source := by
      intro heq
      exact hnot (List.mem_map.2 ⟨other, hother, heq⟩)
    rw [Host.answers_congr (Host.files_ask host _) (Host.sources_ask_of_ne host hne)]

end Collector

end ContainerUsage
