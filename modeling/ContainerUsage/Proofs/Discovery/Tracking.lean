import Mathlib
import ContainerUsage.Discovery.Scanner
import ContainerUsage.Proofs.Collector.Holdings
import ContainerUsage.Proofs.Discovery.Discoverable

/-!
# What a scan does to the registry

A scan first drops the scopes that vanished and then tracks the ones that are new, one by one. The
collector may have other tasks all the time, which the scan must not touch.

* `Track` says once what tracking a scope can do: nothing if the container is there, a notice if its
  directory is closed or the labels are refused, and else one task more.
* `Midway` is what holds from the moment the vanished scopes are gone. The collector holds the other
  tasks and the tracked ones, tracked scopes are scopes that were found, and the numbers that the
  scan reports account for the change.
* `midway_dropVanished` and `Midway.track` give `midway_update`, for the whole scan.
* `contains_update`: if nothing is closed and the labels are accepted, the container of every scope
  that was found is registered in the end.
-/

namespace ContainerUsage

/-- A task belongs to the container that the last piece of a path names. -/
def Task.NamedBy (task : Task) (path : Path) : Prop :=
  ∃ scope, path.scope? = some scope ∧ task.id = scope.id.text ∧ task.ns = scope.runtime.ns

/-- A path names one container. -/
theorem Task.NamedBy.key_eq {task other : Task} {path : Path} (h : task.NamedBy path)
    (h' : other.NamedBy path) : task.key = other.key := by
  obtain ⟨scope, hscope, hid, hns⟩ := h
  obtain ⟨scope', hscope', hid', hns'⟩ := h'
  obtain rfl := Option.some.inj (hscope.symm.trans hscope')
  rw [Task.key, Task.key, hid, hns, hid', hns']

namespace Scanner

/-- The tasks of the tracked scopes. -/
def tasks (scanner : Scanner) : List Task := scanner.tracked.map Prod.snd

/-! ## Tracking one scope -/

/-- What tracking a scope can do to a scan. -/
inductive Track (scan : Scan) (path : Path) (scope : ScopeName) : Scan → Prop where
  /-- The container is registered. -/
  | registered : scan.collector.contains scope.id.text scope.runtime.ns = true →
      Track scan path scope scan
  /-- The directory of the scope cannot be listed. -/
  | closed {cause : IoError} :
      scan.collector.contains scope.id.text scope.runtime.ns = false →
      scan.host.files.list path = .error cause →
      Track scan path scope { scan with notices := scan.notices ++ [.openFailed cause] }
  /-- The collector refuses the labels. -/
  | refused {task : Task} {cause : MetricError} :
      scan.collector.contains scope.id.text scope.runtime.ns = false →
      task.id = scope.id.text → task.ns = scope.runtime.ns →
      scan.collector.add task scan.scanner.labels = .error cause →
      Track scan path scope { scan with notices := scan.notices ++ [.addFailed cause] }
  /-- The task is opened and added. -/
  | added {task : Task} {host : Host} {collector : Collector} :
      scan.collector.contains scope.id.text scope.runtime.ns = false →
      scan.host.openTask scope.id scope.runtime.ns path = .ok (task, host) →
      scan.collector.add task scan.scanner.labels = .ok collector →
      Track scan path scope { scan with
        scanner := { scan.scanner with tracked := scan.scanner.tracked ++ [(path, task)] }
        collector
        host
        added := scan.added + 1 }

/-- What the definition does is one of the cases. -/
theorem track_spec (scan : Scan) (path : Path) (scope : ScopeName) :
    Track scan path scope (track scan path scope) := by
  unfold track
  dsimp only
  cases hc : scan.collector.contains scope.id.text scope.runtime.ns with
  | true => exact .registered hc
  | false =>
    cases hopen : scan.host.openTask scope.id scope.runtime.ns path with
    | error cause => exact .closed hc (Host.openTask_eq_error_iff.1 hopen)
    | ok opened =>
      obtain ⟨task, host⟩ := opened
      cases hadd : scan.collector.add task scan.scanner.labels with
      | error cause =>
        obtain ⟨rfl, -⟩ := Host.openTask_eq_ok hopen
        simp only [hadd]
        exact .refused hc rfl rfl hadd
      | ok collector =>
        simp only [hadd]
        exact .added hc hopen hadd

/-- Tracking a scope loses no container. -/
theorem Track.contains {scan next : Scan} {path : Path} {scope : ScopeName}
    (h : Track scan path scope next) {id ns : String} (hc : scan.collector.contains id ns = true) :
    next.collector.contains id ns = true := by
  cases h with
  | registered | closed | refused => exact hc
  | added hnew hopen hadd => exact Collector.contains_of_add hadd hc

/-! ## A scan after the vanished scopes are gone -/

/-- What holds of a scan by `scanner` that has found some scopes, from the moment it has dropped
those that vanished. The tasks of `others` are none of its business. -/
structure Midway (naming : Naming) (others : List Task) (scanner : Scanner) (host : Host)
    (found : List (Path × ScopeName)) (scan : Scan) : Prop where
  holds : scan.collector.Holds naming scan.host (others ++ scan.scanner.tasks)
  named : ∀ entry ∈ scan.scanner.tracked, entry.2.NamedBy entry.1
  among : ∀ entry ∈ scan.scanner.tracked, ∃ scope, (entry.1, scope) ∈ found
  /-- The scopes that were tracked before and still are found have not been touched. -/
  kept : ∀ entry ∈ scanner.tracked, (∃ scope, (entry.1, scope) ∈ found) →
    entry ∈ scan.scanner.tracked
  count : scan.scanner.tracked.length + scan.removed = scanner.tracked.length + scan.added
  root : scan.scanner.root = scanner.root
  labels : scan.scanner.labels = scanner.labels
  files : scan.host.files = host.files

section Scans

variable {naming : Naming} {others : List Task} {scanner : Scanner} {host : Host}
  {collector : Collector} {found : List (Path × ScopeName)} {scan : Scan}

/-- Tracking a scope that was found keeps everything in order. -/
theorem Midway.track (h : Midway naming others scanner host found scan) {path : Path}
    {scope : ScopeName} {next : Scan} (hstep : Track scan path scope next)
    (hscope : path.scope? = some scope) (hmem : (path, scope) ∈ found) :
    Midway naming others scanner host found next := by
  cases hstep with
  | registered hc => exact h
  | closed hc hlist =>
    exact ⟨h.holds, h.named, h.among, h.kept, h.count, h.root, h.labels, h.files⟩
  | refused hc hid hns hadd =>
    exact ⟨h.holds, h.named, h.among, h.kept, h.count, h.root, h.labels, h.files⟩
  | @added task next collector hc hopen hadd =>
    have hholds := h.holds.add hc hopen hadd
    obtain ⟨rfl, source, rfl⟩ := Host.openTask_eq_ok hopen
    refine ⟨?_, ?_, ?_, ?_, ?_, h.root, h.labels, h.files⟩
    · rw [tasks, List.map_append, ← List.append_assoc]
      exact hholds
    · intro entry hentry
      rcases List.mem_append.1 hentry with hold | hlast
      · exact h.named entry hold
      · obtain rfl := List.mem_singleton.1 hlast
        exact ⟨scope, hscope, rfl, rfl⟩
    · intro entry hentry
      rcases List.mem_append.1 hentry with hold | hlast
      · exact h.among entry hold
      · obtain rfl := List.mem_singleton.1 hlast
        exact ⟨scope, hmem⟩
    · intro entry hentry hfound
      exact List.mem_append_left _ (h.kept entry hentry hfound)
    · have hcount := h.count
      simp only [List.length_append, List.length_singleton]
      omega

/-! ## Dropping the scopes that vanished -/

/-- Whether a tracked scope is among those that were found. -/
def present (found : List (Path × ScopeName)) (entry : Path × Task) : Bool :=
  found.any (·.1 = entry.1)

/-- A tracked path is present if it was found with some scope. -/
theorem present_eq_true_iff {entry : Path × Task} :
    present found entry = true ↔ ∃ scope, (entry.1, scope) ∈ found := by
  simp [present]

/-- Where all tracked scopes are still found, nothing is dropped. -/
theorem dropVanished_eq_self {scan : Scan}
    (h : ∀ entry ∈ scan.scanner.tracked, present found entry = true) :
    dropVanished scan found = scan := by
  obtain ⟨⟨root, labels, tracked⟩, collector, host, added, removed, notices⟩ := scan
  have hkept : tracked.filter (present found) = tracked := List.filter_eq_self.2 h
  have hvanished : tracked.filter (!present found ·) = [] := by
    refine List.filter_eq_nil_iff.2 fun entry hentry => ?_
    rw [h entry hentry]
    exact Bool.false_ne_true
  show Scan.mk ⟨root, labels, tracked.filter (present found)⟩
    ((tracked.filter (!present found ·)).foldl _ collector) host added
    (removed + (tracked.filter (!present found ·)).length) notices = _
  rw [hkept, hvanished]
  rfl

/-- Tasks with different keys are kept or dropped by their keys. Other tasks stay. -/
theorem filter_key_notMem_vanished (others : List Task) (tracked : List (Path × Task))
    (hkeys : ((others ++ tracked.map Prod.snd).map Task.key).Nodup) (keep : Path × Task → Bool) :
    (others ++ tracked.map Prod.snd).filter (fun task =>
        task.key ∉ (tracked.filter (!keep ·)).map fun entry => entry.2.key) =
      others ++ (tracked.filter keep).map Prod.snd := by
  rw [List.map_append, List.map_map] at hkeys
  obtain ⟨-, htracked, hdisjoint⟩ := List.nodup_append'.1 hkeys
  rw [List.filter_append, List.filter_map]
  congr 1
  · -- another task has none of the keys
    refine List.filter_eq_self.2 fun task hmem => decide_eq_true fun hkey => ?_
    obtain ⟨entry, hentry, heq⟩ := List.mem_map.1 hkey
    refine hdisjoint (List.mem_map_of_mem hmem) ?_
    rw [← heq]
    exact List.mem_map_of_mem (f := Task.key ∘ Prod.snd) (List.mem_of_mem_filter hentry)
  · -- a tracked one has the key of a vanished scope only if it is the task of that scope
    congr 1
    refine List.filter_congr fun entry hentry => ?_
    rw [Function.comp_apply, Bool.eq_iff_iff, decide_eq_true_iff]
    constructor
    · intro hnot
      by_contra hkeep
      refine hnot (List.mem_map.2 ⟨entry, List.mem_filter.2 ⟨hentry, ?_⟩, rfl⟩)
      rw [Bool.eq_false_of_not_eq_true hkeep]
      rfl
    · intro hkeep hkey
      obtain ⟨other, hother, heq⟩ := List.mem_map.1 hkey
      obtain ⟨hmem, hdrop⟩ := List.mem_filter.1 hother
      obtain rfl := List.inj_on_of_nodup_map htracked hmem hentry heq
      rw [hkeep] at hdrop
      simp at hdrop

/-- Dropping the vanished scopes leaves a scan in order. -/
theorem midway_dropVanished (hholds : collector.Holds naming host (others ++ scanner.tasks))
    (hnamed : ∀ entry ∈ scanner.tracked, entry.2.NamedBy entry.1) :
    Midway naming others scanner host found
      (dropVanished ⟨scanner, collector, host, 0, 0, []⟩ found) := by
  have hcollector : (dropVanished ⟨scanner, collector, host, 0, 0, []⟩ found).collector =
      { collector with registrations := collector.registrations.filter fun r =>
          r.task.key ∉ (scanner.tracked.filter (!present found ·)).map fun entry => entry.2.key } :=
    Collector.foldl_remove _ collector
  refine ⟨?_, ?_, ?_, ?_, ?_, rfl, rfl, rfl⟩
  · have hfilter := hholds.filter fun task =>
      task.key ∉ (scanner.tracked.filter (!present found ·)).map fun entry => entry.2.key
    rw [hcollector]
    refine hfilter.of_perm (List.Perm.of_eq ?_)
    exact filter_key_notMem_vanished others scanner.tracked hholds.nodup_keys_tasks _
  · intro entry hentry
    exact hnamed entry (List.mem_of_mem_filter hentry)
  · intro entry hentry
    exact present_eq_true_iff.1 (List.mem_filter.1 hentry).2
  · intro entry hentry hfound
    exact List.mem_filter.2 ⟨hentry, present_eq_true_iff.2 hfound⟩
  · have hsum := List.length_eq_length_filter_add (l := scanner.tracked) (present found)
    show (scanner.tracked.filter (present found)).length +
      (0 + (scanner.tracked.filter (!present found ·)).length) = scanner.tracked.length + 0
    omega

/-! ## The whole scan -/

/-- Tracking scopes one after the other keeps everything in order. -/
theorem Midway.foldl_track (h : Midway naming others scanner host found scan)
    (hscopes : ∀ entry ∈ found, entry.1.scope? = some entry.2)
    (entries : List (Path × ScopeName)) (hsub : entries ⊆ found) :
    Midway naming others scanner host found
      (entries.foldl (fun scan entry => Scanner.track scan entry.1 entry.2) scan) := by
  induction entries generalizing scan with
  | nil => exact h
  | cons entry rest ih =>
    have hmem := hsub List.mem_cons_self
    have hrest := List.Subset.trans (List.subset_cons_self entry rest) hsub
    exact ih (h.track (track_spec scan entry.1 entry.2) (hscopes entry hmem) hmem) hrest

/-- **A scan keeps the registry and the tracked scopes in step**, and leaves the tasks of others
alone. -/
theorem midway_update (hholds : collector.Holds naming host (others ++ scanner.tasks))
    (hnamed : ∀ entry ∈ scanner.tracked, entry.2.NamedBy entry.1)
    (hscopes : ∀ entry ∈ found, entry.1.scope? = some entry.2) :
    Midway naming others scanner host found (scanner.update collector host found) := by
  have hstart : Midway naming others scanner host found _ := midway_dropVanished hholds hnamed
  exact hstart.foldl_track hscopes _ (List.filter_subset_self found)

/-! ## What a scan registers -/

/-- Tracking a scope registers its container, if its directory can be listed and the labels are
accepted. -/
theorem Midway.contains_track_self (h : Midway naming others scanner host found scan) {path : Path}
    {scope : ScopeName} {next : Scan} (hstep : Track scan path scope next)
    (hlist : ∃ entries, host.files.list path = .ok entries)
    (hlabels : ∃ ds, Collector.describeTask naming scanner.labels = .ok ds) :
    next.collector.contains scope.id.text scope.runtime.ns = true := by
  cases hstep with
  | registered hc => exact hc
  | closed hc herror =>
    obtain ⟨entries, hentries⟩ := hlist
    rw [h.files, hentries] at herror
    simp at herror
  | @refused task cause hc hid hns herror =>
    rw [← h.labels] at hlabels
    have hmissing : scan.collector.contains task.id task.ns = false := by rw [hid, hns, hc]
    obtain ⟨c, hadd⟩ := (Collector.exists_add_eq_ok_iff h.holds.enabled _ _ hmissing).2 hlabels
    rw [hadd] at herror
    simp at herror
  | added hc hopen hadd =>
    rw [(h.holds.add hc hopen hadd).contains_iff]
    obtain ⟨rfl, -⟩ := Host.openTask_eq_ok hopen
    exact ⟨_, List.mem_append_right _ (List.mem_singleton_self _), rfl⟩

/-- Tracking scopes one after the other registers all their containers. -/
theorem Midway.contains_foldl_track (h : Midway naming others scanner host found scan)
    (hscopes : ∀ entry ∈ found, entry.1.scope? = some entry.2)
    (hlist : ∀ entry ∈ found, ∃ entries, host.files.list entry.1 = .ok entries)
    (hlabels : ∃ ds, Collector.describeTask naming scanner.labels = .ok ds)
    (entries : List (Path × ScopeName)) (hsub : entries ⊆ found) {id ns : String}
    (hid : scan.collector.contains id ns = true ∨
      ∃ entry ∈ entries, entry.2.id.text = id ∧ entry.2.runtime.ns = ns) :
    (entries.foldl (fun scan entry => Scanner.track scan entry.1 entry.2) scan).collector.contains
      id ns = true := by
  induction entries generalizing scan with
  | nil =>
    rcases hid with hc | ⟨entry, hentry, -⟩
    · exact hc
    · simp at hentry
  | cons entry rest ih =>
    have hmem := hsub List.mem_cons_self
    have hstep := track_spec scan entry.1 entry.2
    have hrest := List.Subset.trans (List.subset_cons_self entry rest) hsub
    refine ih (h.track hstep (hscopes entry hmem) hmem) hrest ?_
    rcases hid with hc | ⟨other, hother, hid⟩
    · exact .inl (hstep.contains hc)
    · rcases List.mem_cons.1 hother with rfl | hrest
      · obtain ⟨rfl, rfl⟩ := hid
        exact .inl (h.contains_track_self hstep (hlist other hmem) hlabels)
      · exact .inr ⟨other, hrest, hid⟩

/-- **A scan leaves out none of the scopes that it found**, if their directories can be listed and
the labels are accepted. -/
theorem contains_update (hholds : collector.Holds naming host (others ++ scanner.tasks))
    (hnamed : ∀ entry ∈ scanner.tracked, entry.2.NamedBy entry.1)
    (hscopes : ∀ entry ∈ found, entry.1.scope? = some entry.2)
    (hlist : ∀ entry ∈ found, ∃ entries, host.files.list entry.1 = .ok entries)
    (hlabels : ∃ ds, Collector.describeTask naming scanner.labels = .ok ds)
    {entry : Path × ScopeName} (hmem : entry ∈ found) :
    (scanner.update collector host found).collector.contains
      entry.2.id.text entry.2.runtime.ns = true := by
  by_cases htracks : scanner.tracks entry.1 = true
  · -- the scope was tracked before, and is still
    obtain ⟨⟨path, task⟩, htracked, hpath⟩ := List.any_eq_true.1 htracks
    obtain rfl : path = entry.1 := of_decide_eq_true hpath
    have hend := midway_update hholds hnamed hscopes
    have hkept := hend.kept _ htracked ⟨entry.2, hmem⟩
    obtain ⟨scope, hscope, hid, hns⟩ := hnamed _ htracked
    obtain rfl := Option.some.inj ((hscopes entry hmem).symm.trans hscope)
    refine hend.holds.contains_iff.2 ⟨task, List.mem_append_right _ ?_, ?_⟩
    · exact List.mem_map_of_mem (f := Prod.snd) hkept
    · rw [Task.key, hid, hns]
  · -- the scope is new
    have hstart : Midway naming others scanner host found _ := midway_dropVanished hholds hnamed
    refine hstart.contains_foldl_track hscopes hlist hlabels _ (List.filter_subset_self found)
      (.inr ⟨entry, List.mem_filter.2 ⟨hmem, ?_⟩, rfl, rfl⟩)
    rw [Bool.eq_false_of_not_eq_true htracks]
    rfl

end Scans

end Scanner

end ContainerUsage
