import Mathlib
import ContainerUsage.Proofs.Discovery.Watch
import ContainerUsage.Proofs.Task.Key

/-!
# A scan registers what is there

A scanner that has the collector for itself, and labels that the collector accepts, registers
exactly the containers with a discoverable scope. It does not matter what earlier scans have left
behind, in which order directories list their entries, or how many scopes a container has.

* `Scan.Exact` is the statement about the result of one scan.
* `Scanner.exact_update` proves it from the invariant of the scanner.
* `Watch.scan_exact` is the same for a scanner after any course of events.
-/

namespace ContainerUsage

/-- After a scan the registered containers are those with a discoverable scope, and each is tracked
at one such scope. -/
structure Scan.Exact (root : Path) (entries : Entries) (result : Scan) : Prop where
  /-- A container is registered if a scope of it can be discovered, and only then. -/
  registered : ∀ id ns, (∃ r ∈ result.collector.registrations, r.task.id = id ∧ r.task.ns = ns) ↔
    ∃ path scope, Discoverable root entries path scope ∧ scope.id.text = id ∧
      scope.runtime.ns = ns
  /-- A registered container is tracked once. -/
  tracked : ∀ r ∈ result.collector.registrations, ∃! entry, entry ∈ result.scanner.tracked ∧
    entry.2.id = r.task.id ∧ entry.2.ns = r.task.ns
  /-- What is tracked is the task of a registration. -/
  owned : ∀ entry ∈ result.scanner.tracked, ∃ r ∈ result.collector.registrations, r.task = entry.2
  /-- The path of a tracked container is that of a discoverable scope of it. -/
  discoverable : ∀ entry ∈ result.scanner.tracked, ∃ scope,
    Discoverable root entries entry.1 scope ∧ scope.id.text = entry.2.id ∧
      scope.runtime.ns = entry.2.ns
  nodup_paths : (result.scanner.tracked.map Prod.fst).Nodup

namespace Scanner

variable {naming : Naming} {scanner : Scanner} {collector : Collector} {host : Host} {root : Path}
  {entries : Entries}

/-- The key of a task that is named by a path tells its container. -/
theorem eq_of_key_eq {task : Task} {path : Path} (hnamed : task.NamedBy path) {scope : ScopeName}
    (hkey : task.key = taskKey scope.id.text scope.runtime.ns) :
    task.id = scope.id.text ∧ task.ns = scope.runtime.ns := by
  obtain ⟨other, -, hid, hns⟩ := hnamed
  rw [Task.key, hns] at hkey
  rw [hns]
  exact (taskKey_inj other.runtime.hyphen_notMem_ns scope.runtime.hyphen_notMem_ns).1 hkey

/-- What a scan tracks has a discoverable scope at its path. -/
theorem Midway.exists_discoverable {others : List Task} {scan : Scan}
    (h : Midway naming others scanner host (scopes root entries) scan) {entry : Path × Task}
    (hentry : entry ∈ scan.scanner.tracked) :
    ∃ scope, Discoverable root entries entry.1 scope ∧ scope.id.text = entry.2.id ∧
      scope.runtime.ns = entry.2.ns := by
  obtain ⟨scope, hmem⟩ := h.among entry hentry
  obtain ⟨named, hnamed, hid, hns⟩ := h.named entry hentry
  have hdiscoverable := discoverable_of_mem_scopes hmem
  obtain rfl := Option.some.inj (hdiscoverable.scope?_path.symm.trans hnamed)
  exact ⟨scope, hdiscoverable, hid.symm, hns.symm⟩

section Alone

variable {found : List (Path × ScopeName)} {scan : Scan} {r : Registration}

/-- The task of a registration is tracked, if there are no other tasks. -/
theorem Midway.exists_entry (h : Midway naming [] scanner host found scan)
    (hr : r ∈ scan.collector.registrations) : ∃ entry ∈ scan.scanner.tracked, entry.2 = r.task :=
  List.mem_map.1 (h.holds.exists_registration_iff.1 ⟨r, hr, rfl⟩)

/-- What is tracked is registered. -/
theorem Midway.exists_registration (h : Midway naming [] scanner host found scan)
    {entry : Path × Task} (hentry : entry ∈ scan.scanner.tracked) :
    ∃ r ∈ scan.collector.registrations, r.task = entry.2 :=
  h.holds.exists_registration_iff.2 (List.mem_map_of_mem hentry)

/-- A container whose key is registered is registered itself. -/
theorem Midway.exists_registration_of_contains (h : Midway naming [] scanner host found scan)
    {scope : ScopeName}
    (hc : scan.collector.contains scope.id.text scope.runtime.ns = true) :
    ∃ r ∈ scan.collector.registrations,
      r.task.id = scope.id.text ∧ r.task.ns = scope.runtime.ns := by
  obtain ⟨task, htask, hkey⟩ := h.holds.contains_iff.1 hc
  obtain ⟨entry, hentry, rfl⟩ := List.mem_map.1 htask
  obtain ⟨r, hr, heq⟩ := h.exists_registration hentry
  refine ⟨r, hr, ?_⟩
  rw [heq]
  exact eq_of_key_eq (h.named entry hentry) hkey

/-- A registered container is tracked once. -/
theorem Midway.existsUnique_entry (h : Midway naming [] scanner host found scan)
    (hr : r ∈ scan.collector.registrations) :
    ∃! entry, entry ∈ scan.scanner.tracked ∧ entry.2.id = r.task.id ∧ entry.2.ns = r.task.ns := by
  obtain ⟨entry, hentry, heq⟩ := h.exists_entry hr
  refine ⟨entry, ⟨hentry, by rw [heq], by rw [heq]⟩, ?_⟩
  rintro other ⟨hother, hid, hns⟩
  have hkeys : ((scan.scanner.tracked.map Prod.snd).map Task.key).Nodup := h.holds.nodup_keys_tasks
  rw [List.map_map] at hkeys
  refine List.inj_on_of_nodup_map hkeys hother hentry ?_
  show other.2.key = entry.2.key
  rw [Task.key, Task.key, hid, hns, heq]

end Alone

/-- **A scan registers what is there**, if the scanner has the collector for itself, its labels are
accepted and no directory is closed. -/
theorem exact_update (hholds : collector.Holds naming host scanner.tasks)
    (hnamed : ∀ entry ∈ scanner.tracked, entry.2.NamedBy entry.1)
    (hlabels : ∃ ds, Collector.describeTask naming scanner.labels = .ok ds)
    (hlist : Listable host.files root entries) :
    Scan.Exact root entries (scanner.update collector host (scopes root entries)) := by
  have hstart : collector.Holds naming host ([] ++ scanner.tasks) := hholds
  have hscopes := scope?_of_mem_scopes root entries
  have hend := midway_update hstart hnamed hscopes
  refine ⟨fun id ns => ⟨?_, ?_⟩, fun r hr => hend.existsUnique_entry hr,
    fun entry hentry => hend.exists_registration hentry,
    fun entry hentry => hend.exists_discoverable hentry,
    Watch.nodup_paths_of_named hend.holds.nodup_keys_tasks hend.named⟩
  · -- a registered task is tracked, and what is tracked was found
    rintro ⟨r, hr, rfl, rfl⟩
    obtain ⟨entry, hentry, heq⟩ := hend.exists_entry hr
    obtain ⟨scope, hdiscoverable, hid, hns⟩ := hend.exists_discoverable hentry
    rw [heq] at hid hns
    exact ⟨entry.1, scope, hdiscoverable, hid, hns⟩
  · -- a discoverable scope is found, and no container that is found is left out
    rintro ⟨path, scope, hdiscoverable, rfl, rfl⟩
    have hfound : (path, scope) ∈ scopes root entries := hlist.mem_scopes_iff.2 hdiscoverable
    have hopen : ∀ entry ∈ scopes root entries, ∃ inner, host.files.list entry.1 = .ok inner :=
      fun entry hmem => hlist.scopes entry.1 entry.2 (discoverable_of_mem_scopes hmem)
    have hc := contains_update hstart hnamed hscopes hopen hlabels hfound
    exact hend.exists_registration_of_contains hc

end Scanner

namespace Watch

variable {naming : Naming}

/-- **A scan registers what is there**, after any scans and any changes of the files. -/
theorem scan_exact {start : Collector} (h : Collector.ofNaming (some naming) = .ok start)
    {labels : LabelSet} {task : Task} {c : Collector} (haccepted : start.add task labels = .ok c)
    (root : String) (host : Host) (events : List Event) :
    let w := (ofRoots [(root, labels)] start host).run events
    ∃ scanner, w.scanners = [scanner] ∧
      ∀ result, scanner.scan w.collector w.host = .ok result → ∃ entries,
        w.host.files.list (Path.ofText root) = .ok entries ∧
          (Listable w.host.files (Path.ofText root) entries →
            Scan.Exact (Path.ofText root) entries result) := by
  intro w
  have hw : w.Valid naming [(root, labels)] := run_valid h _ host events
  obtain ⟨scanner, hscanners, heq⟩ := List.map_eq_singleton_iff.1 hw.roots
  obtain ⟨rfl, rfl⟩ := Prod.mk.inj heq
  refine ⟨scanner, hscanners, ?_⟩
  intro result hscan
  obtain ⟨entries, hentries, rfl⟩ := Scanner.scan_eq_ok_iff.1 hscan
  refine ⟨entries, hentries, ?_⟩
  intro hlist
  refine Scanner.exact_update (?_ : w.collector.Holds naming w.host scanner.tasks) ?_ ?_ hlist
  · have htasks : w.tasks = scanner.tasks := by rw [tasks, hscanners, List.flatMap_singleton]
    rw [← htasks]
    exact hw.holds
  · exact hw.named scanner (by rw [hscanners]; exact List.mem_singleton_self _)
  · have hnaming := (Collector.ofNaming_eq_ok h).1
    have hmissing := Collector.contains_of_ofNaming h task.id task.ns
    exact (Collector.exists_add_eq_ok_iff hnaming _ _ hmissing).1 ⟨c, haccepted⟩

/-- In the tree with one container the root and the slice are visited. -/
theorem visited_oneContainer {dir : Path} {inner : Entries}
    (h : Visited (Path.ofText "/") oneContainer.entries dir inner) :
    (dir = Path.ofText "/" ∧ inner = oneContainer.entries) ∨
      (dir = (Path.ofText "/").join (Utf8.encode "machine.slice") ∧
        inner = [(oneScope, .directory [])]) := by
  induction h with
  | root => exact .inl ⟨rfl, rfl⟩
  | inside hdir hmem hname ih =>
    rcases ih with ⟨rfl, rfl⟩ | ⟨rfl, rfl⟩
    · obtain ⟨rfl, hnode⟩ := Prod.mk.inj (List.mem_singleton.1 hmem)
      exact .inr ⟨rfl, Node.directory.inj hnode⟩
    · obtain ⟨rfl, -⟩ := Prod.mk.inj (List.mem_singleton.1 hmem)
      have hscope : (ScopeName.parse? oneScope).isSome = true := by decide +kernel
      rw [hname] at hscope
      simp at hscope

/-- In the tree with one container all directories can be listed. -/
theorem listable_oneContainer :
    Listable oneContainer (Path.ofText "/") oneContainer.entries := by
  constructor
  · intro dir inner hvisited
    rcases visited_oneContainer hvisited with ⟨rfl, -⟩ | ⟨rfl, -⟩
    · exact ⟨oneContainer.entries, by cbv⟩
    · exact ⟨[(oneScope, .directory [])], by cbv⟩
  · rintro path scope ⟨dir, inner, name, found, hvisited, hmem, hparse, rfl⟩
    rcases visited_oneContainer hvisited with ⟨rfl, rfl⟩ | ⟨rfl, rfl⟩
    · obtain ⟨rfl, -⟩ := Prod.mk.inj (List.mem_singleton.1 hmem)
      have hslice : (ScopeName.parse? (Utf8.encode "machine.slice")).isSome = false := by
        decide +kernel
      rw [hparse] at hslice
      simp at hslice
    · obtain ⟨rfl, -⟩ := Prod.mk.inj (List.mem_singleton.1 hmem)
      exact ⟨[], by cbv⟩

/-- A container appears after a first scan, and the second scan registers it. -/
theorem scan_exact_appeared :
    ∃ start, Collector.ofNaming (some ⟨"container", none, .empty⟩) = .ok start ∧
      let w := (ofRoots [("/", .empty)] start {}).run [.scan 0, .change oneContainer]
      ∃ scanner result, w.scanners = [scanner] ∧ scanner.scan w.collector w.host = .ok result ∧
        Scan.Exact (Path.ofText "/") oneContainer.entries result := by
  obtain ⟨start, h⟩ := Collector.exists_ofNaming_container
  refine ⟨start, h, ?_⟩
  intro w
  obtain ⟨c, haccepted⟩ := (Collector.exists_add_eq_ok_iff (Collector.ofNaming_eq_ok h).1
    ⟨"a", "moby", ⟨0⟩⟩ .empty (Collector.contains_of_ofNaming h _ _)).2 ⟨none, rfl⟩
  obtain ⟨scanner, hscanners, hscan⟩ :=
    scan_exact h haccepted "/" {} [.scan 0, .change oneContainer]
  have hroots := (run_valid h [("/", .empty)] {} [.scan 0, .change oneContainer]).roots
  have hlist : w.host.files.list (Path.ofText "/") = .ok oneContainer.entries := by
    show oneContainer.list (Path.ofText "/") = .ok oneContainer.entries
    cbv
  have hroot : scanner.root = "/" := by
    rw [hscanners] at hroots
    exact (Prod.mk.inj (List.singleton_injective hroots)).1
  obtain ⟨result, hok⟩ : ∃ result, scanner.scan w.collector w.host = .ok result :=
    ⟨_, Scanner.scan_eq_ok_iff.2 ⟨_, by rw [hroot]; exact hlist, rfl⟩⟩
  obtain ⟨entries, hentries, hexact⟩ := hscan result hok
  obtain rfl := Except.ok.inj (hlist.symm.trans hentries)
  exact ⟨scanner, result, hscanners, hok, hexact listable_oneContainer⟩

end Watch

end ContainerUsage
