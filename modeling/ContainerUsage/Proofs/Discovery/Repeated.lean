import Mathlib
import ContainerUsage.Proofs.Discovery.Watch
import ContainerUsage.Proofs.FileSystem.Relisted

/-!
# Scanning again

A scan that comes right after a scan does nothing. This is so for every collector, whoever else uses
it, and for every scanner, and also if the directories are listed in another order the second time:
then the scopes are found in another order (`Node.Relisted.mem_scopes_iff`).

* `Settled` are the reasons for which a scan does nothing about a scope: it is tracked, its
  container is registered, its directory cannot be listed, or the collector refuses the labels.
* A scope that a scan has come to is settled (`Track.settled`), and stays so whatever the scan does
  after that (`Settled.extends`), so in the end all scopes that were found are (`Finished`,
  `finished_update`).
* `Track.eq_of_settled` and `update_of_finished`: where all scopes are settled there is nothing to
  do.
-/

namespace ContainerUsage

/-! ## Scopes in another order -/

namespace Node.Relisted

variable {node node' : Node}

/-- A tree has its scopes in whatever order it lists its entries. -/
theorem scopes_subset (h : Relisted node node') (path : Path) :
    node.scopes path ⊆ node'.scopes path := by
  induction h generalizing path with
  | file id => exact List.Subset.refl _
  | link target => exact List.Subset.refl _
  | @directory entries entries' nodup names nodes ih =>
    have hentries : Relisted (.directory entries) (.directory entries') :=
      .directory nodup names nodes
    rintro ⟨found, scope⟩ hmem
    rw [scopes_directory, List.mem_append] at hmem ⊢
    rcases hmem with hdirect | hbelow
    · obtain ⟨name, inner, hmem, hparse, hpath⟩ := mem_directScopes_iff.1 hdirect
      obtain ⟨node', hmem', hnode⟩ := hentries.exists_mem hmem
      cases hnode with
      | @directory _ inner' =>
        exact .inl (mem_directScopes_iff.2 ⟨name, inner', hmem', hparse, hpath⟩)
    · obtain ⟨name, node, hmem, hname, hfits, hscope⟩ := mem_scopesBelow_iff.1 hbelow
      obtain ⟨node', hmem', -⟩ := hentries.exists_mem hmem
      have hscope' := ih name node node' hmem hmem' (path.join name) hscope
      exact .inr (mem_scopesBelow_iff.2 ⟨name, node', hmem', hname, hfits, hscope'⟩)

/-- **Listing directories in another order changes the order only** in which scopes are found. -/
theorem mem_scopes_iff (h : Relisted node node') {path : Path} {entry : Path × ScopeName} :
    entry ∈ node.scopes path ↔ entry ∈ node'.scopes path :=
  ⟨fun hmem => h.scopes_subset path hmem, fun hmem => h.symm.scopes_subset path hmem⟩

end Node.Relisted

namespace Scanner

/-! ## What a scan leaves behind -/

/-- Why a scan does nothing about a scope that it has found. -/
inductive Settled (scanner : Scanner) (collector : Collector) (files : FileSystem) (path : Path)
    (scope : ScopeName) :
    Prop where
  /-- The scope is tracked. -/
  | tracked (h : scanner.tracks path = true)
  /-- The container is registered, by whomever. -/
  | registered (h : collector.contains scope.id.text scope.runtime.ns = true)
  /-- The directory cannot be listed. -/
  | closed (h : ∀ entries, files.list path ≠ .ok entries)
  /-- The collector refuses the labels. -/
  | refused {naming : Naming} (hn : collector.naming = some naming)
      (h : ∀ ds, Collector.describeTask naming scanner.labels ≠ .ok ds)

/-- A scan goes on to another by tracking scopes: nothing is dropped. -/
structure Extends (scan next : Scan) : Prop where
  root : next.scanner.root = scan.scanner.root
  labels : next.scanner.labels = scan.scanner.labels
  files : next.host.files = scan.host.files
  naming : next.collector.naming = scan.collector.naming
  contains : ∀ id ns, scan.collector.contains id ns = true → next.collector.contains id ns = true
  tracked : scan.scanner.tracked ⊆ next.scanner.tracked

variable {scanner : Scanner} {collector : Collector} {host : Host}
    {scan next after : Scan} {path : Path}
  {scope : ScopeName} {found : List (Path × ScopeName)}

/-- A path is tracked if a task belongs to it. -/
theorem tracks_eq_true_iff :
    scanner.tracks path = true ↔ ∃ task, (path, task) ∈ scanner.tracked := by
  simp [tracks]

/-- A scan extends itself. -/
theorem Extends.refl (scan : Scan) : Extends scan scan :=
  ⟨rfl, rfl, rfl, rfl, fun _ _ h => h, List.Subset.refl _⟩

/-- Extending is transitive. -/
theorem Extends.trans (h : Extends scan next) (h' : Extends next after) : Extends scan after :=
  ⟨h'.root.trans h.root, h'.labels.trans h.labels, h'.files.trans h.files, h'.naming.trans h.naming,
    fun id ns hc => h'.contains id ns (h.contains id ns hc), List.Subset.trans h.tracked h'.tracked⟩

/-- Tracking one more scope only extends a scan. -/
theorem Track.extends (h : Track scan path scope next) : Extends scan next := by
  have hcontains : ∀ id ns, scan.collector.contains id ns = true →
      next.collector.contains id ns = true :=
    fun id ns hc => h.contains hc
  cases h with
  | registered | closed | refused => exact ⟨rfl, rfl, rfl, rfl, hcontains, List.Subset.refl _⟩
  | added hc hopen hadd =>
    obtain ⟨-, source, rfl⟩ := Host.openTask_eq_ok hopen
    exact ⟨rfl, rfl, rfl, Collector.naming_of_add hadd, hcontains, List.subset_append_left _ _⟩

/-- What is settled stays settled. -/
theorem Settled.extends (h : Settled scan.scanner scan.collector scan.host.files path scope)
    (hnext : Extends scan next) :
    Settled next.scanner next.collector next.host.files path scope := by
  cases h with
  | tracked h =>
    obtain ⟨task, hmem⟩ := tracks_eq_true_iff.1 h
    exact .tracked (tracks_eq_true_iff.2 ⟨task, hnext.tracked hmem⟩)
  | registered h => exact .registered (hnext.contains _ _ h)
  | closed h => exact .closed (hnext.files ▸ h)
  | refused hn h => exact .refused (hnext.naming.trans hn) (hnext.labels ▸ h)

/-- **A scope that a scan has come to is settled.** -/
theorem Track.settled (h : Track scan path scope next) :
    Settled next.scanner next.collector next.host.files path scope := by
  cases h with
  | registered hc => exact .registered hc
  | closed hc hlist =>
    refine .closed fun entries hentries => ?_
    cases hlist.symm.trans hentries
  | @refused task cause hc hid hns hadd =>
    cases hn : scan.collector.naming with
    | none =>
      rw [Collector.add, hn] at hadd
      cases hadd
    | some naming =>
      refine .refused hn fun ds hds => ?_
      have hmissing : scan.collector.contains task.id task.ns = false := by rw [hid, hns, hc]
      obtain ⟨c, hok⟩ := (Collector.exists_add_eq_ok_iff hn task _ hmissing).2 ⟨ds, hds⟩
      cases hadd.symm.trans hok
  | added =>
    exact .tracked (tracks_eq_true_iff.2 ⟨_, List.mem_append_right _ (List.mem_singleton_self _)⟩)

/-- **There is nothing to do about a scope that is settled**, but to notice again why. -/
theorem Track.eq_of_settled (h : Track scan path scope next)
    (hsettled : Settled scan.scanner scan.collector scan.host.files path scope)
    (hnew : scan.scanner.tracks path = false) : ∃ notices, next = { scan with notices } := by
  cases h with
  | registered | closed | refused => exact ⟨_, rfl⟩
  | @added task host collector hc hopen hadd =>
    exfalso
    cases hsettled with
    | tracked h => cases h.symm.trans hnew
    | registered h => cases h.symm.trans hc
    | closed h =>
      cases hlist : scan.host.files.list path with
      | ok entries => exact h entries hlist
      | error cause => cases hopen.symm.trans (Host.openTask_eq_error_iff.2 hlist)
    | @refused naming hn h =>
      obtain ⟨rfl, -⟩ := Host.openTask_eq_ok hopen
      obtain ⟨ds, hds⟩ := (Collector.exists_add_eq_ok_iff hn _ _ hc).1 ⟨_, hadd⟩
      exact h ds hds

/-! ## Scopes one after the other -/

/-- Tracking scopes one after the other only extends a scan. -/
theorem foldl_track_extends (scan : Scan) (entries : List (Path × ScopeName)) :
    Extends scan (entries.foldl (fun scan entry => track scan entry.1 entry.2) scan) := by
  induction entries generalizing scan with
  | nil => exact .refl scan
  | cons entry rest ih => exact (track_spec scan entry.1 entry.2).extends.trans (ih _)

/-- In the end all scopes are settled. -/
theorem foldl_track_settled (scan : Scan) (entries : List (Path × ScopeName)) {final : Scan}
    (hfinal : entries.foldl (fun scan entry => track scan entry.1 entry.2) scan = final) :
    ∀ entry ∈ entries, Settled final.scanner final.collector final.host.files entry.1 entry.2 := by
  induction entries generalizing scan with
  | nil => exact List.forall_mem_nil _
  | cons entry rest ih =>
    refine List.forall_mem_cons.2 ⟨?_, ih _ hfinal⟩
    have hrest : Extends (track scan entry.1 entry.2) final := hfinal ▸ foldl_track_extends _ rest
    exact (track_spec scan entry.1 entry.2).settled.extends hrest

/-- Where all scopes are settled, nothing is done. -/
theorem foldl_track_of_settled (scan : Scan) (entries : List (Path × ScopeName))
    (h : ∀ entry ∈ entries, Settled scan.scanner scan.collector scan.host.files entry.1 entry.2 ∧
      scan.scanner.tracks entry.1 = false) :
    ∃ notices, entries.foldl (fun scan entry => track scan entry.1 entry.2) scan =
      { scan with notices } := by
  induction entries generalizing scan with
  | nil => exact ⟨scan.notices, rfl⟩
  | cons entry rest ih =>
    obtain ⟨⟨hsettled, hnew⟩, hrest⟩ := List.forall_mem_cons.1 h
    obtain ⟨notices, heq⟩ := (track_spec scan entry.1 entry.2).eq_of_settled hsettled hnew
    rw [List.foldl_cons, heq]
    exact ih { scan with notices } hrest

/-- Scopes are tracked only if they were found. -/
theorem Track.present (h : Track scan path scope next) (hmem : (path, scope) ∈ found)
    (hpresent : ∀ entry ∈ scan.scanner.tracked, present found entry = true) :
    ∀ entry ∈ next.scanner.tracked, Scanner.present found entry = true := by
  cases h with
  | registered | closed | refused => exact hpresent
  | added =>
    intro entry hentry
    rcases List.mem_append.1 hentry with hold | hlast
    · exact hpresent entry hold
    · obtain rfl := List.mem_singleton.1 hlast
      exact present_eq_true_iff.2 ⟨scope, hmem⟩

/-- The paths that are tracked after a scan are among those that were found. -/
theorem present_of_mem_foldl_track (scan : Scan) {entries : List (Path × ScopeName)}
    (hsub : entries ⊆ found)
    (hpresent : ∀ entry ∈ scan.scanner.tracked, present found entry = true) :
    ∀ entry ∈ (entries.foldl (fun scan entry => track scan entry.1 entry.2) scan).scanner.tracked,
      present found entry = true := by
  induction entries generalizing scan with
  | nil => exact hpresent
  | cons entry rest ih =>
    obtain ⟨hmem, hrest⟩ := List.cons_subset.1 hsub
    exact ih _ hrest ((track_spec scan entry.1 entry.2).present hmem hpresent)

/-! ## A whole scan -/

/-- A scan has nothing to do: only scopes that are found are tracked, and all of these are
settled. -/
structure Finished (scanner : Scanner) (collector : Collector) (files : FileSystem)
    (found : List (Path × ScopeName)) :
    Prop where
  present : ∀ entry ∈ scanner.tracked, present found entry = true
  settled : ∀ entry ∈ found, Settled scanner collector files entry.1 entry.2

/-- **A scan leaves nothing to do.** -/
theorem finished_update (scanner : Scanner) (collector : Collector) (host : Host)
    (found : List (Path × ScopeName))
    {result : Scan} (hresult : scanner.update collector host found = result) :
    Finished result.scanner result.collector result.host.files found ∧
      result.scanner.root = scanner.root ∧ result.host.files = host.files := by
  let start := dropVanished ⟨scanner, collector, host, 0, 0, []⟩ found
  have hextends : Extends start result := hresult ▸ foldl_track_extends start _
  refine ⟨⟨?_, fun entry hentry => ?_⟩, hextends.root, hextends.files⟩
  · subst hresult
    refine present_of_mem_foldl_track start (List.filter_subset_self found) fun entry hentry => ?_
    exact (List.mem_filter.1 hentry).2
  · by_cases htracks : scanner.tracks entry.1 = true
    · -- the scope was tracked before, and is still
      obtain ⟨task, hmem⟩ := tracks_eq_true_iff.1 htracks
      have hkept : (entry.1, task) ∈ start.scanner.tracked :=
        List.mem_filter.2 ⟨hmem, present_eq_true_iff.2 ⟨entry.2, hentry⟩⟩
      exact .tracked (tracks_eq_true_iff.2 ⟨task, hextends.tracked hkept⟩)
    · refine foldl_track_settled start _ hresult entry (List.mem_filter.2 ⟨hentry, ?_⟩)
      rw [Bool.eq_false_of_not_eq_true htracks]
      rfl

/-- **Where nothing is left to do, a scan does nothing.** -/
theorem update_of_finished (host : Host) (h : Finished scanner collector host.files found) :
    ∃ notices, scanner.update collector host found = ⟨scanner, collector, host, 0, 0, notices⟩ := by
  rw [update, dropVanished_eq_self h.present]
  refine foldl_track_of_settled _ _ fun entry hentry => ?_
  obtain ⟨hmem, hnew⟩ := List.mem_filter.1 hentry
  exact ⟨h.settled entry hmem, by simpa using hnew⟩

/-- It makes no difference in which order directories are listed. -/
theorem Finished.relisted {files files' : FileSystem} {found' : List (Path × ScopeName)}
    (h : Finished scanner collector files found) (hfiles : files.Relisted files')
    (hfound : ∀ entry, entry ∈ found ↔ entry ∈ found') :
    Finished scanner collector files' found' := by
  refine ⟨fun entry hentry => ?_, fun entry hentry => ?_⟩
  · obtain ⟨scope, hmem⟩ := present_eq_true_iff.1 (h.present entry hentry)
    exact present_eq_true_iff.2 ⟨scope, (hfound _).1 hmem⟩
  · cases h.settled entry ((hfound entry).2 hentry) with
    | tracked h => exact .tracked h
    | registered h => exact .registered h
    | closed h =>
      refine .closed fun entries hlist => ?_
      obtain ⟨entries', hlist', -⟩ := FileSystem.exists_list_of_relisted hfiles.symm hlist
      exact h entries' hlist'
    | refused hn h => exact .refused hn h

/-- **Scanning again does nothing.** Whatever the collector and the scanner were when a scan
succeeded, and in whatever order directories are listed the second time: the second scan succeeds,
it adds and removes nothing, and it leaves the registry, the tracked scopes and the open files as
they are. -/
theorem scan_again {result : Scan} (h : scanner.scan collector host = .ok result)
    {files : FileSystem} (hfiles : host.files.Relisted files) :
    ∃ notices, result.scanner.scan result.collector { result.host with files } =
      .ok ⟨result.scanner, result.collector, { result.host with files }, 0, 0, notices⟩ := by
  obtain ⟨entries, hlist, hresult⟩ := scan_eq_ok_iff.1 h
  obtain ⟨entries', hlist', hentries⟩ := FileSystem.exists_list_of_relisted hfiles hlist
  obtain ⟨hfinished, hroot, hsame⟩ := finished_update scanner collector host _ hresult.symm
  have hagain : Finished result.scanner result.collector files
      (scopes (Path.ofText scanner.root) entries') :=
    hfinished.relisted (hsame ▸ hfiles) fun entry => hentries.mem_scopes_iff
  obtain ⟨notices, hupdate⟩ := update_of_finished { result.host with files } hagain
  refine ⟨notices, scan_eq_ok_iff.2 ⟨entries', ?_, ?_⟩⟩
  · rw [hroot]
    exact hlist'
  · rw [hroot, hupdate]

/-- Another scope, of a container that something else has registered. -/
def foreignScope : Name :=
  Utf8.encode "docker-ffffffffffffffffffffffffffffffffffffffffffffffffffffffffffffffff.scope"

/-- Two directories carry one container, and the container of a third is registered already. The
second time both directories list their entries backwards. -/
theorem scan_again_backwards :
    ∃ start, Collector.ofNaming (some ⟨"container", none, .empty⟩) = .ok start ∧
      let foreign : Task :=
        ⟨"ffffffffffffffffffffffffffffffffffffffffffffffffffffffffffffffff", "moby", ⟨7⟩⟩
      let slice : Name := Utf8.encode "machine.slice"
      let files : FileSystem := { entries :=
        [(slice, .directory [(Watch.oneScope, .directory []), (foreignScope, .directory [])]),
          (Watch.oneScope, .directory [])] }
      let files' : FileSystem := { entries :=
        [(Watch.oneScope, .directory []),
          (slice, .directory [(foreignScope, .directory []), (Watch.oneScope, .directory [])])] }
      ∃ result notices,
        (ofRoot "/" (.ofList [("zone", "eu")])).scan (start.after (.add foreign .empty))
          ⟨files, []⟩ = .ok result ∧
        result.scanner.scan result.collector { result.host with files := files' } =
          .ok ⟨result.scanner, result.collector, { result.host with files := files' }, 0, 0,
            notices⟩ := by
  obtain ⟨start, h⟩ := Collector.exists_ofNaming_container
  refine ⟨start, h, ?_⟩
  intro foreign slice files files'
  have hlist : files.list (Path.ofText "/") = .ok files.entries := by
    cbv
  have hnames : slice ≠ Watch.oneScope ∧ Watch.oneScope ≠ foreignScope := by decide +kernel
  have hempty : (Node.directory []).Relisted (.directory []) := .directory .nil .nil (by simp)
  have hslice :
      (Node.directory [(Watch.oneScope, .directory []), (foreignScope, .directory [])]).Relisted
      (.directory [(foreignScope, .directory []), (Watch.oneScope, .directory [])]) := by
    refine .directory (by simp [hnames]) (.swap _ _ _) fun name node node' hmem hmem' => ?_
    simp only [List.mem_cons, List.not_mem_nil, or_false, Prod.mk.injEq] at hmem hmem'
    rcases hmem with ⟨rfl, rfl⟩ | ⟨rfl, rfl⟩ <;> rcases hmem' with ⟨-, rfl⟩ | ⟨-, rfl⟩
      <;> exact hempty
  have hfiles : files.Relisted files' := by
    refine .directory (by simp [files, hnames]) (.swap _ _ _) fun name node node' hmem hmem' => ?_
    simp only [files, files', List.mem_cons, List.not_mem_nil, or_false, Prod.mk.injEq]
      at hmem hmem'
    rcases hmem with ⟨rfl, rfl⟩ | ⟨rfl, rfl⟩ <;> rcases hmem' with ⟨hname, rfl⟩ | ⟨hname, rfl⟩
    · exact absurd hname hnames.1
    · exact hslice
    · exact hempty
    · exact absurd hname.symm hnames.1
  obtain ⟨result, hok⟩ : ∃ result, (ofRoot "/" (.ofList [("zone", "eu")])).scan
      (start.after (.add foreign .empty)) ⟨files, []⟩ = .ok result :=
    ⟨_, scan_eq_ok_iff.2 ⟨_, hlist, rfl⟩⟩
  obtain ⟨notices, hagain⟩ := scan_again hok hfiles
  exact ⟨result, notices, hok, hagain⟩

end Scanner

end ContainerUsage
