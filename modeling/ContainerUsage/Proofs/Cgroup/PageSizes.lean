import Mathlib
import ContainerUsage.Proofs.Cgroup.HugePages
import ContainerUsage.Proofs.FileSystem.Relisted

/-!
# The page sizes of a cgroup

The hugetlb files of a reader are found by listing the directory of the cgroup. Whatever stands in a
name between `hugetlb.` and `.current` counts as a page size, and there are names in which that is
no page size: the use of reserved pages of two megabytes is in `hugetlb.2MB.rsvd.current`.

* `HugePageFiles.Opened` are the files that go with a listed name, and
  `StatReader.mem_hugePagesOf_iff_opened` says that a reader has these.
* `StatReader.ofCgroup_of_relisted`: a directory that is listed in another order has the same
  reader.
* `StatReader.hugePages_exact` puts this together. The page sizes of a reader have no dot in them
  exactly if no file with a dot there can be opened, and `StatReader.reserved_listed` is a cgroup
  with such a file.
-/

namespace ContainerUsage.Cgroup

/-- The files of one page size as they are opened: the name of the file with the current use is
listed, this file can be opened, and the file with the limit of the same page size is open if it can
be. -/
structure HugePageFiles.Opened (fs : FileSystem) (path : Path) (names : List Name)
    (files : HugePageFiles) : Prop where
  listed : hugePagesCurrentName files.pageSize ∈ names
  current : fs.openFile (path.join (hugePagesCurrentName files.pageSize)) = .ok files.current
  max : files.max = (fs.openFile (path.join (hugePagesMaxName files.pageSize))).toOption

namespace StatReader

variable {fs fs' : FileSystem} {path : Path} {entries entries' : Entries} {files : HugePageFiles}
    {reader : StatReader}

/-! ## One page size -/

/-- A page size is left out if the file of its current use cannot be opened, and has no limit if
that of the limit cannot. -/
theorem openHugePages?_eq (fs : FileSystem) (pageSize : String) (current max : Path) :
    openHugePages? fs pageSize current max =
      (fs.openFile current).toOption.map fun handle =>
        ⟨pageSize, handle, (fs.openFile max).toOption⟩ := by
  unfold openHugePages?
  cases fs.openFile current <;> rfl

/-- The handles of a page size are those that opening its two files gives. -/
theorem openHugePages?_eq_some_iff {pageSize : String} {current max : Path} :
    openHugePages? fs pageSize current max = some files ↔
      files.pageSize = pageSize ∧ fs.openFile current = .ok files.current ∧
        files.max = (fs.openFile max).toOption := by
  obtain ⟨size, handle, limit⟩ := files
  rw [openHugePages?_eq]
  cases fs.openFile current <;> simp [Except.toOption, eq_comm]

/-- **A reader has the hugetlb files that go with a listed name.** -/
theorem mem_hugePagesOf_iff_opened :
    files ∈ hugePagesOf fs path entries ↔ files.Opened fs path (entries.map Prod.fst) := by
  rw [mem_hugePagesOf_iff, openHugePages?_eq_some_iff]
  constructor
  · rintro ⟨hlisted, -, hcurrent, hmax⟩
    exact ⟨hlisted, hcurrent, hmax⟩
  · intro h
    exact ⟨h.listed, rfl, h.current, h.max⟩

/-! ## The order of listing -/

/-- What is opened does not depend on the order of listing. -/
theorem openHugePages?_of_relisted (h : fs.Relisted fs') (pageSize : String) (current max : Path) :
    openHugePages? fs pageSize current max = openHugePages? fs' pageSize current max := by
  rw [openHugePages?_eq, openHugePages?_eq, FileSystem.toOption_openFile_of_relisted h current,
    FileSystem.toOption_openFile_of_relisted h max]

/-- **A directory that is listed in another order has the same reader.** -/
theorem ofCgroup_of_relisted (h : fs.Relisted fs') (hopen : ofCgroup fs path = .ok reader) :
    ofCgroup fs' path = .ok reader := by
  unfold ofCgroup at hopen ⊢
  cases hlist : fs.list path with
  | error e =>
    rw [hlist] at hopen
    cases hopen
  | ok entries =>
    rw [hlist] at hopen
    obtain rfl := Except.ok.inj hopen
    obtain ⟨entries', hlist', hentries⟩ := FileSystem.exists_list_of_relisted h hlist
    have hfiles : ∀ file : ControllerFile, (fs'.openFile (path.join file.name)).toOption =
        (fs.openFile (path.join file.name)).toOption := fun file =>
      (FileSystem.toOption_openFile_of_relisted h _).symm
    have hpages : hugePagesOf fs' path entries' = hugePagesOf fs path entries := by
      cases hentries with
      | directory nodup names _ =>
        refine eq_of_mem_iff_of_rising (pairwise_hugePagesOf (names.nodup_iff.1 nodup))
          (pairwise_hugePagesOf nodup)
          fun files => ?_
        rw [mem_hugePagesOf_iff, mem_hugePagesOf_iff, openHugePages?_of_relisted h, names.mem_iff]
    simp only [hlist', hfiles, hpages]

/-! ## All page sizes -/

/-- **The hugetlb files of a reader are those of the names that are listed**, whatever the order of
listing. There is a reader for every cgroup that can be listed. It has an entry for each file
`hugetlb.<size>.current` that can be opened, with the limit file of the same size, and no other one;
the sizes rise, so that each comes once. What stands in for the size may be any text. So the sizes
of the entries have no dot in them, as page sizes have none, exactly if none of these files has one
there. -/
theorem hugePages_exact (hlist : fs.list path = .ok entries)
    (hnames : (entries.map Prod.fst).Nodup) :
    ∃ reader, ofCgroup fs path = .ok reader ∧
      (∀ files, files ∈ reader.hugetlb ↔ files.Opened fs path (entries.map Prod.fst)) ∧
      (reader.hugetlb.Pairwise fun a b => a.pageSize < b.pageSize) ∧
      (∀ fs', fs.Relisted fs' → ofCgroup fs' path = .ok reader) ∧
      ((∀ files ∈ reader.hugetlb, '.' ∉ files.pageSize.toList) ↔
        ∀ pageSize handle, hugePagesCurrentName pageSize ∈ entries.map Prod.fst →
          fs.openFile (path.join (hugePagesCurrentName pageSize)) = .ok handle →
          '.' ∉ pageSize.toList) := by
  have hopen : ofCgroup fs path = .ok ⟨fun file => (fs.openFile (path.join file.name)).toOption,
      hugePagesOf fs path entries⟩ := by
    rw [ofCgroup, hlist]
  refine ⟨_, hopen, fun files => mem_hugePagesOf_iff_opened, pairwise_hugePagesOf hnames,
    fun fs' hrelisted => ofCgroup_of_relisted hrelisted hopen, ?_⟩
  constructor
  · intro hall pageSize handle hlisted hcurrent
    exact hall ⟨pageSize, handle, (fs.openFile (path.join (hugePagesMaxName pageSize))).toOption⟩
      (mem_hugePagesOf_iff_opened.2 ⟨hlisted, hcurrent, rfl⟩)
  · intro hall files hmem
    have hopened := mem_hugePagesOf_iff_opened.1 hmem
    exact hall files.pageSize files.current hopened.listed hopened.current

/-- The hugetlb files of one page size, with those for reserved pages. -/
def reservedFiles : List String :=
  ["hugetlb.2MB.rsvd.current", "hugetlb.2MB.max", "hugetlb.2MB.current"]

/-- A directory with these files. -/
def reservedEntries : Entries :=
  reservedFiles.mapIdx fun index name => (Utf8.encode name, .file ⟨index⟩)

/-- **The use of reserved pages is taken for the use of another page size**, which has no limit. -/
theorem reserved_listed :
    ∃ reader, ofCgroup ⟨reservedEntries, []⟩ (Path.ofText "/") = .ok reader ∧
      (⟨"2MB.rsvd", ⟨some ⟨0⟩, 0⟩, none⟩ : HugePageFiles) ∈ reader.hugetlb := by
  have hlist : (⟨reservedEntries, []⟩ : FileSystem).list (Path.ofText "/") =
      .ok reservedEntries := by cbv
  have hopened : HugePageFiles.Opened ⟨reservedEntries, []⟩ (Path.ofText "/")
    (reservedEntries.map Prod.fst)
      ⟨"2MB.rsvd", ⟨some ⟨0⟩, 0⟩, none⟩ :=
    ⟨by decide, by cbv, by cbv⟩
  exact ⟨_, by rw [ofCgroup, hlist], mem_hugePagesOf_iff_opened.2 hopened⟩

/-- The files of the directory come in any order. -/
theorem hugePages_exact_reserved :
    ∃ reader, ofCgroup ⟨reservedEntries, []⟩ (Path.ofText "/") = .ok reader ∧
      ofCgroup ⟨reservedEntries.reverse, []⟩ (Path.ofText "/") = .ok reader ∧
      (⟨"2MB", ⟨some ⟨2⟩, 0⟩, some ⟨some ⟨1⟩, 0⟩⟩ : HugePageFiles) ∈ reader.hugetlb ∧
      ¬∀ files ∈ reader.hugetlb, '.' ∉ files.pageSize.toList := by
  have hlist : (⟨reservedEntries, []⟩ : FileSystem).list (Path.ofText "/") =
      .ok reservedEntries := by cbv
  have hnames : (reservedEntries.map Prod.fst).Nodup := by decide
  obtain ⟨reader, hopen, hmem, -, hrelisted, hdots⟩ := hugePages_exact hlist hnames
  refine ⟨reader, hopen, hrelisted _ ?_, (hmem _).2 ⟨by decide, by cbv, by cbv⟩, fun hall => ?_⟩
  · refine .of_perm hnames (List.reverse_perm _).symm fun name node hmem => ?_
    obtain ⟨index, _, hentry⟩ := List.mem_mapIdx.1 hmem
    exact (Prod.mk.inj hentry).2 ▸ .file ⟨index⟩
  · exact hdots.1 hall "2MB.rsvd" ⟨some ⟨0⟩, 0⟩ (by decide) (by cbv) (by decide)

end StatReader

end ContainerUsage.Cgroup
