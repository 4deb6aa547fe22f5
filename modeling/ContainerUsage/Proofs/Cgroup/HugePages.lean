import Mathlib
import ContainerUsage.Cgroup.StatReader
import ContainerUsage.Proofs.Text.Utf8

/-!
# The hugetlb files of a cgroup

The hugetlb files of a reader are found by their names: a name tells a page size exactly if it is
the name of the file with the current use of this page size (`pageSize?_eq_some_iff`). So the reader
has the files of those page sizes whose names are among the entries and whose files can be opened
(`mem_hugePagesOf_iff`), each once and in the order of the page sizes (`pairwise_hugePagesOf`).
-/

namespace ContainerUsage.Cgroup

/-! ## Names -/

/-- A name tells a page size exactly if it is the name for this page size. -/
theorem pageSize?_eq_some_iff {name : Name} {pageSize : String} :
    pageSize? name = some pageSize ↔ name = hugePagesCurrentName pageSize := by
  unfold pageSize? hugePagesCurrentName
  constructor
  · intro h
    cases htext : Utf8.decode? name with
    | none => simp [htext] at h
    | some text =>
      cases hstart : hugePagesStart.toList.isPrefixOf? text.toList with
      | none => simp [htext, hstart] at h
      | some rest =>
        simp only [htext, hstart, Option.map_eq_some_iff] at h
        obtain ⟨size, hend, rfl⟩ := h
        rw [List.isSuffixOf?_eq_some_iff_append_eq] at hend
        rw [List.isPrefixOf?_eq_some_iff_append_eq] at hstart
        rw [← Utf8.encode_of_decode? htext]
        apply congrArg Utf8.encode
        apply String.toList_injective
        rw [← hstart, ← hend, String.toList_append, String.toList_append, String.toList_ofList,
          List.append_assoc]
  · rintro rfl
    have hstart : hugePagesStart.toList.isPrefixOf?
        (hugePagesStart ++ pageSize ++ hugePagesCurrentEnd).toList =
          some (pageSize.toList ++ hugePagesCurrentEnd.toList) := by
      rw [List.isPrefixOf?_eq_some_iff_append_eq, String.toList_append, String.toList_append,
        List.append_assoc]
    have hend : hugePagesCurrentEnd.toList.isSuffixOf?
        (pageSize.toList ++ hugePagesCurrentEnd.toList) = some pageSize.toList := by
      rw [List.isSuffixOf?_eq_some_iff_append_eq]
    simp only [Utf8.decode?_encode, hstart, hend, Option.map_some, String.ofList_toList]

/-- Lists in which the page sizes rise are equal if they have the same members. -/
theorem eq_of_mem_iff_of_rising {α : Type} {pageSize : α → String} {l l' : List α}
    (h : l.Pairwise fun a b => pageSize a < pageSize b)
    (h' : l'.Pairwise fun a b => pageSize a < pageSize b)
    (hmem : ∀ a, a ∈ l ↔ a ∈ l') : l = l' := by
  have hirrefl : Std.Irrefl fun a b => pageSize a < pageSize b := ⟨fun a => lt_irrefl (pageSize a)⟩
  have hantisymm : Std.Antisymm fun a b => pageSize a < pageSize b :=
    ⟨fun a b hab hba => absurd hba (lt_asymm hab)⟩
  exact h.eq_of_mem_iff h' hmem

namespace StatReader

variable {fs : FileSystem} {path : Path} {entries : Entries} {files : HugePageFiles}

/-! ## The files of a reader -/

/-- The hugetlb files that are opened for an entry with a given name. -/
def hugePagesNamed? (fs : FileSystem) (path : Path) (name : Name) : Option HugePageFiles :=
  match pageSize? name with
  | none => none
  | some pageSize =>
    openHugePages? fs pageSize (path.join name) (path.join (hugePagesMaxName pageSize))

/-- Files are opened for their own page size. -/
theorem pageSize_of_openHugePages? {pageSize : String} {current max : Path}
    (h : openHugePages? fs pageSize current max = some files) : files.pageSize = pageSize := by
  unfold openHugePages? at h
  split at h
  · cases h
  · exact (Option.some.inj h) ▸ rfl

/-- The files of a page size are opened for the name of its current use, and for no other name. -/
theorem hugePagesNamed?_eq_some_iff {name : Name} :
    hugePagesNamed? fs path name = some files ↔ name = hugePagesCurrentName files.pageSize ∧
      openHugePages? fs files.pageSize (path.join (hugePagesCurrentName files.pageSize))
        (path.join (hugePagesMaxName files.pageSize)) = some files := by
  constructor
  · intro h
    cases hsize : pageSize? name with
    | none => simp [hugePagesNamed?, hsize] at h
    | some pageSize =>
      simp only [hugePagesNamed?, hsize] at h
      obtain rfl := pageSize_of_openHugePages? h
      obtain rfl := pageSize?_eq_some_iff.1 hsize
      exact ⟨rfl, h⟩
  · rintro ⟨rfl, h⟩
    rw [hugePagesNamed?, pageSize?_eq_some_iff.2 rfl]
    exact h

/-- Whether files are opened for an entry depends on its name. -/
theorem hugePagesOf_eq (fs : FileSystem) (path : Path) (entries : Entries) :
    hugePagesOf fs path entries =
      ((entries.map Prod.fst).filterMap (hugePagesNamed? fs path)).mergeSort
      fun a b => a.pageSize ≤ b.pageSize := by
  rw [List.filterMap_map]
  rfl

/-- **The files of a reader are those of the page sizes in the names of entries**, where they can be
opened. -/
theorem mem_hugePagesOf_iff : files ∈ hugePagesOf fs path entries ↔
    hugePagesCurrentName files.pageSize ∈ entries.map Prod.fst ∧
      openHugePages? fs files.pageSize (path.join (hugePagesCurrentName files.pageSize))
        (path.join (hugePagesMaxName files.pageSize)) = some files := by
  rw [hugePagesOf_eq, List.mem_mergeSort, List.mem_filterMap]
  constructor
  · rintro ⟨name, hmem, h⟩
    obtain ⟨rfl, hopen⟩ := hugePagesNamed?_eq_some_iff.1 h
    exact ⟨hmem, hopen⟩
  · rintro ⟨hmem, hopen⟩
    exact ⟨_, hmem, hugePagesNamed?_eq_some_iff.2 ⟨rfl, hopen⟩⟩

/-- **The page sizes of a reader rise**, so that each comes once. -/
theorem pairwise_hugePagesOf (hnames : (entries.map Prod.fst).Nodup) :
    (hugePagesOf fs path entries).Pairwise fun a b => a.pageSize < b.pageSize := by
  have hsorted : (hugePagesOf fs path entries).Pairwise fun a b => a.pageSize ≤ b.pageSize := by
    have hle : (hugePagesOf fs path entries).Pairwise fun a b =>
        decide (a.pageSize ≤ b.pageSize) = true := by
      rw [hugePagesOf_eq]
      refine List.pairwise_mergeSort ?_ ?_ _
      · intro a b c hab hbc
        rw [decide_eq_true_iff] at hab hbc ⊢
        exact le_trans hab hbc
      · intro a b
        simpa using le_total a.pageSize b.pageSize
    exact hle.imp of_decide_eq_true
  have hdistinct : ((hugePagesOf fs path entries).map (·.pageSize)).Nodup := by
    have hperm := List.mergeSort_perm ((entries.map Prod.fst).filterMap (hugePagesNamed? fs path))
      fun a b => a.pageSize ≤ b.pageSize
    rw [hugePagesOf_eq, (hperm.map (·.pageSize)).nodup_iff, List.map_filterMap]
    refine List.Nodup.filterMap ?_ hnames
    -- a name is determined by the page size that it tells
    intro name other pageSize hname hother
    obtain ⟨files, hfiles, rfl⟩ := Option.map_eq_some_iff.1 hname
    obtain ⟨others, hothers, heq⟩ := Option.map_eq_some_iff.1 hother
    rw [(hugePagesNamed?_eq_some_iff.1 hfiles).1, (hugePagesNamed?_eq_some_iff.1 hothers).1, heq]
  rw [List.nodup_iff_pairwise_ne, List.pairwise_map] at hdistinct
  exact hsorted.imp₂ (fun a b hle hne => lt_of_le_of_ne hle hne) hdistinct

end StatReader

end ContainerUsage.Cgroup
