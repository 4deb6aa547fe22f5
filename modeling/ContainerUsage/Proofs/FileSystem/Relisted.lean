import Mathlib
import ContainerUsage.Proofs.FileSystem.Directory

/-!
# Trees that are listed in another order

The entries of a directory come in some order, and a file system need not list them in the same
order the next time. `Node.Relisted` relates two trees that differ in nothing else.

* A name leads to the same entry in both (`Node.Relisted.exists_lookup`), so a path leads to the
  same place in both (`FileSystem.exists_walkFrom_of_relisted`).
* `FileSystem.exists_list_of_relisted` and `FileSystem.openFile_of_relisted`: what can be listed or
  opened in one tree can be listed or opened in the other. The contents of files have no part in
  that.
-/

namespace ContainerUsage

/-! ## The same tree in another order -/

/-- Two nodes that are the same but for the order in which directories in them are listed. The names
in a directory are all different, so a name says which entry of the one is which of the other. -/
inductive Node.Relisted : Node → Node → Prop where
  | file (id : FileId) : Relisted (.file id) (.file id)
  | link (target : Path) : Relisted (.link target) (.link target)
  | directory {entries entries' : Entries} (nodup : (entries.map Prod.fst).Nodup)
      (names : (entries.map Prod.fst).Perm (entries'.map Prod.fst))
      (nodes : ∀ name node node', (name, node) ∈ entries → (name, node') ∈ entries' →
        Relisted node node') :
      Relisted (.directory entries) (.directory entries')

namespace Node.Relisted

variable {node node' : Node} {entries entries' : Entries} {name : Name}

/-- Listing in another order can be undone. -/
theorem symm (h : Relisted node node') : Relisted node' node := by
  induction h with
  | file id => exact .file id
  | link target => exact .link target
  | directory nodup names _ ih =>
    refine .directory (names.nodup_iff.1 nodup) names.symm fun name node node' hmem hmem' => ?_
    exact ih name node' node hmem' hmem

/-- The entries of a directory may come in any order. -/
theorem of_perm (nodup : (entries.map Prod.fst).Nodup) (hperm : entries.Perm entries')
    (hself : ∀ name node, (name, node) ∈ entries → Relisted node node) :
    Relisted (.directory entries) (.directory entries') := by
  refine .directory nodup (hperm.map _) fun name node node' hmem hmem' => ?_
  have hsame := lookup_eq_some_of_mem nodup (hperm.mem_iff.2 hmem')
  rw [lookup_eq_some_of_mem nodup hmem] at hsame
  exact Option.some.inj hsame ▸ hself name node hmem

/-- An entry of the one directory is an entry of the other. -/
theorem exists_mem (h : Relisted (.directory entries) (.directory entries'))
    (hmem : (name, node) ∈ entries) :
    ∃ node', (name, node') ∈ entries' ∧ Relisted node node' := by
  cases h with
  | directory _ names nodes =>
    obtain ⟨⟨other, node'⟩, hmem', rfl⟩ := List.mem_map.1 (names.subset (List.mem_map_of_mem hmem))
    exact ⟨node', hmem', nodes _ node node' hmem hmem'⟩

/-- What a name leads to in the one directory, it leads to in the other. -/
theorem exists_lookup (h : Relisted (.directory entries) (.directory entries'))
    (hlookup : entries.lookup name = some node) :
    ∃ node', entries'.lookup name = some node' ∧ Relisted node node' := by
  have hmem : (name, node) ∈ entries := by
    obtain ⟨before, after, rfl, -⟩ := List.lookup_eq_some_iff.1 hlookup
    exact List.mem_append_right _ List.mem_cons_self
  obtain ⟨node', hmem', hnode⟩ := h.exists_mem hmem
  cases h with
  | directory nodup names _ =>
    exact ⟨node', lookup_eq_some_of_mem (names.nodup_iff.1 nodup) hmem', hnode⟩

end Node.Relisted

/-! ## Paths -/

/-- Two trails through directories that are the same but for the order of listing. -/
def Trail.Relisted (trail trail' : Trail) : Prop :=
  List.Forall₂ (fun step step' => (Node.directory step.2).Relisted (.directory step'.2))
    trail trail'

/-- Two places to which a path leads in trees that are the same but for the order of listing. -/
inductive FileSystem.Destination.Relisted : Destination → Destination → Prop where
  | directory {trail trail' : Trail} (htrail : trail.Relisted trail') :
    Relisted (.directory trail) (.directory trail')
  | file (id : FileId) : Relisted (.file id) (.file id)
  | absent {trail trail' : Trail} {name : Name} (htrail : trail.Relisted trail') :
      Relisted (.absent ⟨trail, name⟩) (.absent ⟨trail', name⟩)

namespace FileSystem

/-- Two file systems with the same tree but for the order of listing. -/
def Relisted (fs fs' : FileSystem) : Prop :=
  (Node.directory fs.entries).Relisted (.directory fs'.entries)

/-- Listing a file system in another order can be undone. -/
theorem Relisted.symm {fs fs' : FileSystem} (h : fs.Relisted fs') : fs'.Relisted fs :=
  Node.Relisted.symm h

variable {fs fs' : FileSystem} {trail trail' : Trail} {path : Path}

/-- What is in a directory that is found by the same names is listed in another order, too. -/
theorem entriesOf_relisted (h : fs.Relisted fs') (htrail : trail.Relisted trail') :
    (Node.directory (fs.entriesOf trail)).Relisted (.directory (fs'.entriesOf trail')) := by
  cases htrail with
  | nil => exact h
  | cons hstep _ => exact hstep

/-- Looking at a place finds the same kind of node in both trees. -/
theorem exists_look_of_relisted (h : fs.Relisted fs') (htrail : trail.Relisted trail')
    {name : Name} {node : Node} (hlook : fs.look ⟨trail, name⟩ = .ok (some node)) :
    ∃ node', fs'.look ⟨trail', name⟩ = .ok (some node') ∧ node.Relisted node' := by
  unfold look at hlook ⊢
  split at hlook
  · cases hlook
  · next hlength =>
    obtain ⟨node', hlookup, hnode⟩ :=
      (entriesOf_relisted h htrail).exists_lookup (Except.ok.inj hlook)
    exact ⟨node', by rw [if_neg hlength, hlookup], hnode⟩

/-- A name under which there is nothing in the one directory is free in the other. -/
theorem look_of_relisted (h : fs.Relisted fs') (htrail : trail.Relisted trail') {name : Name}
    (hlook : fs.look ⟨trail, name⟩ = .ok none) : fs'.look ⟨trail', name⟩ = .ok none := by
  unfold look at hlook ⊢
  split at hlook
  · cases hlook
  · next hlength =>
    have hnone : (fs.entriesOf trail).lookup name = none := Except.ok.inj hlook
    rw [if_neg hlength]
    cases hlookup : (fs'.entriesOf trail').lookup name with
    | none => rfl
    | some node =>
      obtain ⟨node', hlookup', -⟩ := (entriesOf_relisted h htrail).symm.exists_lookup hlookup
      rw [hnone] at hlookup'
      cases hlookup'

/-- **A path leads to the same place in both trees.** -/
theorem exists_walkFrom_of_relisted (h : fs.Relisted fs')
    (htrail : trail.Relisted trail') {links : Nat} {todo : List Name} {found : Destination}
    (hwalk : fs.walkFrom false links trail todo = .ok found) :
    ∃ found', fs'.walkFrom false links trail' todo = .ok found' ∧ found.Relisted found' := by
  fun_induction fs.walkFrom false links trail todo generalizing trail' with
  | case1 links trail =>
    obtain rfl := Except.ok.inj hwalk
    exact ⟨.directory trail', by rw [walkFrom], .directory htrail⟩
  | case2 links trail name todo hstay ih =>
    rw [walkFrom, if_pos hstay]
    exact ih htrail hwalk
  | case3 links trail todo hstay ih =>
    rw [walkFrom, if_neg hstay, if_pos rfl]
    refine ih ?_ hwalk
    cases htrail with
    | nil => exact .nil
    | cons _ hrest => exact hrest
  | case6 links trail name todo hstay hup _ hlook hlast =>
    obtain rfl := Except.ok.inj hwalk
    refine ⟨.absent ⟨trail', name⟩, ?_, .absent htrail⟩
    rw [walkFrom_cons links trail' hstay hup, look_of_relisted h htrail hlook]
    exact if_pos hlast
  | case8 links trail name todo hstay hup _ entries hlook ih =>
    obtain ⟨node', hlook', hnode⟩ := exists_look_of_relisted h htrail hlook
    rw [walkFrom_cons links trail' hstay hup, hlook']
    cases hnode with
    | directory nodup names nodes => exact ih (.cons (.directory nodup names nodes) htrail) hwalk
  | case9 links trail name todo hstay hup _ id hlook hlast =>
    obtain rfl := Except.ok.inj hwalk
    obtain ⟨node', hlook', hnode⟩ := exists_look_of_relisted h htrail hlook
    rw [walkFrom_cons links trail' hstay hup, hlook']
    cases hnode with
    | file => exact ⟨.file id, if_pos hlast, .file id⟩
  | case12 trail name todo hstay hup _ target hlook links ih =>
    obtain ⟨node', hlook', hnode⟩ := exists_look_of_relisted h htrail hlook
    rw [walkFrom_cons _ trail' hstay hup, hlook']
    cases hnode with
    | link => exact ih .nil hwalk
  | _ => cases hwalk

/-- A path that leads to a directory can be listed. -/
theorem list_of_walkFrom {found : Trail} (hcheck : path.check = .ok ())
    (hwalk : fs.walkFrom false maxLinks [] path.pieces = .ok (.directory found)) :
    fs.list path = .ok (fs.entriesOf found) := by
  have hwalk : fs.walk false path = .ok (.directory found) := by
    rw [walk, hcheck]
    exact hwalk
  rw [list, trailTo, hwalk]
  rfl

/-- **What can be listed in one tree can be listed in the other**, in some order. -/
theorem exists_list_of_relisted (h : fs.Relisted fs') {entries : Entries}
    (hlist : fs.list path = .ok entries) :
    ∃ entries', fs'.list path = .ok entries' ∧
      (Node.directory entries).Relisted (.directory entries') := by
  obtain ⟨hcheck, found, hwalk, rfl⟩ := exists_walkFrom_of_list hlist
  obtain ⟨found', hwalk', hfound⟩ := exists_walkFrom_of_relisted h .nil hwalk
  cases hfound with
  | directory htrail => exact ⟨_, list_of_walkFrom hcheck hwalk', entriesOf_relisted h htrail⟩

/-- What can be opened in one tree can be opened in the other, and is the same file. -/
theorem openFile_of_relisted (h : fs.Relisted fs') {handle : Handle}
    (hopen : fs.openFile path = .ok handle) :
    fs'.openFile path = .ok handle := by
  unfold openFile walk at hopen ⊢
  cases hcheck : path.check with
  | error e =>
    rw [hcheck] at hopen
    cases hopen
  | ok _ =>
    rw [hcheck] at hopen
    cases hwalk : fs.walkFrom false maxLinks [] path.pieces with
    | error e =>
      simp [hwalk, bind, Except.bind] at hopen
    | ok found =>
      obtain ⟨found', hwalk', hfound⟩ := exists_walkFrom_of_relisted h .nil hwalk
      simp only [hwalk, hwalk', bind, Except.bind] at hopen ⊢
      cases hfound with
      | directory _ => exact hopen
      | file id => exact hopen
      | absent _ => cases hopen

/-- **Whether something can be opened, and which file it is, does not depend on the order of
listing.** -/
theorem toOption_openFile_of_relisted (h : fs.Relisted fs') (path : Path) :
    (fs.openFile path).toOption = (fs'.openFile path).toOption := by
  cases hopen : fs.openFile path with
  | ok handle => rw [openFile_of_relisted h hopen]
  | error e =>
    cases hopen' : fs'.openFile path with
    | error e' => rfl
    | ok handle =>
      rw [openFile_of_relisted h.symm hopen'] at hopen
      cases hopen

end FileSystem

end ContainerUsage
