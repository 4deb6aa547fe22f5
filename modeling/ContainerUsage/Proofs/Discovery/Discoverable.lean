import Mathlib
import ContainerUsage.Discovery.Scopes

/-!
# Discoverable scopes

`scopes` is a recursion over a tree. Here is what it finds, without the recursion: a scope is
`Discoverable` if it is a real directory in a directory that is visited, and a directory is
`Visited` if it can be reached from the root through real directories none of which is a scope.

* `discoverable_of_mem_scopes`: what is found is discoverable.
* `mem_scopes_iff`: if no path of a visited directory is too long, no discoverable
  scope is left out.
* `Listable` says that no directory that matters is closed to a scan. It implies the condition on
  the lengths of paths, as a path that is too long cannot be listed.
-/

namespace ContainerUsage

/-! ## The scope at a path -/

/-- The scope that the last piece of a path names, if it names one. -/
def Path.scope? (path : Path) : Option ScopeName := path.pieces.getLast?.bind ScopeName.parse?

/-- The path of an entry ends in the name of the entry. -/
theorem Path.getLast?_pieces_join (path : Path) (name : Name) :
    (path.join name).pieces.getLast? = some name := by
  unfold join
  split <;> simp

/-- The scope at a path is read off its last name. -/
theorem Path.scope?_join (path : Path) (name : Name) :
    (path.join name).scope? = ScopeName.parse? name := by
  rw [scope?, getLast?_pieces_join]
  rfl

/-! ## What can be discovered -/

/-- The directories at and below a root that are visited, each with its entries. Scopes are not
entered, except for the root, and links are not followed. -/
inductive Visited (root : Path) (entries : Entries) : Path → Entries → Prop where
  | root : Visited root entries root entries
  | inside {path : Path} {inner : Entries} {name : Name} {found : Entries} :
      Visited root entries path inner → (name, .directory found) ∈ inner →
      ScopeName.parse? name = none → Visited root entries (path.join name) found

/-- The scopes below a root that a scan should find: the real directories with the name of a scope
in a visited directory. -/
def Discoverable (root : Path) (entries : Entries) (path : Path) (scope : ScopeName) : Prop :=
  ∃ dir inner name found, Visited root entries dir inner ∧ (name, Node.directory found) ∈ inner ∧
    ScopeName.parse? name = some scope ∧ path = dir.join name

variable {root path : Path} {entries inner : Entries} {scope : ScopeName}

/-- The path of a discoverable scope tells which scope it is. -/
theorem Discoverable.scope?_path (h : Discoverable root entries path scope) :
    path.scope? = some scope := by
  obtain ⟨dir, inner, name, found, -, -, hscope, rfl⟩ := h
  rw [Path.scope?_join, hscope]

/-! ## What is found is discoverable -/

/-- A directory entry is a scope if it is a real directory with the name of one. -/
theorem scope?_eq_some {entry : Name × Node} :
    scope? entry = some scope ↔
      ∃ found, entry.2 = .directory found ∧ ScopeName.parse? entry.1 = some scope := by
  obtain ⟨name, node⟩ := entry
  cases node <;> simp [scope?, Node.isDirectory]

/-- The scopes in a directory itself are its directories with names of scopes. -/
theorem mem_directScopes_iff :
    (path, scope) ∈ directScopes root entries ↔ ∃ name found,
      (name, Node.directory found) ∈ entries ∧ ScopeName.parse? name = some scope ∧
        path = root.join name := by
  unfold directScopes
  rw [List.mem_filterMap]
  constructor
  · rintro ⟨⟨name, node⟩, hmem, heq⟩
    obtain ⟨s, hs, hpair⟩ := Option.map_eq_some_iff.1 heq
    obtain ⟨found, rfl, hparse⟩ := scope?_eq_some.1 hs
    obtain ⟨rfl, rfl⟩ := Prod.mk.inj hpair
    exact ⟨name, found, hmem, hparse, rfl⟩
  · rintro ⟨name, found, hmem, hparse, rfl⟩
    have hs : scope? (name, .directory found) = some scope := scope?_eq_some.2 ⟨found, rfl, hparse⟩
    exact ⟨(name, .directory found), hmem, by rw [hs]; rfl⟩

/-- What is found below some entries is found in one of the directories that are entered. -/
theorem mem_scopesBelow_iff {entry : Path × ScopeName} :
    entry ∈ scopesBelow path entries ↔
      ∃ name node, (name, node) ∈ entries ∧ ScopeName.parse? name = none ∧
      (path.join name).fits = true ∧ entry ∈ node.scopes (path.join name) := by
  induction entries with
  | nil => simp [scopesBelow]
  | cons first rest ih =>
    obtain ⟨name, node⟩ := first
    rw [scopesBelow_cons, List.mem_append, ih]
    constructor
    · rintro (⟨other, node', hmem, hentered⟩ | hfirst)
      · exact ⟨other, node', List.mem_cons_of_mem _ hmem, hentered⟩
      · split at hfirst
        · next henter =>
          rw [Bool.and_eq_true, Option.isNone_iff_eq_none] at henter
          exact ⟨name, node, List.mem_cons_self, henter.1, henter.2, hfirst⟩
        · cases hfirst
    · rintro ⟨other, node', hmem, hname, hfits, hentry⟩
      rcases List.mem_cons.1 hmem with heq | hrest
      · obtain ⟨rfl, rfl⟩ := Prod.mk.inj heq
        right
        rwa [hname, hfits]
      · exact .inl ⟨other, node', hrest, hname, hfits, hentry⟩

mutual

/-- What is found in and below a visited directory is discoverable. -/
theorem discoverable_of_mem_node {dir : Path} : (node : Node) →
    (∀ inner, node = .directory inner → Visited root entries dir inner) →
    (path, scope) ∈ node.scopes dir → Discoverable root entries path scope
  | .directory inner, hvisited, hmem => by
      have hdir := hvisited inner rfl
      rw [scopes_directory, List.mem_append] at hmem
      rcases hmem with hdirect | hbelow
      · obtain ⟨name, found, hentry, hparse, hpath⟩ := mem_directScopes_iff.1 hdirect
        exact ⟨dir, inner, name, found, hdir, hentry, hparse, hpath⟩
      · exact discoverable_of_mem_below inner hdir (List.Subset.refl _) hbelow
  | .file _, _, hmem => by simp [Node.scopes] at hmem
  | .link _, _, hmem => by simp [Node.scopes] at hmem

/-- What is found below some entries of a visited directory is discoverable. -/
theorem discoverable_of_mem_below {dir : Path} {inner : Entries} :
    (rest : List (Name × Node)) → Visited root entries dir inner → rest ⊆ inner →
    (path, scope) ∈ scopesBelow dir rest → Discoverable root entries path scope
  | [], _, _, hmem => by simp [scopesBelow] at hmem
  | (name, node) :: rest, hdir, hsub, hmem => by
      rw [scopesBelow_cons, List.mem_append] at hmem
      rcases hmem with hrest | hnode
      · exact discoverable_of_mem_below rest hdir (List.Subset.trans (by simp) hsub) hrest
      · split at hnode
        · next henter =>
          have hname : ScopeName.parse? name = none := by
            rw [Bool.and_eq_true] at henter
            exact Option.isNone_iff_eq_none.1 henter.1
          refine discoverable_of_mem_node node (fun found hnode => ?_) hnode
          subst hnode
          exact .inside hdir (hsub List.mem_cons_self) hname
        · simp at hnode

end

/-- What is found below a root is discoverable. -/
theorem discoverable_of_mem_scopes (h : (path, scope) ∈ scopes root entries) :
    Discoverable root entries path scope :=
  discoverable_of_mem_node (.directory entries) (fun inner heq => by
    obtain rfl := Node.directory.inj heq
    exact .root) h

/-- The paths of the scopes that are found tell which scopes they are. -/
theorem scope?_of_mem_scopes (root : Path) (entries : Entries) :
    ∀ entry ∈ scopes root entries, entry.1.scope? = some entry.2 :=
  fun _ hmem => (discoverable_of_mem_scopes hmem).scope?_path

/-! ## What is discoverable is found -/

/-- A directory that is entered is searched. -/
theorem scopes_subset_scopesBelow {name : Name} {found : Entries}
    (hmem : (name, Node.directory found) ∈ inner) (hname : ScopeName.parse? name = none)
    (hfits : (path.join name).fits) : scopes (path.join name) found ⊆ scopesBelow path inner :=
  fun _ hentry => mem_scopesBelow_iff.2 ⟨name, .directory found, hmem, hname, hfits, hentry⟩

/-- Everything in and below a visited directory is found from the root. -/
theorem Visited.scopes_subset
    (hfits : ∀ dir inner, Visited root entries dir inner → dir.fits)
    (h : Visited root entries path inner) : scopes path inner ⊆ scopes root entries := by
  induction h with
  | root => exact List.Subset.refl _
  | inside hdir hmem hname ih =>
    refine List.Subset.trans ?_ ih
    have hbelow := scopes_subset_scopesBelow hmem hname (hfits _ _ (.inside hdir hmem hname))
    refine List.Subset.trans hbelow ?_
    rw [scopes, scopes_directory]
    exact List.subset_append_right _ _

/-- **The walk is complete and exact.** If the paths of the visited directories are short enough,
the scopes that are found are the discoverable ones. -/
theorem mem_scopes_iff (hfits : ∀ dir inner, Visited root entries dir inner → dir.fits) :
    (path, scope) ∈ scopes root entries ↔ Discoverable root entries path scope := by
  refine ⟨discoverable_of_mem_scopes, ?_⟩
  rintro ⟨dir, inner, name, found, hdir, hmem, hparse, hpath⟩
  refine hdir.scopes_subset hfits ?_
  rw [scopes, scopes_directory]
  exact List.mem_append_left _ (mem_directScopes_iff.2 ⟨name, found, hmem, hparse, hpath⟩)

/-! ## Directories that can be listed -/

/-- The visited directories and the discoverable scopes can be listed. That is so if the root and
every directory below it can be. -/
structure Listable (files : FileSystem) (root : Path) (entries : Entries) : Prop where
  visited : ∀ dir inner, Visited root entries dir inner → ∃ found, files.list dir = .ok found
  scopes : ∀ path scope, Discoverable root entries path scope →
    ∃ found, files.list path = .ok found

/-- A path that can be listed is short enough. -/
theorem FileSystem.fits_of_list {files : FileSystem} {found : Entries}
    (h : files.list path = .ok found) : path.fits := by
  cases hfits : path.fits with
  | true => rfl
  | false =>
    have hcheck : ∃ e, path.check = .error e := by
      unfold Path.check
      rw [hfits]
      split
      · exact ⟨_, rfl⟩
      · exact ⟨_, rfl⟩
    obtain ⟨e, he⟩ := hcheck
    have hwalk : files.walk false path = .error e := by
      rw [walk, he]
      rfl
    have hlist : files.list path = .error e := by
      rw [list, trailTo, hwalk]
      rfl
    rw [hlist] at h
    simp at h

/-- Where all directories can be listed, exactly the discoverable scopes are found. -/
theorem Listable.mem_scopes_iff {files : FileSystem} (h : Listable files root entries) :
    (path, scope) ∈ ContainerUsage.scopes root entries ↔ Discoverable root entries path scope :=
  ContainerUsage.mem_scopes_iff fun dir inner hvisited => by
    obtain ⟨found, hfound⟩ := h.visited dir inner hvisited
    exact FileSystem.fits_of_list hfound

end ContainerUsage
