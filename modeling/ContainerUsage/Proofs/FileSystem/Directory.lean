import Mathlib
import ContainerUsage.FileSystem.Tree

/-!
# The entries of a directory by their paths

A path that leads to a directory, with the name of an entry behind it, leads to this entry. Links on
the way to the directory are no obstacle, and neither is a slash at its end.

* `exists_walkFrom_append` goes on from the directory to which a path leads.
* `exists_walk_join` does so for the path of an entry.
* `openFile_join_of_mem` opens the file of an entry, and `exists_openFile_join_eq_error` says that
  there is nothing to open under any other name.
-/

namespace ContainerUsage

/-- A name that an entry can have: it is not one of those that lead nowhere or up, it has no slash
and no zero byte, and it is not too long. -/
structure Name.Valid (name : Name) : Prop where
  ne_nil : name ≠ []
  ne_here : name ≠ Path.here
  ne_up : name ≠ Path.up
  noSlash : UInt8.ofNat '/'.toNat ∉ name
  noZero : 0 ∉ name
  length_le : name.length ≤ Name.maxLength

instance (name : Name) : Decidable name.Valid :=
  decidable_of_iff
    ((name ≠ [] ∧ name ≠ Path.here ∧ name ≠ Path.up) ∧
      UInt8.ofNat '/'.toNat ∉ name ∧ 0 ∉ name ∧ name.length ≤ Name.maxLength)
    ⟨fun h => ⟨h.1.1, h.1.2.1, h.1.2.2, h.2.1, h.2.2.1, h.2.2.2⟩,
      fun h => ⟨⟨h.ne_nil, h.ne_here, h.ne_up⟩, h.noSlash, h.noZero, h.length_le⟩⟩

/-- A name that an entry can have is not one of those that stay in the directory. -/
theorem Name.Valid.not_stay {name : Name} (h : name.Valid) : ¬(name = [] ∨ name = Path.here) :=
  not_or.2 ⟨h.ne_nil, h.ne_here⟩

/-- The path of an entry is taken if it is not too long. -/
theorem Path.check_join {path : Path} {name : Name} (hpath : path.check = .ok ())
    (hname : name.Valid) (hfits : (path.join name).fits) : (path.join name).check = .ok () := by
  have hzero : path.hasZero = false := by
    rw [Path.check] at hpath
    by_contra hzero
    rw [if_pos (Bool.eq_true_of_not_eq_false hzero)] at hpath
    cases hpath
  have hjoin : ∃ before, before ⊆ path.pieces ∧ (path.join name).pieces = before ++ [name] := by
    by_cases hslash : path.pieces.getLast? = some []
    · exact ⟨path.pieces.dropLast, List.dropLast_subset _, by rw [Path.join, if_pos hslash]⟩
    · exact ⟨path.pieces, List.Subset.refl _, by rw [Path.join, if_neg hslash]⟩
  obtain ⟨before, hbefore, hpieces⟩ := hjoin
  have hnone : (path.join name).hasZero = false := by
    rw [Path.hasZero, List.any_eq_false] at hzero ⊢
    intro piece hmem
    rw [hpieces, List.mem_append, List.mem_singleton] at hmem
    rcases hmem with hmem | rfl
    · exact hzero piece (hbefore hmem)
    · simpa using hname.noZero
  have hsome : (path.join name).pieces ≠ [[]] := by
    rw [hpieces]
    intro heq
    have hlast := congrArg List.getLast? heq
    rw [List.getLast?_concat] at hlast
    exact hname.ne_nil (Option.some.inj hlast)
  rw [Path.check, hnone, hfits, if_neg hsome]
  rfl

/-- What is listed under a name of its own is found under this name. -/
theorem lookup_eq_some_of_mem {α β : Type} [BEq α] [LawfulBEq α] {entries : List (α × β)} {key : α}
    {value : β} (hkeys : (entries.map Prod.fst).Nodup) (hmem : (key, value) ∈ entries) :
    entries.lookup key = some value := by
  obtain ⟨before, after, rfl⟩ := List.append_of_mem hmem
  refine List.lookup_eq_some_iff.2 ⟨before, after, rfl, fun entry hentry => ?_⟩
  rw [List.map_append, List.nodup_append] at hkeys
  have hne : entry.1 ≠ key := hkeys.2.2 _ (List.mem_map_of_mem hentry) _ (by simp)
  exact bne_iff_ne.2 hne.symm

namespace FileSystem

variable {fs : FileSystem} {path : Path} {entries : Entries} {name : Name}

/-! ## Going on from a directory -/

/-- A name that leads down or nowhere is looked up. -/
theorem walkFrom_cons (links : Nat) (trail : Trail) {name : Name}
    (hstay : ¬(name = [] ∨ name = Path.here)) (hup : name ≠ Path.up) (rest : List Name) :
    fs.walkFrom false links trail (name :: rest) =
      match fs.look ⟨trail, name⟩ with
      | .error e => .error e
      | .ok none => if rest.isEmpty then .ok (.absent ⟨trail, name⟩) else .error .notFound
      | .ok (some (.directory entries)) => fs.walkFrom false links ((name, entries) :: trail) rest
      | .ok (some (.file id)) => if rest.isEmpty then .ok (.file id) else .error .notADirectory
      | .ok (some (.link target)) =>
        match links with
        | 0 => .error .filesystemLoop
        | links + 1 => fs.walkFrom false links [] (target.pieces ++ rest) := by
  rw [walkFrom, if_neg hstay, if_neg hup]
  rfl

/-- A path that leads to a directory goes on from there, with the links that are left. -/
theorem exists_walkFrom_append {links : Nat} {trail found : Trail} {todo : List Name}
    (h : fs.walkFrom false links trail todo = .ok (.directory found)) :
    ∃ left, ∀ rest, fs.walkFrom false links trail (todo ++ rest) =
      fs.walkFrom false left found rest := by
  fun_induction fs.walkFrom false links trail todo with
  | case1 links trail =>
    cases h
    exact ⟨links, fun rest => rfl⟩
  | case2 links trail name todo hstay ih =>
    obtain ⟨left, hleft⟩ := ih h
    refine ⟨left, fun rest => ?_⟩
    rw [List.cons_append, walkFrom, if_pos hstay, hleft]
  | case3 links trail todo hstay ih =>
    obtain ⟨left, hleft⟩ := ih h
    refine ⟨left, fun rest => ?_⟩
    rw [List.cons_append, walkFrom, if_neg hstay, if_pos rfl, hleft]
  | case8 links trail name todo hstay hup _ entries hlook ih =>
    obtain ⟨left, hleft⟩ := ih h
    refine ⟨left, fun rest => ?_⟩
    rw [List.cons_append, walkFrom_cons links trail hstay hup, hlook]
    exact hleft rest
  | case12 trail name todo hstay hup _ target hlook links ih =>
    obtain ⟨left, hleft⟩ := ih h
    refine ⟨left, fun rest => ?_⟩
    rw [List.cons_append, walkFrom_cons _ trail hstay hup, hlook]
    dsimp only
    rw [← List.append_assoc, hleft]
  | _ => cases h

/-- A slash at the end of a path that leads to a directory makes no difference. -/
theorem walkFrom_of_concat_nil {links : Nat} {trail found : Trail} {todo : List Name}
    (h : fs.walkFrom false links trail (todo ++ [[]]) = .ok (.directory found)) :
    fs.walkFrom false links trail todo = .ok (.directory found) := by
  fun_induction fs.walkFrom false links trail todo with
  | case1 links trail =>
    rw [List.nil_append, walkFrom, if_pos (.inl rfl), walkFrom] at h
    exact h
  | case2 links trail name todo hstay ih =>
    rw [List.cons_append, walkFrom, if_pos hstay] at h
    exact ih h
  | case3 links trail todo hstay ih =>
    rw [List.cons_append, walkFrom, if_neg hstay, if_pos rfl] at h
    exact ih h
  | case8 links trail name todo hstay hup _ entries hlook ih =>
    rw [List.cons_append, walkFrom_cons links trail hstay hup, hlook] at h
    exact ih h
  | case12 trail name todo hstay hup _ target hlook links ih =>
    rw [List.cons_append, walkFrom_cons _ trail hstay hup, hlook] at h
    dsimp only at h
    rw [← List.append_assoc] at h
    exact ih h
  | _ => simp_all [walkFrom_cons]

/-- A path that can be listed is taken, and leads to a directory. -/
theorem exists_walkFrom_of_list (hlist : fs.list path = .ok entries) : path.check = .ok () ∧
    ∃ found, fs.walkFrom false maxLinks [] path.pieces = .ok (.directory found) ∧
      fs.entriesOf found = entries := by
  cases htrail : fs.trailTo path with
  | error e =>
    rw [list, htrail] at hlist
    cases hlist
  | ok found =>
    rw [list, htrail] at hlist
    unfold trailTo at htrail
    split at htrail
    · next hwalk =>
      obtain rfl := Except.ok.inj htrail
      cases hcheck : path.check with
      | error e =>
        rw [walk, hcheck] at hwalk
        cases hwalk
      | ok _ =>
        rw [walk, hcheck] at hwalk
        exact ⟨rfl, _, hwalk, Except.ok.inj hlist⟩
    all_goals cases htrail

/-- A path that leads to a directory goes on to the entries of this directory. -/
theorem exists_walk_join (hlist : fs.list path = .ok entries)
    (hcheck : (path.join name).check = .ok ()) :
    ∃ left found, fs.entriesOf found = entries ∧
      fs.walk false (path.join name) = fs.walkFrom false left found [name] := by
  obtain ⟨-, found, hfound, hentries⟩ := exists_walkFrom_of_list hlist
  rw [walk, hcheck]
  show ∃ left found, _ ∧ fs.walkFrom false maxLinks [] (path.join name).pieces = _
  by_cases hslash : path.pieces.getLast? = some []
  · rw [← List.dropLast_append_getLast? [] hslash] at hfound
    obtain ⟨left, hleft⟩ := exists_walkFrom_append (walkFrom_of_concat_nil hfound)
    refine ⟨left, found, hentries, ?_⟩
    rw [Path.join, if_pos hslash]
    exact hleft [name]
  · obtain ⟨left, hleft⟩ := exists_walkFrom_append hfound
    refine ⟨left, found, hentries, ?_⟩
    rw [Path.join, if_neg hslash]
    exact hleft [name]

/-! ## Opening an entry -/

/-- **The file of an entry is opened by its path.** -/
theorem openFile_join_of_mem (hlist : fs.list path = .ok entries)
    (hnames : (entries.map Prod.fst).Nodup) {id : FileId} (hmem : (name, .file id) ∈ entries)
    (hname : name.Valid) (hfits : (path.join name).fits) :
    fs.openFile (path.join name) = .ok ⟨some id, 0⟩ := by
  have hcheck := Path.check_join (exists_walkFrom_of_list hlist).1 hname hfits
  obtain ⟨left, found, rfl, hwalk⟩ := exists_walk_join hlist hcheck
  have hlook : fs.look ⟨found, name⟩ = .ok (some (.file id)) := by
    rw [look, if_neg (Nat.not_lt.2 hname.length_le), lookup_eq_some_of_mem hnames hmem]
  rw [openFile, hwalk, walkFrom_cons _ _ hname.not_stay hname.ne_up, hlook]
  rfl

/-- **Under a name that is none of the entries, there is nothing to open.** -/
theorem exists_openFile_join_eq_error (hlist : fs.list path = .ok entries)
    (hname : name.Valid) (hmem : name ∉ entries.map Prod.fst) :
    ∃ e, fs.openFile (path.join name) = .error e := by
  cases hcheck : (path.join name).check with
  | error e =>
    refine ⟨e, ?_⟩
    rw [openFile, walk, hcheck]
    rfl
  | ok _ =>
    obtain ⟨left, found, rfl, hwalk⟩ := exists_walk_join hlist hcheck
    have hlook : fs.look ⟨found, name⟩ = .ok none := by
      rw [look, if_neg (Nat.not_lt.2 hname.length_le), List.lookup_eq_none_iff.2]
      intro entry hentry
      have hne : name ≠ entry.1 := by
        rintro rfl
        exact hmem (List.mem_map_of_mem hentry)
      exact bne_iff_ne.2 hne
    refine ⟨.notFound, ?_⟩
    rw [openFile, hwalk, walkFrom_cons _ _ hname.not_stay hname.ne_up, hlook]
    rfl

end FileSystem

end ContainerUsage
