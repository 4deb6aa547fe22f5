/-!
# Cutting a list at separators

Every text this library reads is cut in one of three ways: at each separator (labels at commas,
paths at slashes), once at the first separator (`key=value`), or after each separator that stays
with the piece before it (the lines of a file).  This file holds the three cuts over an arbitrary
element type, so that the same lemmas serve characters and bytes.

What each cut keeps is stated beside it: `pieces_append_cons` says that a separator closes a piece,
`cutOnce_eq_some_iff` where the single cut falls, and `flatten_cutAfter` that no element of a file
is lost when it is cut into lines.
-/

namespace ContainerUsage.Text

variable {α : Type}

/-! ## At each separator -/

/-- The pieces of a list between the elements that `p` marks as separators.  There is always one
more piece than there are separators, so the empty list has one empty piece. -/
def pieces (p : α → Bool) : List α → List (List α)
  | [] => [[]]
  | a :: rest => if p a then [] :: pieces p rest else (pieces p rest).modifyHead (a :: ·)

@[simp] theorem pieces_nil (p : α → Bool) : pieces p [] = [[]] := rfl

/-- There is always a piece, if only an empty one. -/
theorem pieces_ne_nil (p : α → Bool) (s : List α) : pieces p s ≠ [] := by
  induction s with
  | nil => simp
  | cons a rest ih => by_cases h : p a <;> simp [pieces, h, ih]

/-- No piece holds a separator. -/
theorem not_separator_of_mem_pieces {p : α → Bool} {s w : List α} (hw : w ∈ pieces p s)
    {a : α} (ha : a ∈ w) : p a = false := by
  induction s generalizing w with
  | nil => simp_all
  | cons b rest ih =>
    obtain ⟨first, more, hp⟩ := List.exists_cons_of_ne_nil (pieces_ne_nil p rest)
    rw [pieces] at hw
    split at hw
    · rcases List.mem_cons.1 hw with rfl | hw
      · simp at ha
      · exact ih hw ha
    · rw [hp, List.modifyHead_cons] at hw
      rcases List.mem_cons.1 hw with rfl | hw
      · rcases List.mem_cons.1 ha with rfl | ha
        · simp_all
        · exact ih (hp ▸ List.mem_cons_self) ha
      · exact ih (hp ▸ List.mem_cons_of_mem _ hw) ha

/-- A separator closes the piece before it. -/
theorem pieces_append_cons {p : α → Bool} (s t : List α) {a : α} (ha : p a = true) :
    pieces p (s ++ a :: t) = pieces p s ++ pieces p t := by
  induction s with
  | nil => simp [pieces, ha]
  | cons b rest ih =>
    by_cases hb : p b
    · simp [pieces, hb, ih]
    · cases hp : pieces p rest with
      | nil => exact absurd hp (pieces_ne_nil p rest)
      | cons first more => simp [pieces, hb, ih, hp]

/-- A list without separators is one piece. -/
theorem pieces_of_forall {p : α → Bool} {s : List α} (h : ∀ a ∈ s, p a = false) :
    pieces p s = [s] := by
  induction s with
  | nil => rfl
  | cons b rest ih =>
    have hb := h b List.mem_cons_self
    simp [pieces, hb, ih fun a ha => h a (List.mem_cons_of_mem _ ha)]

/-! ## Once, at the first separator -/

/-- The parts before and after the first occurrence of `sep`, if there is one. -/
def cutOnce [DecidableEq α] (sep : α) : List α → Option (List α × List α)
  | [] => none
  | a :: rest => if a = sep then some ([], rest) else (cutOnce sep rest).map fun cut =>
    (a :: cut.1, cut.2)

/-- The cut falls at the first separator: the list is put together again from the two parts, and
the first part holds no separator. -/
theorem cutOnce_eq_some_iff [DecidableEq α] {sep : α} {s before after : List α} :
    cutOnce sep s = some (before, after) ↔ s = before ++ sep :: after ∧ sep ∉ before := by
  induction s generalizing before with
  | nil => simp [cutOnce]
  | cons a rest ih =>
    by_cases h : a = sep
    · subst h
      constructor
      · intro hc
        simp only [cutOnce, if_true, Option.some.injEq, Prod.mk.injEq] at hc
        obtain ⟨rfl, rfl⟩ := hc
        simp
      · rintro ⟨he, hn⟩
        cases before with
        | nil => simp_all [cutOnce]
        | cons b before =>
          simp only [List.cons_append, List.cons.injEq] at he
          exact absurd (he.1 ▸ List.mem_cons_self) hn
    · simp only [cutOnce, h, if_false, Option.map_eq_some_iff, Prod.mk.injEq, Prod.exists]
      constructor
      · rintro ⟨b, t, hc, rfl, rfl⟩
        obtain ⟨rfl, hn⟩ := ih.1 hc
        exact ⟨rfl, by simp [Ne.symm h, hn]⟩
      · rintro ⟨he, hn⟩
        cases before with
        | nil => simp_all
        | cons b before =>
          simp only [List.cons_append, List.cons.injEq] at he
          obtain ⟨rfl, rfl⟩ := he
          exact ⟨before, after, ih.2 ⟨rfl, fun hm => hn (List.mem_cons_of_mem _ hm)⟩, rfl, rfl⟩

/-- There is no cut exactly if there is no separator. -/
theorem cutOnce_eq_none_iff [DecidableEq α] {sep : α} {s : List α} :
    cutOnce sep s = none ↔ sep ∉ s := by
  induction s with
  | nil => simp [cutOnce]
  | cons a rest ih =>
    by_cases h : a = sep
    · simp [cutOnce, h]
    · simp [cutOnce, h, ih, Ne.symm h]

/-! ## After each separator -/

/-- The pieces of a list, each ending with the separator that closes it.  The last piece has no
separator if the list does not end with one, and the empty list has no piece. -/
def cutAfter [DecidableEq α] (sep : α) : List α → List (List α)
  | [] => []
  | a :: rest =>
    if a = sep then [a] :: cutAfter sep rest
    else match cutAfter sep rest with
      | [] => [[a]]
      | piece :: more => (a :: piece) :: more

@[simp] theorem cutAfter_nil [DecidableEq α] (sep : α) : cutAfter sep [] = [] := rfl

/-- Cutting loses nothing. -/
@[simp] theorem flatten_cutAfter [DecidableEq α] (sep : α) (s : List α) :
    (cutAfter sep s).flatten = s := by
  induction s with
  | nil => rfl
  | cons a rest ih =>
    by_cases h : a = sep
    · simp [cutAfter, h, ih]
    · cases hc : cutAfter sep rest <;> simp_all [cutAfter]

/-- What is cut after separators has no empty piece. -/
theorem ne_nil_of_mem_cutAfter [DecidableEq α] {sep : α} {s piece : List α}
    (h : piece ∈ cutAfter sep s) : piece ≠ [] := by
  induction s generalizing piece with
  | nil => simp at h
  | cons a rest ih =>
    by_cases ha : a = sep
    · simp only [cutAfter, ha, if_true, List.mem_cons] at h
      rcases h with rfl | h
      · simp
      · exact ih h
    · cases hc : cutAfter sep rest with
      | nil => simp_all [cutAfter]
      | cons first more =>
        simp only [cutAfter, ha, hc, if_false, List.mem_cons] at h
        rcases h with rfl | h
        · simp
        · exact ih (by simp [hc, h])

/-- A list that ends with the separator can be cut apart from what follows it. -/
theorem cutAfter_append [DecidableEq α] (sep : α) (s t : List α) :
    cutAfter sep (s ++ sep :: t) = cutAfter sep (s ++ [sep]) ++ cutAfter sep t := by
  induction s with
  | nil => simp [cutAfter]
  | cons a rest ih =>
    by_cases h : a = sep
    · simp [cutAfter, h, ih]
    · have hne : cutAfter sep (rest ++ [sep]) ≠ [] := by
        intro he
        have := congrArg List.flatten he
        simp at this
      cases hc : cutAfter sep (rest ++ [sep]) with
      | nil => exact absurd hc hne
      | cons first more => simp [cutAfter, h, ih, hc]

/-- What ends with its only separator is one piece. -/
theorem cutAfter_concat [DecidableEq α] {sep : α} {s : List α} (h : sep ∉ s) :
    cutAfter sep (s ++ [sep]) = [s ++ [sep]] := by
  induction s with
  | nil => simp [cutAfter]
  | cons a rest ih =>
    rw [List.mem_cons, not_or] at h
    simp [cutAfter, Ne.symm h.1, ih h.2]

end ContainerUsage.Text
