import Mathlib
import ContainerUsage.Container.Scope
import ContainerUsage.Task.Basic

/-!
# The keys of tasks

A task key is an identifier and a namespace with a hyphen between them. Two keys are equal only if
one of them is cut at another of its hyphens than the other (`taskKey_eq_iff`). Where namespaces
have no hyphen, the last hyphen of a key is the one between the two, so the key tells them both
(`taskKey_inj`). The namespaces of the container runtimes are of this kind
(`Runtime.hyphen_notMem_ns`).
-/

namespace ContainerUsage

/-- Two lists with a separator in them are equal if they are so part by part, or if one of them is
cut at an earlier separator than the other. Then what stands between the two is the end of one first
part and the start of one second part. -/
theorem append_cons_eq_append_cons_iff {α : Type} {a : α} {xs xs' ys ys' : List α} :
    xs ++ a :: ys = xs' ++ a :: ys' ↔ (xs = xs' ∧ ys = ys') ∨
      (∃ zs, xs = xs' ++ a :: zs ∧ ys' = zs ++ a :: ys) ∨
      ∃ zs, xs' = xs ++ a :: zs ∧ ys = zs ++ a :: ys' := by
  constructor
  · intro heq
    rcases List.append_eq_append_iff.1 heq with ⟨zs, rfl, hzs⟩ | ⟨zs, rfl, hzs⟩
    · cases zs with
      | nil => exact .inl ⟨by simp, (List.cons.inj hzs).2⟩
      | cons z zs =>
        obtain ⟨rfl, hys⟩ := List.cons.inj hzs
        exact .inr (.inr ⟨zs, rfl, hys⟩)
    · cases zs with
      | nil => exact .inl ⟨by simp, (List.cons.inj hzs).2.symm⟩
      | cons z zs =>
        obtain ⟨rfl, hys⟩ := List.cons.inj hzs
        exact .inr (.inl ⟨zs, rfl, hys⟩)
  · rintro (⟨rfl, rfl⟩ | ⟨zs, rfl, rfl⟩ | ⟨zs, rfl, rfl⟩)
    · rfl
    · simp
    · simp

/-- Two lists with a separator are cut at the last one, if it stands in neither end. -/
theorem append_cons_inj_of_notMem_right {α : Type} {a : α} {xs xs' ys ys' : List α} (h : a ∉ ys)
    (h' : a ∉ ys') : xs ++ a :: ys = xs' ++ a :: ys' ↔ xs = xs' ∧ ys = ys' := by
  rw [append_cons_eq_append_cons_iff]
  constructor
  · rintro (heq | ⟨zs, -, rfl⟩ | ⟨zs, -, rfl⟩)
    · exact heq
    · exact absurd (by simp) h'
    · exact absurd (by simp) h
  · exact .inl

/-- The characters of a key. -/
theorem toList_taskKey (id ns : String) :
    (taskKey id ns).toList = id.toList ++ '-' :: ns.toList := by
  simp [taskKey]

/-- **Keys collide in one way only**: the identifier of the one container goes on, behind a hyphen,
with what the namespace of the other one starts with. -/
theorem taskKey_eq_iff {id ns id' ns' : String} :
    taskKey id ns = taskKey id' ns' ↔ (id, ns) = (id', ns') ∨
      (∃ middle, id = id' ++ "-" ++ middle ∧ ns' = middle ++ "-" ++ ns) ∨
        ∃ middle, id' = id ++ "-" ++ middle ∧ ns = middle ++ "-" ++ ns' := by
  have hjoined : ∀ {s t u : String}, s = t ++ "-" ++ u ↔
      s.toList = t.toList ++ '-' :: u.toList := by
    intro s t u
    rw [← String.toList_inj]
    simp
  have hmiddle : Function.Surjective String.toList := fun s => ⟨.ofList s, String.toList_ofList⟩
  rw [← String.toList_inj, toList_taskKey, toList_taskKey, append_cons_eq_append_cons_iff,
    Prod.mk.injEq, String.toList_inj, String.toList_inj]
  simp only [hjoined, hmiddle.exists]

/-- **Keys tell tasks apart** whose namespaces have no hyphen. -/
theorem taskKey_inj {id ns id' ns' : String} (h : '-' ∉ ns.toList) (h' : '-' ∉ ns'.toList) :
    taskKey id ns = taskKey id' ns' ↔ id = id' ∧ ns = ns' := by
  rw [← String.toList_inj, toList_taskKey, toList_taskKey, append_cons_inj_of_notMem_right h h',
    String.toList_inj, String.toList_inj]

/-- No namespace of a container runtime has a hyphen. -/
theorem Runtime.hyphen_notMem_ns (runtime : Runtime) : '-' ∉ runtime.ns.toList := by
  cases runtime <;> decide

end ContainerUsage
