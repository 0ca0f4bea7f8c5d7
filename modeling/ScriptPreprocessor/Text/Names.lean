import ScriptPreprocessor.Text.Basic

namespace ScriptPreprocessor

/-!
# Numbers of different names

`Names.count` is the number of different names in a list.  A list whose names all occur in another
list has no more of them, and it has fewer when it lacks one.
-/

namespace Names

def distinct : List Text → List Text
  | [] => []
  | name :: names => if name ∈ names then distinct names else name :: distinct names

def count (names : List Text) : Nat :=
  (distinct names).length

@[simp] theorem mem_distinct {name : Text} {names : List Text} :
    name ∈ distinct names ↔ name ∈ names := by
  induction names with
  | nil => simp [distinct]
  | cons head tail ih =>
    by_cases again : head ∈ tail
    · simp only [distinct, again, if_true, ih, List.mem_cons]
      exact ⟨.inr, fun member => member.elim (fun same => same ▸ again) id⟩
    · simp [distinct, again, ih]

theorem nodup_distinct (names : List Text) : (distinct names).Nodup := by
  induction names with
  | nil => simp [distinct]
  | cons head tail ih =>
    by_cases again : head ∈ tail
    · simpa [distinct, again] using ih
    · simpa [distinct, again] using ih

/-- A list without repetitions is no longer than a list that holds all its members. -/
theorem length_le_of_nodup {inner outer : List Text} (once : inner.Nodup)
    (contained : inner ⊆ outer) : inner.length ≤ outer.length := by
  induction inner generalizing outer with
  | nil => simp
  | cons head tail ih =>
    obtain ⟨fresh, tailOnce⟩ := List.nodup_cons.1 once
    have present : head ∈ outer := contained (by simp)
    have remaining : tail ⊆ outer.erase head := by
      intro member inTail
      have different : member ≠ head := fun same => fresh (same ▸ inTail)
      exact (List.mem_erase_of_ne different).2 (contained (List.mem_cons_of_mem _ inTail))
    have shorter := ih tailOnce remaining
    rw [List.length_erase_of_mem present] at shorter
    have := List.length_pos_of_mem present
    simp only [List.length_cons]
    omega

/-- A list has no more names than a list that holds all of them. -/
theorem count_le {inner outer : List Text} (contained : inner ⊆ outer) :
    count inner ≤ count outer :=
  length_le_of_nodup (nodup_distinct inner) fun _ member =>
    mem_distinct.2 (contained (mem_distinct.1 member))

/-- A list has fewer names than a list that holds all of them and one more. -/
theorem count_lt {inner outer : List Text} (name : Text) (contained : inner ⊆ outer)
    (present : name ∈ outer) (absent : name ∉ inner) : count inner < count outer := by
  have larger : name :: inner ⊆ outer := List.cons_subset.2 ⟨present, contained⟩
  have more := count_le larger
  simp only [count, distinct, absent, if_false, List.length_cons] at more ⊢
  omega

end Names

end ScriptPreprocessor
