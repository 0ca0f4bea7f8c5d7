import Mathlib.Data.Finmap
import ScriptPreprocessor.Text.Basic

namespace ScriptPreprocessor

/-!
# Entries

A list of entries gives values to names, and the first entry of a name is the one that counts.  So a
list of entries is read as a finite map (`Entries.toMap`).  An entry in front binds its name in the
map, and taking all entries of a name away takes the name out of it.
-/

namespace Entries

variable {α : Type}

/-- The entries whose names pass a test give those names their values, and no other name one. -/
theorem lookup_filter (test : Text → Bool) (entries : List (Text × α)) (name : Text) :
    (entries.filter fun entry => test entry.1).lookup name =
      if test name then entries.lookup name else none := by
  induction entries with
  | nil => simp
  | cons entry rest ih =>
    rcases entry with ⟨other, value⟩
    by_cases same : name = other
    · subst other
      cases passes : test name with
      | true => simp [passes]
      | false => simpa [passes] using ih
    · cases passes : test other with
      | true => simp [passes, List.lookup_cons, beq_eq_false_iff_ne.2 same, ih]
      | false => simp [passes, List.lookup_cons, beq_eq_false_iff_ne.2 same, ih]

theorem lookup_filter_ne (entries : List (Text × α)) (key other : Text) :
    (entries.filter fun entry => entry.1 != key).lookup other =
      if other = key then none else entries.lookup other := by
  rw [lookup_filter (· != key)]
  by_cases same : other = key <;> simp [same]

theorem lookup_map {β : Type} (change : α → β) (entries : List (Text × α)) (name : Text) :
    (entries.map fun entry => (entry.1, change entry.2)).lookup name =
      (entries.lookup name).map change := by
  induction entries with
  | nil => rfl
  | cons entry rest ih =>
    rcases entry with ⟨other, value⟩
    rw [List.map_cons, List.lookup_cons, List.lookup_cons, ih]
    cases name == other <;> rfl

/-- The finite map that a list of entries stands for. -/
def toMap (entries : List (Text × α)) : Finmap fun _ : Text => α :=
  (entries.map fun entry => (⟨entry.1, entry.2⟩ : Sigma fun _ : Text => α)).toFinmap

@[simp] theorem lookup_toMap (entries : List (Text × α)) (name : Text) :
    (toMap entries).lookup name = entries.lookup name := by
  unfold toMap
  rw [Finmap.dlookup_list_toFinmap]
  induction entries with
  | nil => rfl
  | cons entry rest ih =>
    rcases entry with ⟨other, value⟩
    by_cases same : name = other
    · subst other
      simp
    · rw [List.map_cons, List.dlookup_cons_ne _ _ same, ih, List.lookup_cons,
        beq_eq_false_iff_ne.2 same]

theorem toMap_cons (name : Text) (value : α) (rest : List (Text × α)) :
    toMap ((name, value) :: rest) = (toMap rest).insert name value := by
  unfold toMap
  rw [List.map_cons, Finmap.toFinmap_cons]

theorem toMap_filter_ne (entries : List (Text × α)) (name : Text) :
    toMap (entries.filter fun entry => entry.1 != name) = (toMap entries).erase name := by
  apply Finmap.ext_lookup
  intro other
  rw [lookup_toMap, lookup_filter_ne]
  by_cases same : other = name
  · rw [if_pos same, same, Finmap.lookup_erase]
  · rw [if_neg same, Finmap.lookup_erase_ne same, lookup_toMap]

theorem mem_toMap {entries : List (Text × α)} {name : Text} :
    name ∈ toMap entries ↔ (entries.lookup name).isSome = true := by
  rw [← Finmap.lookup_isSome, lookup_toMap]

end Entries

end ScriptPreprocessor
