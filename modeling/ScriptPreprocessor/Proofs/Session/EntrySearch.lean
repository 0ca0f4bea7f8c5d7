import Mathlib.Data.List.Induction
import ScriptPreprocessor.LineMap

namespace ScriptPreprocessor

/-!
# Looking up entries by number

Every line that is recorded takes the number behind the last one, so the entries of a line map are
numbered from one without a gap (`LineMap.IsNumbered`).  The entry with the greatest number up to a
line is therefore the one at that place.  A line in front of all entries goes to the first one, and
a line behind them to the last one (`LineMap.IsNumbered.entry?_eq`).

Because the numbers increase, the entry can be searched by halving (`LineMap.search?`).  The search
never looks behind the last entry, and on numbered maps it finds the same entry.
-/

/-! ## Search by halving -/

section Boundary

variable {α : Type}

/-- Where the items that pass a test end, when it lies between two places and the test holds up to
it only. -/
def boundary (test : α → Bool) (items : Array α) (low high : Nat) (within : high ≤ items.size) :
    Nat :=
  if apart : low < high then
    let middle := (low + high) / 2
    if test items[middle] then boundary test items (middle + 1) high within
    else boundary test items low middle (by omega)
  else low
  termination_by high - low

/-- The search ends at the first item that fails the test, when none behind it passes. -/
theorem boundary_eq {test : α → Bool} {items : Array α} {place : Nat}
    (passes : ∀ (index : Nat) (inside : index < items.size),
      test items[index] = true ↔ index < place)
    {low high : Nat} {within : high ≤ items.size} (above : low ≤ place) (below : place ≤ high) :
    boundary test items low high within = place := by
  fun_induction boundary test items low high within with
  | case1 low high within apart middle passed ih =>
    have front := (passes middle (by omega)).1 passed
    exact ih front below
  | case2 low high within apart middle failed ih =>
    have behind : ¬ middle < place := mt (passes middle (by omega)).2 failed
    exact ih above (Nat.le_of_not_lt behind)
  | case3 low high within meet =>
    omega

end Boundary

namespace LineMap

variable {map : LineMap}

/-- The entry for an expanded line, searched by halving unless the last entry is not behind it. -/
def search? (map : LineMap) (line : Nat) : Option LineEntry :=
  match map.entries.back? with
  | none => none
  | some last =>
    if last.expandedLine ≤ line then some last
    else
      let behind := boundary (fun entry => decide (entry.expandedLine ≤ line)) map.entries 0
        map.entries.size (Nat.le_refl _)
      map.entries[behind - 1]?

/-! ## Numbered maps -/

/-- The entries are numbered from one in their order. -/
def IsNumbered (map : LineMap) : Prop :=
  ∀ (index : Nat) (entry : LineEntry), map.entries[index]? = some entry →
    entry.expandedLine = index + 1

theorem isNumbered_empty : IsNumbered {} := by
  intro index entry found
  simp at found

theorem IsNumbered.push (numbered : map.IsNumbered) (origin : Origin) (spans : List MacroSpan) :
    (map.push origin spans).IsNumbered := by
  intro index entry found
  rw [LineMap.push, Array.getElem?_push] at found
  split at found
  · next last =>
    cases found
    rw [last, size]
  · exact numbered index entry found

/-- The map in which lines are recorded in order. -/
def ofLines (lines : List (Origin × List MacroSpan)) : LineMap :=
  lines.foldl (fun map line => map.push line.1 line.2) {}

theorem ofLines_concat (lines : List (Origin × List MacroSpan)) (line : Origin × List MacroSpan) :
    ofLines (lines ++ [line]) = (ofLines lines).push line.1 line.2 := by
  rw [ofLines, List.foldl_append]
  rfl

theorem isNumbered_ofLines (lines : List (Origin × List MacroSpan)) :
    (ofLines lines).IsNumbered := by
  induction lines using List.reverseRecOn with
  | nil => exact isNumbered_empty
  | append_singleton earlier line ih =>
    rw [ofLines_concat]
    exact ih.push line.1 line.2

theorem size_ofLines (lines : List (Origin × List MacroSpan)) :
    (ofLines lines).size = lines.length := by
  induction lines using List.reverseRecOn with
  | nil => rfl
  | append_singleton earlier line ih => rw [ofLines_concat, size_push, ih, List.length_append,
      List.length_singleton]

theorem getElem?_ofLines (lines : List (Origin × List MacroSpan)) (index : Nat) :
    (ofLines lines).entries[index]? =
      lines[index]?.map fun line => ⟨index + 1, line.1, line.2⟩ := by
  induction lines using List.reverseRecOn with
  | nil => rfl
  | append_singleton earlier line ih =>
    have size : (ofLines earlier).entries.size = earlier.length := size_ofLines earlier
    rw [ofLines_concat, push, Array.getElem?_push, size, LineMap.size, size]
    by_cases last : index = earlier.length
    · subst last
      simp
    · rw [if_neg last, ih]
      grind

/-- A line brought into the range of numbers that a map of some size has. -/
def clamp (size line : Nat) : Nat :=
  max 1 (min line size)

theorem clamp_sub_one_of_le {size line : Nat} (within : line ≤ size) :
    clamp size line - 1 = line - 1 := by
  rw [clamp]
  omega

theorem clamp_sub_one_of_ge {size line : Nat} (behind : size ≤ line) :
    clamp size line - 1 = size - 1 := by
  rw [clamp]
  omega

/-- The entries with numbers up to a line are the first ones. -/
theorem filter_entries_le {entries : List LineEntry} {first line : Nat}
    (numbered : ∀ (index : Nat) (entry : LineEntry), entries[index]? = some entry →
      entry.expandedLine = first + index + 1) :
    entries.filter (fun entry => entry.expandedLine ≤ line) = entries.take (line - first) := by
  induction entries generalizing first with
  | nil => simp
  | cons entry rest ih =>
    have number := numbered 0 entry rfl
    have later := @ih (first + 1) fun index other found => by
      rw [numbered (index + 1) other found]
      omega
    by_cases within : first < line
    · have more : line - first = line - (first + 1) + 1 := by omega
      rw [List.filter_cons_of_pos (by simp [number]; omega), later, more, List.take_succ_cons]
    · have none : line - first = 0 := by omega
      have noMore : line - (first + 1) = 0 := by omega
      rw [List.filter_cons_of_neg (by simp [number]; omega), later, none, noMore]
      rfl

/-- The entry that is looked up for a line has the clamped number. -/
theorem IsNumbered.entry?_eq (numbered : map.IsNumbered) (line : Nat) :
    map.entry? line = map.entries[clamp map.size line - 1]? := by
  have upTo : map.entries.toList.filter (fun entry => entry.expandedLine ≤ line) =
      map.entries.toList.take line := by
    have taken := @filter_entries_le map.entries.toList 0 line fun index entry found => by
      rw [Array.getElem?_toList] at found
      rw [numbered index entry found, Nat.zero_add]
    exact taken
  have size : map.size = map.entries.toList.length := Array.length_toList.symm
  unfold entry?
  rw [upTo, ← Array.getElem?_toList, size]
  generalize map.entries.toList = entries
  rw [List.getLast?_take]
  by_cases within : line ≤ entries.length
  · rw [clamp_sub_one_of_le within]
    by_cases front : line = 0
    · simp [front, List.head?_eq_getElem?]
    · have found : line - 1 < entries.length := by omega
      simp [front, found]
  · have filled : line ≠ 0 := by omega
    have missing : entries[line - 1]? = none := List.getElem?_eq_none (by omega)
    rw [clamp_sub_one_of_ge (Nat.le_of_not_le within), if_neg filled, missing, Option.none_or,
      List.getLast?_eq_getElem?]
    cases entries <;> simp

/-- The search by halving finds the same entry. -/
theorem IsNumbered.search?_eq (numbered : map.IsNumbered) (line : Nat) :
    map.search? line = map.entry? line := by
  rw [numbered.entry?_eq, search?, Array.back?]
  cases last : map.entries[map.entries.size - 1]? with
  | none =>
    have empty : map.entries.size = 0 := by
      have bound := Array.getElem?_eq_none_iff.1 last
      omega
    simp [empty]
  | some entry =>
    have filled : map.entries.size - 1 < map.entries.size := (Array.getElem?_eq_some_iff.1 last).1
    have number : entry.expandedLine = map.entries.size := by
      rw [numbered _ entry last]
      omega
    by_cases behind : map.entries.size ≤ line
    · have place : clamp map.size line - 1 = map.entries.size - 1 := clamp_sub_one_of_ge behind
      simp [number, behind, place, last]
    · have ends : boundary (fun entry => decide (entry.expandedLine ≤ line)) map.entries 0
          map.entries.size (Nat.le_refl _) = line := by
        refine boundary_eq (fun index inside => ?_) (Nat.zero_le _) (by omega)
        rw [decide_eq_true_iff, numbered index _ (Array.getElem?_eq_getElem inside)]
        omega
      have place : clamp map.size line - 1 = line - 1 :=
        clamp_sub_one_of_le (Nat.le_of_not_le behind)
      simp [number, behind, ends, place]

section Recorded

variable (lines : List (Origin × List MacroSpan)) (line : Nat)

theorem entry?_ofLines : LineMap.entry? (ofLines lines) line =
    lines[clamp lines.length line - 1]?.map fun recorded =>
      ⟨clamp lines.length line, recorded.1, recorded.2⟩ := by
  have numbered := isNumbered_ofLines lines
  have positive : clamp lines.length line - 1 + 1 = clamp lines.length line := by
    rw [clamp]
    omega
  rw [numbered.entry?_eq, size_ofLines, getElem?_ofLines, positive]

theorem entry?_ofLines_eq_none_iff :
    LineMap.entry? (ofLines lines) line = none ↔ lines = [] := by
  rw [entry?_ofLines, Option.map_eq_none_iff, List.getElem?_eq_none_iff,
    ← List.length_eq_zero_iff, clamp]
  omega

variable {lines line}

/-- Only a line that was recorded is found under its own number. -/
theorem expandedLine_eq_iff {entry : LineEntry}
    (found : LineMap.entry? (ofLines lines) line = some entry) :
    entry.expandedLine = line ↔ 1 ≤ line ∧ line ≤ lines.length := by
  rw [entry?_ofLines] at found
  rcases Option.map_eq_some_iff.1 found with ⟨recorded, there, rfl⟩
  have inside := (List.getElem?_eq_some_iff.1 there).1
  simp only [clamp] at inside ⊢
  omega

end Recorded

/-- Whatever lines were recorded, a look-up fails exactly when there were none.  Otherwise it finds
the entry of the clamped line, also by halving.  Its position has the column that the spans of the
entry lead to when the line itself was recorded, and the first column when it had to be clamped. -/
theorem lookUp_ofLines (lines : List (Origin × List MacroSpan)) (mainUnit : Text)
    (line column : Nat) :
    let map := ofLines lines
    let number := clamp lines.length line
    (map.entry? line = none ↔ lines = []) ∧
      map.entry? line =
        lines[number - 1]?.map (fun recorded => ⟨number, recorded.1, recorded.2⟩) ∧
      map.search? line = map.entry? line ∧
      (map.position? mainUnit line column = none ↔ lines = []) ∧
      map.position? mainUnit line column =
        (map.entry? line).map fun entry =>
          { unit := entry.origin.unit
            line := entry.origin.line
            column :=
              if 1 ≤ line ∧ line ≤ lines.length then entry.sourceColumnOf (column - 1) + 1 else 1
            inInclude := entry.origin.unit != mainUnit } := by
  intro map number
  have missing := entry?_ofLines_eq_none_iff lines line
  refine ⟨missing, entry?_ofLines lines line, (isNumbered_ofLines lines).search?_eq line, ?_, ?_⟩
  · rw [position?, Option.map_eq_none_iff, missing]
  · refine Option.map_congr fun entry found => ?_
    simp only [expandedLine_eq_iff found]

end LineMap

end ScriptPreprocessor
