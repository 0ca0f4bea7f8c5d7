import Mathlib.Data.List.Basic
import ScriptPreprocessor.Proofs.Macro.Definitions

namespace ScriptPreprocessor

/-!
# What a table puts into lines

Apart from the place of a line, a table puts two kinds of texts into it: the texts of built-in
macros and the bodies of defined ones (`MacroTable.PutsOnly`).  What holds of all of them still
holds behind a definition whose body has it, and behind every removal; and it holds at the beginning
of a run when the built-in texts and the predefined values have it.
-/

/-- The text that a macro is replaced by before its parameters are put in. -/
def Macro.body : Macro → Text
  | .object body => body
  | .function _ body => body

namespace MacroTable

/-- Something holds of every built-in text and of every body. -/
structure PutsOnly (Holds : Text → Prop) (table : MacroTable) : Prop where
  builtins : ∀ entry ∈ table.builtins, Holds entry.2
  bodies : ∀ entry ∈ table.definitions, Holds entry.2.body

variable {Holds : Text → Prop} {table after : MacroTable} {line : Origin}

/-- What a word is replaced by that does not tell the place of the line. -/
theorem PutsOnly.replacement (puts : table.PutsOnly Holds) {word : Text}
    (notFile : word ≠ fileMacro) (notLine : word ≠ lineMacro) {replacement : Replacement}
    (found : table.replacement? line word = some replacement) :
    match replacement with
    | .builtin text => Holds text
    | .defined definition => Holds definition.body := by
  simp only [replacement?, if_neg notFile, if_neg notLine] at found
  split at found
  · next text known =>
    cases found
    rcases List.lookup_eq_some_iff.1 known with ⟨earlier, later, shape, _⟩
    exact puts.builtins (word, text) (by simp [shape])
  · rcases Option.map_eq_some_iff.1 found with ⟨definition, known, rfl⟩
    rcases List.lookup_eq_some_iff.1 known with ⟨earlier, later, shape, _⟩
    exact puts.bodies (word, definition) (by simp [shape])

theorem PutsOnly.insert (puts : table.PutsOnly Holds) {name : Text} {definition : Macro}
    (inBody : Holds definition.body) (inserted : table.insert name definition = .ok after) :
    after.PutsOnly Holds := by
  rcases insert_eq_ok_iff.1 inserted with ⟨_, rfl⟩
  exact ⟨puts.builtins, List.forall_mem_cons.2 ⟨inBody, puts.bodies⟩⟩

/-- A definition puts in only what its line says. -/
theorem PutsOnly.define (puts : table.PutsOnly Holds) {argument name : Text}
    (inBody : ∀ definition, Macro.IsWritten argument name definition → Holds definition.body)
    (defined : table.define argument = .ok (name, after)) : after.PutsOnly Holds := by
  rcases define_eq_ok_iff.1 defined with ⟨definition, written, inserted⟩
  exact puts.insert (inBody definition written) inserted

theorem PutsOnly.remove (puts : table.PutsOnly Holds) {name : Text} {existed : Bool}
    (removed : table.remove name = .ok (existed, after)) : after.PutsOnly Holds := by
  rcases remove_eq_ok_iff.1 removed with ⟨_, _, rfl⟩
  exact ⟨puts.builtins, fun entry member => puts.bodies entry (List.mem_of_mem_filter member)⟩

theorem putsOnly_ofEnvironment {environment : Environment} (maxDepth : Nat)
    (builtins : ∀ entry ∈ environment.builtins, Holds entry.2)
    (predefined : ∀ entry ∈ environment.predefined, Holds entry.2) :
    (ofEnvironment environment maxDepth).PutsOnly Holds := by
  refine ofEnvironment_induction ⟨builtins, List.forall_mem_nil _⟩ ?_
  intro current after name value member inserted puts
  have inValue : Holds (Macro.object value).body := predefined (name, value) member
  exact puts.insert inValue inserted

/-- The built-in macros at the beginning of a run are those of the environment. -/
theorem builtins_ofEnvironment (environment : Environment) (maxDepth : Nat) :
    (ofEnvironment environment maxDepth).builtins = environment.builtins := by
  refine ofEnvironment_induction rfl ?_
    (motive := fun table : MacroTable => table.builtins = environment.builtins)
  intro current after name value _ inserted same
  rcases insert_eq_ok_iff.1 inserted with ⟨_, rfl⟩
  exact same

end MacroTable

/-- An environment in which nothing is predefined. -/
def Environment.bare : Environment :=
  { dateFormat := [], timeFormat := [], clock := ⟨0, 1, 1, 0, 0, 0⟩ }

/-- The macros in that environment behind one definition. -/
def MacroTable.bareWith (name body : Text) : MacroTable :=
  ⟨[(name, .object body)], Environment.bare.builtins, 32⟩

end ScriptPreprocessor
