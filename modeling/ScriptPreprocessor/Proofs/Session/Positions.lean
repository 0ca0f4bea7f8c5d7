import ScriptPreprocessor.Proofs.Macro.Columns
import ScriptPreprocessor.Proofs.Session.EntrySearch
import ScriptPreprocessor.Proofs.Session.Lines

namespace ScriptPreprocessor

/-!
# Positions of bytes

A position that a session gives for a byte of the expanded text leads back to the line that the
byte was emitted for.  A byte that was copied stands there at the column of the position; for a
byte of a replacement, the column is where the invocation begins (`Position.Meets`).

The name in a position means one unit only: known units have different names, and none has the name
of the main unit.
-/

/-! ## Entries of numbered maps -/

namespace LineMap

theorem isNumbered_of_entryAt {map : LineMap} {emitted : List Emission}
    (numbered : map.entries.toList = emitted.mapIdx Emission.entryAt) : map.IsNumbered := by
  intro index entry found
  rw [← Array.getElem?_toList, numbered, List.getElem?_mapIdx] at found
  rcases Option.map_eq_some_iff.1 found with ⟨emission, _, rfl⟩
  rfl

theorem entry?_of_numbered {map : LineMap} {emitted : List Emission} {index : Nat}
    {emission : Emission} (numbered : map.entries.toList = emitted.mapIdx Emission.entryAt)
    (found : emitted[index]? = some emission) :
    map.entry? (index + 1) = some (emission.entryAt index) := by
  have isNumbered := isNumbered_of_entryAt numbered
  have size : map.size = emitted.length := by
    rw [LineMap.size, ← Array.length_toList, numbered, List.length_mapIdx]
  have inside := (List.getElem?_eq_some_iff.1 found).1
  have place : clamp emitted.length (index + 1) - 1 = index := clamp_sub_one_of_le inside
  rw [isNumbered.entry?_eq, size, place, ← Array.getElem?_toList, numbered,
    List.getElem?_mapIdx, found]
  rfl

end LineMap

/-! ## Readings that emit -/

namespace Reading

/-- The readings that contribute a line, in the order of the lines. -/
def emitters (readings : List Reading) : List Reading :=
  readings.filter fun reading => reading.emission?.isSome

theorem map_emission?_emitters (readings : List Reading) :
    (emitters readings).map emission? = (readings.filterMap emission?).map some := by
  induction readings with
  | nil => rfl
  | cons reading more ih =>
    unfold emitters at ih ⊢
    cases emitted : reading.emission? with
    | none => simpa [emitted] using ih
    | some emission => simpa [emitted] using ih

theorem exists_emitter {readings : List Reading} {index : Nat} {emission : Emission}
    (found : (readings.filterMap emission?)[index]? = some emission) :
    ∃ reading, (emitters readings)[index]? = some reading ∧ reading ∈ readings ∧
      reading.emission? = some emission := by
  have same := congrArg (fun list => list[index]?) (map_emission?_emitters readings)
  simp only [List.getElem?_map, found, Option.map_some] at same
  rcases Option.map_eq_some_iff.1 same with ⟨reading, there, emitted⟩
  exact ⟨reading, there, List.mem_of_mem_filter (List.mem_of_getElem? there), emitted⟩

end Reading

/-- A position that leads from a column of an emitted line, which holds a byte, to the line that was
read for it. -/
structure Position.Meets (position : Position) (reading : Reading) (emission : Emission)
    (column : Nat) (byte : UInt8) : Prop where
  unit : position.unit = reading.unit.name
  line : position.line = reading.index + 1
  inInclude : position.inInclude = reading.isIncluded
  /-- Outside of all replacements, the same byte stands at the position. -/
  copied : (∀ span ∈ emission.spans, ¬ span.Covers column) →
    1 ≤ position.column ∧ (Utf8.encode reading.line)[position.column - 1]? = some byte
  /-- Inside of a replacement, an invocation begins at the position. -/
  replaced : ∀ span ∈ emission.spans, span.Covers column →
    ∃ before invocation after : Text, reading.line = before ++ invocation ++ after ∧
      reading.state.macros.IsInvocation reading.origin invocation ∧
      span.sourceColumn = before.width ∧ span.sourceLength = invocation.width ∧
      position.column = before.width + 1

namespace Reading

variable {reading : Reading} {emission : Emission} {index column : Nat} {byte : UInt8}

/-- The column that the entry of an emitted line gives for a byte leads back to the line read. -/
theorem meets_of_emission (emitted : reading.emission? = some emission)
    (there : (Utf8.encode emission.text)[column]? = some byte) {position : Position}
    (unit : position.unit = reading.unit.name) (line : position.line = reading.index + 1)
    (inInclude : position.inInclude = reading.isIncluded)
    (shown : position.column = (emission.entryAt index).sourceColumnOf column + 1) :
    position.Meets reading emission column byte := by
  rcases Option.map_eq_some_iff.1 emitted with ⟨segments, contributed, rfl⟩
  have source : segments.flatMap Segment.source = reading.line :=
    LineState.source_of_emitted contributed
  have noShift : ((0 : Nat) : Int) - ((0 : Nat) : Int) = 0 := rfl
  refine ⟨unit, line, inInclude, ?_, ?_⟩
  · intro outside
    have bound := (List.getElem?_eq_some_iff.1 there).1
    rw [Utf8.length_encode] at bound
    have met := @Segment.getElem?_sourceColumnFrom segments 0 0 column (Nat.zero_le column)
      ((Nat.zero_add _).symm ▸ bound) outside
    rw [noShift, source, Nat.sub_zero] at met
    refine ⟨by omega, ?_⟩
    rw [shown, Nat.add_sub_cancel]
    exact met.2.trans there
  · intro span member covers
    have column := @Segment.sourceColumnFrom_of_mem segments 0 0 column 0 span member covers
    rcases Segment.exists_replaced_of_mem_spansFrom member with
      ⟨before, after, invocation, replacement, shape, rfl⟩
    have shape : segments = before ++ .replaced invocation replacement :: after := shape
    have known : Segment.replaced invocation replacement ∈ segments := by simp [shape]
    refine ⟨before.flatMap Segment.source, invocation, after.flatMap Segment.source, ?_,
      LineState.isInvocation_of_emitted contributed known, Nat.zero_add _, rfl, ?_⟩
    · rw [← source, shape]
      simp [Segment.source]
    · rw [shown]
      refine congrArg (· + 1) (column.trans (Nat.zero_add _))

end Reading

/-- A session leads from a byte of a line of its output back to the line that was read for it. -/
structure Session.LeadsBack (session : Session) (main : SourceUnit) (output : RunOutput)
    (index column : Nat) (byte : UInt8) (reading : Reading) (emission : Emission)
    (position : Position) : Prop where
  emitted : reading.emission? = some emission
  entry : output.lineMap.entries[index]? = some (emission.entryAt index)
  shown : session.position? (index + 1) (column + 1) = some position
  meets : position.Meets reading emission column byte
  found : reading.unit.line? reading.index = some reading.line
  outer : reading.isIncluded = false → reading.unit = main
  included : reading.isIncluded = true → reading.unit ∈ output.units
  /-- The name in the position means no other unit. -/
  unique : ∀ other, other = main ∨ other ∈ output.units → other.name = position.unit →
    other = reading.unit

namespace Session

variable {options : RunOptions} {environment : Environment} {main : SourceUnit}
  {session : Session} {output : RunOutput} {readings : List Reading}

/-- The units of a finished session have different names, and none has the name of the main unit. -/
theorem Journal.names_distinct (journal : Journal options environment main output readings) :
    (output.units.map SourceUnit.name).Nodup ∧ main.name ∉ output.units.map SourceUnit.name := by
  rcases journal with ⟨last, follows, _, shape⟩
  have orderly := follows.orderly (isOrderly_opening options environment main)
  have named := follows.named rfl fun request unit fits => fits unit rfl
  have sameNames : output.units.map SourceUnit.name = last.resolved.map Prod.fst := by
    rw [shape]
    simp only [Preprocessor.output, List.map_map]
    exact List.map_congr_left named
  rw [sameNames]
  exact ⟨orderly.distinct, orderly.notMain⟩

theorem Journal.isFrom (journal : Journal options environment main output readings)
    {reading : Reading} (member : reading ∈ readings) :
    reading.unit.line? reading.index = some reading.line ∧
      (reading.isIncluded = false → reading.unit = main) ∧
      (reading.isIncluded = true → reading.unit ∈ output.units) := by
  rcases journal with ⟨last, follows, _, shape⟩
  have isFrom := follows.isFrom (isOrderly_opening options environment main) reading member
  refine ⟨isFrom.found, isFrom.outer, fun inside => ?_⟩
  rcases isFrom.included inside with ⟨key, known⟩
  rw [shape]
  exact List.mem_map.2 ⟨(key, reading.unit), known, rfl⟩

/-- A reading is of an included unit exactly when its unit has another name than the main one. -/
theorem Journal.name_ne_main_iff (journal : Journal options environment main output readings)
    {reading : Reading} (member : reading ∈ readings) :
    (reading.unit.name != main.name) = reading.isIncluded := by
  have isFrom := journal.isFrom member
  have notMain := journal.names_distinct.2
  cases inside : reading.isIncluded with
  | false => simp [isFrom.2.1 inside]
  | true =>
    have named := List.mem_map_of_mem (f := SourceUnit.name) (isFrom.2.2 inside)
    rw [bne_iff_ne]
    intro same
    rw [same] at named
    exact notMain named

/-- No other unit has the name of the unit of a reading. -/
theorem Journal.unit_eq_of_name (journal : Journal options environment main output readings)
    {reading : Reading} (member : reading ∈ readings) {other : SourceUnit}
    (known : other = main ∨ other ∈ output.units) (sameName : other.name = reading.unit.name) :
    other = reading.unit := by
  have isFrom := journal.isFrom member
  have distinct := journal.names_distinct
  cases inside : reading.isIncluded with
  | false =>
    have outer := isFrom.2.1 inside
    rcases known with isMain | included
    · rw [isMain, outer]
    · have named := List.mem_map_of_mem (f := SourceUnit.name) included
      rw [sameName, outer] at named
      exact absurd named distinct.2
  | true =>
    have included := isFrom.2.2 inside
    rcases known with rfl | otherIncluded
    · have named := List.mem_map_of_mem (f := SourceUnit.name) included
      rw [← sameName] at named
      exact absurd named distinct.2
    · exact List.inj_on_of_nodup_map distinct.1 otherIncluded included sameName

/-- Without line feeds in built-in texts, predefined values and the name of the main unit, the
position that a session gives for a byte of its expanded text leads to the line that was read for
it, in the only unit of that name. -/
theorem position_meets (reached : Reached options environment main session)
    (done : session.phase = .done output)
    (builtins : ∀ entry ∈ environment.builtins, '\n' ∉ entry.2)
    (predefined : ∀ entry ∈ environment.predefined, '\n' ∉ entry.2) (name : '\n' ∉ main.name) :
    ∃ readings, Journal options environment main output readings ∧
      ∀ (index column : Nat) (line : Text) (byte : UInt8),
        output.expanded.lines[index]? = some line → (Utf8.encode line)[column]? = some byte →
        ∃ reading emission position,
          (Reading.emitters readings)[index]? = some reading ∧ emission.text = line ∧
          session.LeadsBack main output index column byte reading emission position := by
  rcases (isRunOf_of_reached reached).done output done with ⟨readings, journal⟩
  refine ⟨readings, journal, ?_⟩
  intro index column line byte found there
  rcases journal.exists_emission builtins predefined name found with ⟨emission, inEmitted, rfl⟩
  rcases Reading.exists_emitter inEmitted with ⟨reading, inEmitters, member, emitted⟩
  have isFrom := journal.isFrom member
  have entry := LineMap.entry?_of_numbered journal.entries_eq inEmitted
  have origin : emission.origin = reading.origin := by
    rcases Option.map_eq_some_iff.1 emitted with ⟨segments, _, rfl⟩
    rfl
  have shown : session.position? (index + 1) (column + 1) =
      some ⟨reading.unit.name, reading.index + 1,
        (emission.entryAt index).sourceColumnOf column + 1, reading.isIncluded⟩ := by
    have source : session.source = main := (isRunOf_of_reached reached).source
    unfold position?
    simp only [done, source, LineMap.position?, entry, Option.map_some, Emission.entryAt, origin,
      Reading.origin, if_true, Nat.add_sub_cancel, journal.name_ne_main_iff member]
  refine ⟨reading, emission, _, inEmitters, rfl, emitted, ?_, shown, ?_, isFrom.1, isFrom.2.1,
    isFrom.2.2, ?_⟩
  · rw [← Array.getElem?_toList, journal.entries_eq, List.getElem?_mapIdx, inEmitted]
    rfl
  · exact Reading.meets_of_emission emitted there rfl rfl rfl rfl
  · intro other known sameName
    exact journal.unit_eq_of_name member known sameName

/-- The line of an included unit holds a replacement, and copied bytes behind it. -/
theorem position_meets_number :
    ∃ main session output readings,
      main.text = "#define N 42\n#include \"a\"\n".toList ∧ Reached {} .bare main session ∧
      session.phase = .done output ∧ output.expanded = "42 x\n".toList ∧
      (∀ entry ∈ Environment.bare.builtins, '\n' ∉ entry.2) ∧
      (∀ entry ∈ Environment.bare.predefined, '\n' ∉ entry.2) ∧ '\n' ∉ main.name ∧
      Journal {} .bare main output readings ∧
      ∀ column byte, (Utf8.encode "42 x\n".toList)[column]? = some byte →
        ∃ reading emission position,
          (Reading.emitters readings)[0]? = some reading ∧ emission.text = "42 x\n".toList ∧
          session.LeadsBack main output 0 column byte reading emission position := by
  have steps : ∃ after last,
      advances 5 ({ files := .ofEntries [("./a".toList, .contents [78, 32, 120])] },
          opening {} .bare ⟨"m".toList, "#define N 42\n#include \"a\"\n".toList, none⟩) =
        some (after, last) ∧ last.step = .finish ∧
      last.emissions.toList =
        [⟨⟨"a".toList, 1⟩, ((MacroTable.bareWith "N".toList "42".toList).expand
          ⟨"a".toList, 1⟩ ('N' :: " x\n".toList)).segments⟩] :=
    ⟨_, _, rfl, rfl, rfl⟩
  rcases steps with ⟨after, last, reached, finished, emissions⟩
  have done := phase_completed reached finished
  have replaced : ((MacroTable.bareWith "N".toList "42".toList).expand ⟨"a".toList, 1⟩
      ('N' :: " x\n".toList)).text = "42 x\n".toList := by
    unfold MacroTable.expand
    rw [MacroTable.text_expandActive_of_object "N".toList "42".toList rfl rfl
      (by decide) (by decide), MacroTable.text_expandActive_of_absent (by decide),
      MacroTable.text_expandActive_of_absent (by decide)]
    rfl
  have expanded : last.output.expanded = "42 x\n".toList := by
    rw [last.expanded_output, emissions]
    simp only [List.flatMap_cons, List.flatMap_nil, Emission.text_mk, replaced, List.append_nil]
  have reachable := reached_completed
    { files := .ofEntries [("./a".toList, .contents [78, 32, 120])] } {} .bare
    ⟨"m".toList, "#define N 42\n#include \"a\"\n".toList, none⟩
  rcases position_meets reachable done (by decide) (by decide) (by decide) with
    ⟨readings, journal, leads⟩
  refine ⟨_, _, last.output, readings, rfl, reachable, done, expanded, by decide, by decide,
    by decide, journal, ?_⟩
  intro column byte there
  exact leads 0 column "42 x\n".toList byte (by rw [expanded]; rfl) there

end Session

end ScriptPreprocessor
