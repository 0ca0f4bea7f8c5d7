import ScriptPreprocessor.Proofs.Run.Units

namespace ScriptPreprocessor

/-!
# Splices

A preprocessor is started once, and then it is given answers, whatever they are and however many.
What happens to units on the way is written down beside it: the names that were answered with a
unit, the names under which units were put on the stack, and the outputs that were handed out
(`UnitLog`).

At every point the names on the stack differ, and a name is answered with a unit at most once.  The
accepted units are listed in the order in which they were accepted.  When units are included only
once, every accepted unit is spliced exactly once; when they are always included, an include of a
unit that is being expanded has no effect but its report (`Preprocessor.units_of_calls`).
-/

/-- What has happened to units. -/
structure UnitLog where
  /-- The names that were answered with a unit, with the unit. -/
  accepted : ResolvedUnits := []
  /-- The names under which units were put on the stack, above the main unit. -/
  spliced : List Text := []
  outputs : List RunOutput := []

/-- The units that are listed as resolved: by the first output or, before there is one, by the
preprocessor. -/
def UnitLog.listed (log : UnitLog) (preprocessor : Preprocessor) : List SourceUnit :=
  match log.outputs with
  | [] => preprocessor.output.units
  | output :: _ => output.units

namespace Preprocessor

variable {options : RunOptions} {environment : Environment} {main : SourceUnit}

/-- The name of the unit that has come onto the stack, if the stack has grown. -/
def newKeys (before after : Preprocessor) : List Text :=
  if before.frames.length < after.frames.length then
    (after.frames.head?.map Frame.key).toList
  else []

/-- The preprocessor behind a start and answers, and what each call has come to. -/
def calls (options : RunOptions) (environment : Environment) (main : SourceUnit)
    (answers : List IncludeAnswer) : Preprocessor × List RunResult :=
  let started := (ofEnvironment options environment).start main
  answers.foldl (fun state answer =>
    let resumed := state.1.resume answer
    (resumed.1, state.2 ++ [resumed.2])) (started.1, [started.2])

/-- What holds at every point. -/
structure TracksUnits (main : SourceUnit) (log : UnitLog) (preprocessor : Preprocessor) :
    Prop where
  orderly : preprocessor.IsOrderly main
  keys : (preprocessor.frames.map Frame.key).Nodup
  /-- A unit that is asked for is not being expanded. -/
  asks : ∀ request, preprocessor.pending = some request →
    request.target ∉ preprocessor.frames.map Frame.key
  /-- Behind the first output nothing is left to do. -/
  phase : log.outputs = [] ∧ preprocessor.resolved = log.accepted ∨
    preprocessor.frames = [] ∧ preprocessor.pending = none
  accepted : (log.accepted.map Prod.fst).Nodup
  listed : log.listed preprocessor = log.accepted.map Prod.snd
  spliced : preprocessor.options.includeMode = .once → log.spliced = log.accepted.map Prod.fst

variable {log : UnitLog} {preprocessor next : Preprocessor}

theorem newKeys_of_le (notGrown : next.frames.length ≤ preprocessor.frames.length) :
    preprocessor.newKeys next = [] :=
  if_neg (Nat.not_lt.2 notGrown)

theorem options_of_move {reading : Option Reading} (move : Move preprocessor reading next) :
    next.options = preprocessor.options := by
  cases move with
  | leave => rfl
  | read _ _ placement => cases placement <;> rfl

/-- A move keeps the names on the stack different, it splices nothing when units are included only
once, and it asks for no unit that is being expanded. -/
theorem keys_of_move {reading : Option Reading} (move : Move preprocessor reading next)
    (idle : preprocessor.pending = none) (keys : (preprocessor.frames.map Frame.key).Nodup) :
    (next.frames.map Frame.key).Nodup ∧
      (preprocessor.options.includeMode = .once → preprocessor.newKeys next = []) ∧
      ∀ request, next.pending = some request →
        request.target ∉ next.frames.map Frame.key := by
  have quiet : ∀ request, preprocessor.pending ≠ some request := by simp [idle]
  cases move with
  | @leave frame below stack exhausted =>
    rw [stack] at keys
    refine ⟨(List.nodup_cons.1 keys).2, fun _ => newKeys_of_le ?_,
      fun request waiting => (quiet request waiting).elim⟩
    rw [stack]
    exact Nat.le_succ _
  | @read frame below line unread _ stack lines placement =>
    have same := keys_behind line unread stack
    have sameLength := congrArg List.length same
    rw [List.length_map, List.length_map] at sameLength
    cases placement with
    | plain | skip | cycle =>
      exact ⟨same ▸ keys, fun _ => newKeys_of_le sameLength.le,
        fun request waiting => (quiet request waiting).elim⟩
    | @reuse target unit asked always known fresh =>
      refine ⟨?_, fun once => absurd once always,
        fun request waiting => (quiet request waiting).elim⟩
      rw [List.map_cons, same]
      exact List.nodup_cons.2 ⟨fun member => by
        rcases List.mem_map.1 member with ⟨other, there, key⟩
        exact fresh other there key, keys⟩
    | @ask target asked unknown fresh =>
      refine ⟨same ▸ keys, fun _ => newKeys_of_le sameLength.le, ?_⟩
      rintro _ ⟨⟩ member
      rcases List.mem_map.1 (same ▸ member) with ⟨other, there, key⟩
      exact fresh other there key

theorem TracksUnits.move {reading : Option Reading} (tracks : preprocessor.TracksUnits main log)
    (idle : preprocessor.pending = none) (move : Move preprocessor reading next) :
    next.TracksUnits main { log with spliced := log.spliced ++ preprocessor.newKeys next } := by
  rcases keys_of_move move idle tracks.keys with ⟨keys, once, asks⟩
  have resolved := resolved_of_move move
  refine ⟨tracks.orderly.move idle move, keys, asks, ?_, tracks.accepted, ?_, ?_⟩
  · rw [resolved]
    refine tracks.phase.imp id ?_
    rintro ⟨empty, _⟩
    cases move with
    | leave stack | read stack =>
      rw [stack] at empty
      cases empty
  · rw [← tracks.listed]
    unfold UnitLog.listed output
    rw [resolved]
  · intro mode
    rw [options_of_move move] at mode
    rw [once mode, List.append_nil]
    exact tracks.spliced mode

theorem TracksUnits.withoutOutput (tracks : preprocessor.TracksUnits main log)
    (idle : preprocessor.pending = none) (empty : preprocessor.frames = []) :
    preprocessor.withoutOutput.TracksUnits main
      { log with outputs := log.outputs ++ [preprocessor.output] } := by
  have quiet : ∀ request, preprocessor.pending ≠ some request := by simp [idle]
  refine ⟨⟨?_, List.nodup_nil, List.not_mem_nil, nofun, fun request waiting => ?_⟩, tracks.keys,
    tracks.asks, Or.inr ⟨empty, idle⟩, tracks.accepted, ?_, tracks.spliced⟩
  · rw [Preprocessor.withoutOutput, empty]
    exact Frame.IsStack.empty
  · exact (quiet request waiting).elim
  · rw [← tracks.listed]
    unfold UnitLog.listed
    cases log.outputs <;> rfl

theorem TracksUnits.splice {request : IncludeRequest} (tracks : preprocessor.TracksUnits main log)
    (waiting : preprocessor.pending = some request) (unit : SourceUnit) :
    (preprocessor.splice request unit).TracksUnits main
      { log with
        accepted := log.accepted ++ [(request.target, unit.withFinalNewline)]
        spliced := log.spliced ++ preprocessor.newKeys (preprocessor.splice request unit) } := by
  have asks := tracks.orderly.asks request waiting
  have known : log.outputs = [] ∧ preprocessor.resolved = log.accepted :=
    tracks.phase.resolve_right fun ended => by simp [waiting] at ended
  have new : preprocessor.newKeys (preprocessor.splice request unit) = [request.target] :=
    if_pos (Nat.lt_succ_self _)
  refine ⟨tracks.orderly.answered waiting (.ok unit), ?_, nofun, Or.inl ⟨known.1, ?_⟩, ?_, ?_, ?_⟩
  · exact List.nodup_cons.2 ⟨tracks.asks request waiting, tracks.keys⟩
  · rw [Preprocessor.splice, known.2]
  · rw [List.map_append, ← known.2]
    exact List.Nodup.append tracks.orderly.distinct (List.nodup_singleton _)
      (List.disjoint_singleton.2 asks.2.2)
  · unfold UnitLog.listed
    rw [known.1, ← known.2]
    rfl
  · intro mode
    rw [new, tracks.spliced mode, List.map_append]
    rfl

theorem TracksUnits.fail {request : IncludeRequest} (tracks : preprocessor.TracksUnits main log)
    (waiting : preprocessor.pending = some request) (failure : IncludeFailure) :
    (preprocessor.fail request failure).TracksUnits main log := by
  refine ⟨tracks.orderly.answered waiting (.error failure), tracks.keys, nofun, ?_,
    tracks.accepted, tracks.listed, tracks.spliced⟩
  exact tracks.phase.imp id fun ended => ⟨ended.1, rfl⟩

/-- Behind a line that includes a unit, nothing has changed but the place in the unit. -/
theorem behind_of_target {frame : Frame} {below : List Frame} {line target : Text}
    (unread : List Text)
    (asked : (preprocessor.readingOf frame below line).effect.target = some target) :
    preprocessor.behind frame below line unread =
      { preprocessor with
        frames := { frame with unread, linesRead := frame.linesRead + 1 } :: below } := by
  have effect : (preprocessor.readingOf frame below line).effect =
      { state := preprocessor.lineState frame, target := some target } :=
    LineState.read_of_target asked
  simp [behind, apply, effect, advance, lineState]

end Preprocessor

end ScriptPreprocessor
