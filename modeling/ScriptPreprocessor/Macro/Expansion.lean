import ScriptPreprocessor.Macro.Call
import ScriptPreprocessor.Macro.Table

namespace ScriptPreprocessor

/-!
# Expansion of a line

An expansion is a list of segments: text that is copied, and invocations with what replaces them.
Copying the segments and writing out the invocations gives the line back; writing the replacements
instead gives the expanded line, and the running widths of both are the recorded spans.

A replacement is expanded again with its macro marked as active.  An active macro is not replaced
but reported, and so is one that would nest deeper than the table allows; hence the number of
macros that may still become active bounds the nesting, and the expansion ends.
-/

/-- A problem met while a line is expanded.  None of them stops it: the invocation stays as it was
written, and the line goes on behind it. -/
inductive ExpansionIssue where
  /-- The macro reached itself and was left as it is. -/
  | recursive (name : Text)
  /-- The macro would nest too deeply and was left as it is. -/
  | tooDeep (name : Text)
  /-- The call has a wrong number of arguments and was left as it is. -/
  | argumentCount (name : Text) (expected found : Nat)
  deriving DecidableEq, Repr

/-- A part of an expanded line.  A replacement is kept whole, with the replacements inside it
already made, because only the outer invocation stands in the source line. -/
inductive Segment where
  | copied (text : Text)
  | replaced (invocation replacement : Text)
  deriving DecidableEq, Repr

namespace Segment

def expanded : Segment → Text
  | .copied text => text
  | .replaced _ replacement => replacement

def source : Segment → Text
  | .copied text => text
  | .replaced invocation _ => invocation

/-- The spans of the replaced invocations, when the first segment stands at the given columns of
the expanded and the source line. -/
def spansFrom (expandedColumn sourceColumn : Nat) : List Segment → List MacroSpan
  | [] => []
  | .copied text :: more =>
    spansFrom (expandedColumn + text.width) (sourceColumn + text.width) more
  | .replaced invocation replacement :: more =>
    { expandedStart := expandedColumn
      expandedEnd := expandedColumn + replacement.width
      sourceColumn := sourceColumn
      sourceLength := invocation.width } ::
      spansFrom (expandedColumn + replacement.width) (sourceColumn + invocation.width) more

end Segment

/-- An expanded line, and what was noticed on the way.  The issues are in the order in which a
reader of the line meets them. -/
structure Expansion where
  segments : List Segment := []
  issues : List ExpansionIssue := []
  deriving DecidableEq, Repr

namespace Expansion

def text (expansion : Expansion) : Text :=
  expansion.segments.flatMap Segment.expanded

def source (expansion : Expansion) : Text :=
  expansion.segments.flatMap Segment.source

def spans (expansion : Expansion) : List MacroSpan :=
  Segment.spansFrom 0 0 expansion.segments

def prepend (segment : Segment) (issues : List ExpansionIssue) (expansion : Expansion) :
    Expansion :=
  ⟨segment :: expansion.segments, issues ++ expansion.issues⟩

@[simp] theorem text_prepend (segment : Segment) (issues : List ExpansionIssue)
    (expansion : Expansion) :
    (expansion.prepend segment issues).text = segment.expanded ++ expansion.text := rfl

@[simp] theorem source_prepend (segment : Segment) (issues : List ExpansionIssue)
    (expansion : Expansion) :
    (expansion.prepend segment issues).source = segment.source ++ expansion.source := rfl

@[simp] theorem segments_prepend (segment : Segment) (issues : List ExpansionIssue)
    (expansion : Expansion) :
    (expansion.prepend segment issues).segments = segment :: expansion.segments := rfl

end Expansion

/-- The number of arguments that a call has for a macro.  A macro without parameters is called with
an empty pair of parentheses, which for any other macro is one empty argument. -/
def argumentCount (parameters arguments : List Text) : Nat :=
  if parameters.isEmpty && arguments == [[]] then 0 else arguments.length

/-- The expansion of a text on a line while some macros are active.  Arguments are expanded before
they are put into the body, with the macros that are active around the call; what comes out is
expanded once more with the body, where the called macro is active too.  A body never reaches behind
its own end: a name there that takes arguments does not find them in the text that follows the
invocation. -/
def MacroTable.expandActive (table : MacroTable) (line : Origin) (active : List Text) :
    Text → Expansion
  | [] => {}
  | character :: rest =>
    match _shape : Piece.first character rest with
    | (.word name, after) =>
      match table.replacement? line name with
      | none => (table.expandActive line active after).prepend (.copied name) []
      | some replacement =>
        if name ∈ active then
          (table.expandActive line active after).prepend (.copied name) [.recursive name]
        else
          match replacement with
          | .builtin text =>
            (table.expandActive line active after).prepend (.replaced name text) []
          | .defined (.object body) =>
            if active.length < table.maxDepth then
              let inner := table.expandActive line (name :: active) body
              (table.expandActive line active after).prepend (.replaced name inner.text)
                inner.issues
            else
              (table.expandActive line active after).prepend (.copied name) [.tooDeep name]
          | .defined (.function parameters body) =>
            match _found : Call.parse? after with
            | none => (table.expandActive line active after).prepend (.copied name) []
            | some call =>
              let count := argumentCount parameters call.arguments
              let invocation := name ++ call.source
              if count ≠ parameters.length then
                (table.expandActive line active call.after).prepend (.copied invocation)
                  [.argumentCount name parameters.length count]
              else if active.length < table.maxDepth then
                let arguments := call.arguments.attach.map fun argument =>
                  table.expandActive line active argument.val
                let inner := table.expandActive line (name :: active)
                  (Piece.substitute parameters (arguments.map Expansion.text) body)
                (table.expandActive line active call.after).prepend
                  (.replaced invocation inner.text)
                  (arguments.flatMap Expansion.issues ++ inner.issues)
              else
                (table.expandActive line active call.after).prepend (.copied invocation)
                  [.tooDeep name]
    | (other, after) => (table.expandActive line active after).prepend (.copied other.text) []
  termination_by text => (table.maxDepth - active.length, text.length)
  decreasing_by
    · exact .right _ (Piece.length_after_lt _shape)
    · exact .right _ (Piece.length_after_lt _shape)
    · exact .right _ (Piece.length_after_lt _shape)
    · next room => exact .left _ _ (Nat.sub_lt_sub_left room (Nat.lt_succ_self _))
    · exact .right _ (Piece.length_after_lt _shape)
    · exact .right _ (Piece.length_after_lt _shape)
    · exact .right _ (Piece.length_after_lt _shape)
    · exact .right _ (Nat.lt_trans (Call.length_after_lt _found) (Piece.length_after_lt _shape))
    · exact .right _ (Nat.lt_of_le_of_lt (Call.length_argument_le _found argument.property)
        (Piece.length_after_lt _shape))
    · next room => exact .left _ _ (Nat.sub_lt_sub_left room (Nat.lt_succ_self _))
    · exact .right _ (Nat.lt_trans (Call.length_after_lt _found) (Piece.length_after_lt _shape))
    · exact .right _ (Nat.lt_trans (Call.length_after_lt _found) (Piece.length_after_lt _shape))
    · exact .right _ (Piece.length_after_lt _shape)

def MacroTable.expand (table : MacroTable) (line : Origin) (text : Text) : Expansion :=
  table.expandActive line [] text

end ScriptPreprocessor
