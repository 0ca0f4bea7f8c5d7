import ScriptPreprocessor.Text.Blank
import ScriptPreprocessor.Text.Lines
import ScriptPreprocessor.Text.Search

namespace ScriptPreprocessor

/-!
# Directive lines

A directive is a line whose first character other than a space or a tab is `#`.  More spaces and
tabs may follow; the directive's name is the run of characters up to the next blank, and its
argument is the rest of the line, trimmed.  Every line that begins this way is a directive, also
when its name is not a known one.
-/

inductive DirectiveKind where
  /-- `#include` -/
  | inclusion
  /-- `#define` -/
  | definition
  /-- `#undef` -/
  | removal
  /-- `#ifdef` -/
  | ifDefined
  /-- `#ifndef` -/
  | ifNotDefined
  /-- `#if` -/
  | ifTrue
  /-- `#elif` -/
  | elseIf
  /-- `#else` -/
  | otherwise
  /-- `#endif` -/
  | endIf
  /-- `#pragma` -/
  | pragma
  /-- `#warning` -/
  | warning
  /-- `#error` -/
  | error
  /-- Any other name after the `#`. -/
  | unknown
  deriving DecidableEq, Repr

namespace DirectiveKind

/-- The known directive names.  Capitals count, so `#Include` is an unknown directive. -/
def names : List (Text × DirectiveKind) :=
  [("include".toList, .inclusion), ("define".toList, .definition), ("undef".toList, .removal),
    ("ifdef".toList, .ifDefined), ("ifndef".toList, .ifNotDefined), ("if".toList, .ifTrue),
    ("elif".toList, .elseIf), ("else".toList, .otherwise), ("endif".toList, .endIf),
    ("pragma".toList, .pragma), ("warning".toList, .warning), ("error".toList, .error)]

def ofName (name : Text) : DirectiveKind :=
  ((names.find? fun entry => entry.1 == name).map Prod.snd).getD .unknown

/-- Whether a directive opens, continues or closes a conditional block.  These are read even where a
block is switched off, to find its end. -/
def isConditional : DirectiveKind → Bool
  | .ifDefined | .ifNotDefined | .ifTrue | .elseIf | .otherwise | .endIf => true
  | _ => false

end DirectiveKind

/-- A directive line taken apart.  The name is kept beside the kind since an unknown directive is
reported by it. -/
structure Directive where
  kind : DirectiveKind
  name : Text
  argument : Text
  deriving DecidableEq, Repr

namespace Directive

/-- Reads a line as a directive; a plain line is none.  The ending of the line belongs to neither
the name nor the argument. -/
def parse? (line : Text) : Option Directive :=
  match line.withoutEnding.dropWhile isSpaceOrTab with
  | '#' :: rest =>
    let rest : Text := rest.dropWhile isSpaceOrTab
    let name : Text := rest.takeWhile fun character => !isBlank character
    let argument : Text := rest.dropWhile fun character => !isBlank character
    some ⟨DirectiveKind.ofName name, name, argument.trim⟩
  | _ => none

/-- The name between two delimiters that an argument consists of.  A delimiter in between belongs to
the name, as only the two ends are looked at. -/
def delimited? (opening closing : Char) (argument : Text) : Option Text := do
  let rest ← argument.afterStart? [opening]
  rest.beforeEnd? [closing]

/-- The name that `#include "name"` or `#include <name>` asks for, trimmed.  A blank name is none.
The two ways of writing it ask for the same unit. -/
def includeTarget? (argument : Text) : Option Text :=
  match (delimited? '"' '"' argument).orElse fun _ => delimited? '<' '>' argument with
  | none => none
  | some inner => if inner.trim.isEmpty then none else some inner.trim

/-- The name that a line asks for when it is an active `#include`.  Whether it is active depends on
the lines before it, so this is only what the line can ask for. -/
def lineTarget? (line : Text) : Option Text := do
  let directive ← parse? line
  if directive.kind = .inclusion then includeTarget? directive.argument else none

def targets (lines : List Text) : List Text :=
  lines.filterMap lineTarget?

end Directive

/-! ## The need for preprocessing -/

/-- Names in a line that only preprocessing gives a meaning, besides directives.  The last one is
the common beginning of several names. -/
def builtinMarkers : List Text :=
  ["__DATE__".toList, "__TIME__".toList, "__FILE__".toList, "__LINE__".toList,
    "__AGENT_ID__".toList, "__AGENT_NAME__".toList, "__VIEWER_".toList]

/-- Whether a directive has an effect of its own.  An unknown one is only copied, and one that
continues or closes a block means nothing without the line that opens it. -/
def DirectiveKind.hasEffect : DirectiveKind → Bool
  | .unknown | .elseIf | .otherwise | .endIf => false
  | _ => true

/-- Whether a line must be preprocessed.  A marker counts wherever it stands, also in a comment or
inside a longer name. -/
def lineNeedsPreprocessing (line : Text) : Bool :=
  ((Directive.parse? line).any fun directive => directive.kind.hasEffect) ||
    builtinMarkers.any fun marker => line.contains marker

/-- Whether a script must be preprocessed before it is saved.  A script without any such line is
stored as plain text, which keeps it readable outside of the editor. -/
def needsPreprocessing (text : Text) : Bool :=
  text.lines.any lineNeedsPreprocessing

end ScriptPreprocessor
