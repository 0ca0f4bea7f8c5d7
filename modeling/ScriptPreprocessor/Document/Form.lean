import ScriptPreprocessor.Document.Escape
import ScriptPreprocessor.Document.Legacy

namespace ScriptPreprocessor

/-!
# Stored documents

A stored script has one of four forms: the plain text itself, a compiled script followed by its
escaped sources, an include script, or a legacy document.  Loading recovers the text that the user
last edited; it never fails, because a document whose markers cannot be used is loaded whole.
Saving first reduces what it is given to the text that it stores, so that saving a stored document
again stores the same text.
-/

inductive DocumentForm where
  | plain
  | preprocessed
  | inclusion
  | legacy
  deriving DecidableEq, Repr

/-- A document prepared for editing: the text, the form it was stored in, and the compiled text
that was stored with it. -/
structure LoadedDocument where
  text : Text
  form : DocumentForm
  compiled : Option Text
  deriving DecidableEq, Repr

namespace Document

/-- Whether a document can be read as an include script.  Its marker alone is not enough: a damaged
block makes it an ordinary document. -/
def isInclude (document : Text) : Bool :=
  match decodeInclude document with
  | .ok _ => true
  | .error _ => false

/-- The form of a stored document.  A legacy document is recognized first, by a marker that may
stand anywhere in it; the marker of an include script counts only when its block can be read. -/
def classify (document : Text) : DocumentForm :=
  if isLegacy document then .legacy
  else if isInclude document then .inclusion
  else if hasMarker escapedMarker document then .preprocessed
  else .plain

def plain (document : Text) : LoadedDocument :=
  ⟨document, .plain, none⟩

/-- The text of a stored document, with its form.  A block that cannot be read, or that holds
nothing, leaves the document as it is, so that nothing is lost by loading. -/
def load (document : Text) : LoadedDocument :=
  match classify document with
  | .plain => plain document
  | .legacy => ⟨convertLegacy document, .legacy, legacyCompiled? document⟩
  | .inclusion =>
    match decodeInclude document with
    | .ok text => ⟨text, .inclusion, none⟩
    | .error _ => plain document
  | .preprocessed =>
    match unescapeBlock document with
    | .ok text =>
      if text.isEmpty then plain document
      else ⟨text, .preprocessed, some (stripBlock document)⟩
    | .error _ => plain document

/-- The stored form of a script: its expanded text, an empty line, and its escaped text.  An empty
script is stored as nothing. -/
def save (script expanded : Text) : Text :=
  let source := (load script).text
  if source.isEmpty then []
  else (stripBlock expanded).withFinalNewline ++ '\n' :: escape source

/-- The stored form of an include script, which may be given in its stored form.  Escaping that once
more would make it an include script about itself. -/
def saveInclude (script : Text) : Text :=
  match decodeInclude script with
  | .ok source => encodeInclude source
  | .error _ => encodeInclude script

/-- The text of a stored document that an `#include` of it splices.  From a compiled script that is
the compiled text, not the sources it was made from: those may need definitions that the including
script does not have. -/
def includeSource (document : Text) : Text :=
  match classify document with
  | .plain => document
  | .preprocessed => stripBlock document
  | .legacy => convertLegacy document
  | .inclusion =>
    match decodeInclude document with
    | .ok text => text
    | .error _ => document

end Document

end ScriptPreprocessor
