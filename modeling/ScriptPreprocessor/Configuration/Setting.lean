import ScriptPreprocessor.Json.Basic
import ScriptPreprocessor.Toml.Basic

namespace ScriptPreprocessor

/-!
# Settings

A configuration may be written as TOML or as JSON.  Both are first reduced to settings, which keep
what a configuration can be made of and forget how it was written.
-/

/-- A value in a configuration file, as far as a configuration can use it.  Fractions, dates and
numbers that are too large are all the same here: they are refused wherever they stand. -/
inductive Setting where
  /-- Nothing, where something may be left out. -/
  | missing
  | flag (value : Bool)
  /-- A natural number of at most 64 bits. -/
  | natural (value : Nat)
  | text (value : Text)
  | list (items : List Setting)
  | table (members : List (Text × Setting))
  /-- A value that no setting can have. -/
  | unusable

/-- What differs between the forms in which settings are written.  Everything else about reading a
configuration is shared by them. -/
structure SettingForm where
  /-- Whether a setting holds nothing. -/
  holdsNothing : Setting → Bool
  /-- Whether a list may have more items than there are settings to be given by it. -/
  admitsSurplus : Bool

namespace Setting

def naturalLimit : Nat := 0x10000000000000000

def ofNat (value : Nat) : Setting :=
  if value < naturalLimit then .natural value else .unusable

/-! ## From JSON -/

mutual

/-- The setting that a JSON value is.  An object in which a name has no text is of no use. -/
def ofJson : Json → Setting
  | .null => .missing
  | .boolean value => .flag value
  | .number literal =>
    match Json.natural? naturalLimit (.number literal) with
    | some value => .natural value
    | none => .unusable
  | .string literal =>
    match Json.literalText? literal with
    | some content => .text content
    | none => .unusable
  | .array items => .list (ofJsonItems items)
  | .object members =>
    match ofJsonMembers members with
    | some members => .table members
    | none => .unusable

def ofJsonItems : List Json → List Setting
  | [] => []
  | item :: items => ofJson item :: ofJsonItems items

def ofJsonMembers : List (Text × Json) → Option (List (Text × Setting))
  | [] => some []
  | (name, value) :: members =>
    match Json.literalText? name, ofJsonMembers members with
    | some name, some settings => some ((name, ofJson value) :: settings)
    | _, _ => none

end

/-! ## From TOML -/

mutual

def ofToml : Toml → Setting
  | .string content => .text content
  | .integer (.ofNat value) => ofNat value
  | .integer (.negSucc _) => .unusable
  | .boolean value => .flag value
  | .literal _ => .unusable
  | .array items => .list (ofTomlItems items)
  | .table members => .table (ofTomlMembers members)

def ofTomlItems : List Toml → List Setting
  | [] => []
  | item :: items => ofToml item :: ofTomlItems items

def ofTomlMembers : List (Text × Toml) → List (Text × Setting)
  | [] => []
  | (name, value) :: members => (name, ofToml value) :: ofTomlMembers members

end

/-! ## Reading settings -/

def flag? : Setting → Option Bool
  | .flag value => some value
  | _ => none

def natural? : Setting → Option Nat
  | .natural value => some value
  | _ => none

def text? : Setting → Option Text
  | .text value => some value
  | _ => none

/-- A setting that may be missing.  That is different from one that is there and has the wrong kind,
which makes the whole configuration unreadable. -/
def optional? {α : Type} (decode : Setting → Option α) : Setting → Option (Option α)
  | .missing => some none
  | setting => (decode setting).map some

/-- The setting under a name of a table.  A name must not stand there twice: neither of the two
would be the one that was meant. -/
def member? (members : List (Text × Setting)) (name : Text) : Option Setting :=
  match members.filter fun member => member.1 == name with
  | [] => some .missing
  | [(_, setting)] => some setting
  | _ => none

/-- The settings under some names.  A list gives them in order, and must not have fewer; more than
there are names are passed over only where a form admits a surplus. -/
def fields? (form : SettingForm) (names : List Text) : Setting → Option (List Setting)
  | .table members => names.mapM (member? members)
  | .list items =>
    if items.length = names.length ∨ (form.admitsSurplus ∧ names.length ≤ items.length) then
      some (items.take names.length)
    else none
  | _ => none

/-- The list of pairs in the order of their names with one more pair, which replaces a pair of the
same name.  Folded over a list it sorts the pairs and keeps the last of each name. -/
def insertByName (pair : Text × Text) : List (Text × Text) → List (Text × Text)
  | [] => [pair]
  | first :: rest =>
    if first.1 == pair.1 then pair :: rest
    else if pair.1.isBefore first.1 then pair :: first :: rest
    else first :: insertByName pair rest

/-- A table of texts, in the order of their names. -/
def texts? : Setting → Option (List (Text × Text))
  | .table members => do
    let pairs ← members.mapM fun (name, setting) => do return (name, ← setting.text?)
    return pairs.foldl (fun sorted pair => insertByName pair sorted) []
  | _ => none

end Setting

end ScriptPreprocessor
