namespace ScriptPreprocessor

/-!
# Texts

Scripts, names, paths and messages are lists of characters, so that every function on them is a
recursion that a proof can follow.  Columns and lengths are still counted the way editors and
compilers of the scripting language count them, in bytes of the UTF-8 encoding; `Text.width` is
that count.

The operations below are the small vocabulary of the whole library: trimming at either end,
taking away a known beginning or ending, splitting at separators, and joining.
-/

abbrev Text := List Char

namespace Text

/-! ## Counting bytes -/

/-- The number of bytes that a text occupies in UTF-8.  Every column and every length of the library
is one of these, so that it means the same to a compiler that reads the bytes. -/
def width : Text → Nat
  | [] => 0
  | character :: rest => character.utf8Size + width rest

@[simp] theorem width_nil : width [] = 0 := rfl

@[simp] theorem width_cons (character : Char) (rest : Text) :
    width (character :: rest) = character.utf8Size + width rest := rfl

@[simp] theorem width_append (left right : Text) :
    width (left ++ right) = width left + width right := by
  induction left with
  | nil => simp
  | cons character rest ih => simp [ih, Nat.add_assoc]

/-! ## Trimming and stripping -/

/-- A text without the longest ending whose characters all satisfy a test. -/
def dropEndWhile (test : Char → Bool) (text : Text) : Text :=
  (text.reverse.dropWhile test).reverse

/-- A text without its longest matching beginning and ending. -/
def trimWhile (test : Char → Bool) (text : Text) : Text :=
  dropEndWhile test (text.dropWhile test)

def afterStart? (text start : Text) : Option Text :=
  start.isPrefixOf? text

def beforeEnd? (text ending : Text) : Option Text :=
  ending.isSuffixOf? text

def startsWith (text start : Text) : Bool :=
  start.isPrefixOf text

def endsWith (text ending : Text) : Bool :=
  ending.isSuffixOf text

theorem dropEndWhile_sublist (test : Char → Bool) (text : Text) :
    (dropEndWhile test text).Sublist text := by
  rw [← List.reverse_sublist, dropEndWhile, List.reverse_reverse]
  exact List.dropWhile_sublist test

theorem trimWhile_sublist (test : Char → Bool) (text : Text) : (trimWhile test text).Sublist text :=
  (dropEndWhile_sublist test _).trans (List.dropWhile_sublist test)

/-! ## Splitting and joining -/

/-- The parts of a text between separators.  There is always one part more than there are
separators, so empty parts are kept. -/
def splitOn (text : Text) (separator : Char → Bool) : List Text :=
  match text with
  | [] => [[]]
  | character :: rest =>
    if separator character then
      [] :: splitOn rest separator
    else
      match splitOn rest separator with
      | [] => [[character]]
      | part :: parts => (character :: part) :: parts

/-- Parts written one after another with a separator between them. -/
def join (separator : Text) : List Text → Text
  | [] => []
  | [part] => part
  | part :: next :: parts => part ++ separator ++ join separator (next :: parts)

/-- A text followed by a line feed, unless it is empty or ends in one already.  The empty text has
no line to be ended. -/
def withFinalNewline (text : Text) : Text :=
  if text.isEmpty || text.getLast? == some '\n' then text else text ++ ['\n']

def ofNat (number : Nat) : Text :=
  Nat.toDigits 10 number

theorem isDigit_of_mem_ofNat {number : Nat} {character : Char}
    (member : character ∈ ofNat number) : character.isDigit = true :=
  Nat.isDigit_of_mem_toDigits (by decide) (by decide) member

/-- The value of a digit, where letters follow the decimal digits.  It is asked only of characters
that are digits of some base. -/
def digitValue (digit : Char) : Nat :=
  if digit.isDigit then digit.toNat - '0'.toNat
  else if digit.isUpper then digit.toNat - 'A'.toNat + 10
  else digit.toNat - 'a'.toNat + 10

def digitsValue (digits : Text) (base : Nat := 10) : Nat :=
  digits.foldl (fun value digit => value * base + digitValue digit) 0

def isHexDigit (character : Char) : Bool :=
  character.isDigit || ('a' ≤ character && character ≤ 'f') ||
    ('A' ≤ character && character ≤ 'F')

/-- The character with the number that hexadecimal digits make, unless it is half of a surrogate
pair or too great. -/
def hexCharacter? (digits : Text) : Option Char :=
  let value := digitsValue digits 16
  if !digits.isEmpty && digits.all isHexDigit && value.isValidChar then some (Char.ofNat value)
  else none

def ofInt : Int → Text
  | .ofNat number => ofNat number
  | .negSucc number => '-' :: ofNat (number + 1)

/-- Texts in the order of their characters, a beginning before its continuation. -/
def isBefore (left right : Text) : Bool :=
  match left, right with
  | [], [] => false
  | [], _ :: _ => true
  | _ :: _, [] => false
  | first :: left, second :: right =>
    first < second || (first == second && isBefore left right)

end Text

end ScriptPreprocessor
