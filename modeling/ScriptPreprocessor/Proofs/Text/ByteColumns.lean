import Mathlib.Data.List.Basic
import ScriptPreprocessor.Proofs.Macro.Columns
import ScriptPreprocessor.Proofs.Text.Spelling

namespace ScriptPreprocessor

/-!
# Texts by byte columns

A scanner that keeps a byte column in a text can go wrong in ways in which a recursion on its
characters cannot: the column may lie behind the text, a part may begin or end within a character,
and a loop may stand still.  Here such accesses are checked, and every fault is told apart
(`ScanFault`).

A scanner looks for ASCII characters only.  The bytes of other characters are no ASCII bytes, so it
finds the same characters in the bytes as in the text, and at columns between characters every
access succeeds.
-/

/-- What can go wrong in a scanner that counts bytes. -/
inductive ScanFault where
  /-- A byte or an argument behind the last one. -/
  | index
  /-- A part of a text that does not lie in it or cuts a character. -/
  | cut
  /-- A counter below zero. -/
  | counter
  /-- A turn of a loop that does not advance. -/
  | standstill
  /-- An argument that is not shorter than the text in which the call stands. -/
  | argument
  /-- A list of active macros that repeats a name or is too long. -/
  | active
  deriving DecidableEq, Repr

/-- A column behind another. -/
abbrev Ahead (column : Nat) :=
  { later : Nat // column < later }

/-- A column that must lie behind another. -/
def ahead (column later : Nat) : Except ScanFault (Ahead column) :=
  if advances : column < later then .ok ⟨later, advances⟩ else .error .standstill

theorem ahead_of_lt {column later : Nat} (advances : column < later) :
    ahead column later = .ok ⟨later, advances⟩ :=
  dif_pos advances

/-! ## Parts of texts -/

namespace Text

/-- A text divided at a column that lies between two characters. -/
def divide? : Nat → Text → Option (Text × Text)
  | 0, text => some ([], text)
  | _ + 1, [] => none
  | column + 1, character :: rest =>
    if character.utf8Size ≤ column + 1 then
      (divide? (column + 1 - character.utf8Size) rest).map fun (front, back) =>
        (character :: front, back)
    else none

/-- The part of a text between two columns. -/
def cut (text : Text) (start stop : Nat) : Except ScanFault Text :=
  if start ≤ stop then
    match text.divide? start with
    | none => .error .cut
    | some (_, rest) =>
      match rest.divide? (stop - start) with
      | none => .error .cut
      | some (part, _) => .ok part
  else .error .cut

theorem divide?_append (front back : Text) :
    divide? front.width (front ++ back) = some (front, back) := by
  induction front with
  | nil => cases back <;> rfl
  | cons character rest ih =>
    have positive := character.utf8Size_pos
    have whole := width_cons character rest
    obtain ⟨column, same⟩ : ∃ column, width (character :: rest) = column + 1 :=
      Nat.exists_eq_succ_of_ne_zero (by omega)
    have behind : column + 1 - character.utf8Size = width rest := by omega
    rw [same, List.cons_append, divide?, if_pos (by omega), behind, ih]
    rfl

/-- A part between characters can be cut out. -/
theorem cut_append (front part back : Text) :
    cut (front ++ (part ++ back)) front.width (front ++ part).width = .ok part := by
  have length : (front ++ part).width - front.width = part.width := by
    rw [width_append]
    omega
  rw [cut, if_pos (by rw [width_append]; omega), divide?_append]
  simp only [length, divide?_append]

example : cut "né;".toList 1 3 = .ok "é".toList := by decide

example : cut "né;".toList 2 3 = .error .cut := by decide

end Text

/-! ## Bytes of texts -/

/-- The byte at an index. -/
def byteAt (bytes : Bytes) (index : Nat) : Except ScanFault UInt8 :=
  match bytes[index]? with
  | some byte => .ok byte
  | none => .error .index

theorem getElem?_of_byteAt {bytes : Bytes} {index : Nat} {byte : UInt8}
    (found : byteAt bytes index = .ok byte) : bytes[index]? = some byte := by
  unfold byteAt at found
  split at found
  · next same =>
    cases found
    exact same
  · cases found

/-- Whether a byte is an ASCII character of a kind. -/
def isAscii (kind : Char → Bool) (byte : UInt8) : Bool :=
  byte.toNat < 0x80 && kind (Char.ofNat byte.toNat)

/-- A kind that has ASCII characters only. -/
def IsAsciiKind (kind : Char → Bool) : Prop :=
  ∀ character, kind character = true → character.toNat < 0x80

/-- The column behind the ASCII characters of a kind that begin at a column. -/
def endOfRun (kind : Char → Bool) (bytes : Bytes) (start : Nat) : Except ScanFault Nat :=
  if start ≤ bytes.length then
    .ok (start + ((bytes.drop start).takeWhile (isAscii kind)).length)
  else .error .cut

/-! ## Kinds of characters -/

theorem isAsciiKind_eq {mark : Char} (ascii : mark.toNat < 0x80) : IsAsciiKind (· == mark) := by
  intro character same
  rwa [beq_iff_eq.1 same]

theorem isAsciiKind_isQuote : IsAsciiKind isQuote := by
  intro character quote
  simp only [isQuote, Bool.or_eq_true, beq_iff_eq] at quote
  rcases quote with rfl | rfl <;> decide

theorem isAsciiKind_isSpaceOrTab : IsAsciiKind isSpaceOrTab := by
  intro character blank
  simp only [isSpaceOrTab, Bool.or_eq_true, beq_iff_eq] at blank
  rcases blank with rfl | rfl <;> decide

theorem isAsciiKind_isWordCharacter : IsAsciiKind isWordCharacter := by
  intro character letter
  have code := code_of_isWordCharacter letter
  omega

theorem isAsciiKind_isDigit : IsAsciiKind Char.isDigit := by
  intro character digit
  apply isAsciiKind_isWordCharacter
  rw [isWordCharacter, Char.isAlphanum, digit, Bool.or_true, Bool.true_or]

theorem isAscii_of_high {kind : Char → Bool} {byte : UInt8} (high : 0x80 ≤ byte.toNat) :
    isAscii kind byte = false := by
  rw [isAscii, decide_eq_false (Nat.not_lt.2 high), Bool.false_and]

theorem isAscii_ofNat {kind : Char → Bool} {character : Char} (ascii : character.toNat < 0x80) :
    isAscii kind (UInt8.ofNat character.toNat) = kind character := by
  have same : (UInt8.ofNat character.toNat).toNat = character.toNat := by
    rw [UInt8.toNat_ofNat']
    omega
  rw [isAscii, same, decide_eq_true ascii, Char.ofNat_toNat, Bool.true_and]

namespace Utf8

theorem encode_cons (character : Char) (rest : Text) :
    encode (character :: rest) = encodeCharacter character ++ encode rest :=
  List.flatMap_cons

theorem encodeCharacter_of_ascii {character : Char} (ascii : character.toNat < 0x80) :
    encodeCharacter character = [UInt8.ofNat character.toNat] := by
  rw [encodeCharacter]
  exact if_pos ascii

/-- The bytes of a character that is not ASCII are no ASCII bytes. -/
theorem high_of_mem_encodeCharacter {character : Char} (high : 0x80 ≤ character.toNat)
    {byte : UInt8} (member : byte ∈ encodeCharacter character) : 0x80 ≤ byte.toNat := by
  have bound : character.toNat < 0x110000 := by
    rcases character.valid with small | ⟨_, large⟩
    · exact Nat.lt_trans small (by decide)
    · exact large
  unfold encodeCharacter at member
  simp only [Nat.not_lt.2 high, if_false] at member
  split at member
  · simp only [List.mem_cons, List.not_mem_nil, or_false] at member
    rcases member with rfl | rfl
    all_goals rw [UInt8.toNat_ofNat']; omega
  · split at member
    · simp only [List.mem_cons, List.not_mem_nil, or_false] at member
      rcases member with rfl | rfl | rfl
      all_goals rw [UInt8.toNat_ofNat']; omega
    · simp only [List.mem_cons, List.not_mem_nil, or_false] at member
      rcases member with rfl | rfl | rfl | rfl
      all_goals rw [UInt8.toNat_ofNat']; omega

/-- No byte of a character is an ASCII character of a kind to which the character does not
belong. -/
theorem isAscii_of_mem_encodeCharacter {kind : Char → Bool} {character : Char}
    (other : kind character = false) {byte : UInt8} (member : byte ∈ encodeCharacter character) :
    isAscii kind byte = false := by
  by_cases ascii : character.toNat < 0x80
  · rw [encodeCharacter_of_ascii ascii, List.mem_singleton] at member
    rw [member, isAscii_ofNat ascii, other]
  · exact isAscii_of_high (high_of_mem_encodeCharacter (Nat.le_of_not_lt ascii) member)

/-- The first byte of a character is of a kind exactly when the character is, and it is the only
one when the character is ASCII. -/
theorem exists_encodeCharacter (character : Char) :
    ∃ (byte : UInt8) (more : Bytes), encodeCharacter character = byte :: more ∧
      (∀ kind, IsAsciiKind kind → isAscii kind byte = kind character) ∧
      (∀ other ∈ more, 0x80 ≤ other.toNat) ∧
      (character.toNat < 0x80 → byte = UInt8.ofNat character.toNat ∧ more = []) := by
  by_cases ascii : character.toNat < 0x80
  · exact ⟨_, [], encodeCharacter_of_ascii ascii, fun kind _ => isAscii_ofNat ascii, by simp,
      fun _ => ⟨rfl, rfl⟩⟩
  · have high := Nat.le_of_not_lt ascii
    have positive := character.utf8Size_pos
    rw [← length_encodeCharacter] at positive
    rcases List.exists_cons_of_ne_nil (List.ne_nil_of_length_pos positive) with ⟨byte, more, same⟩
    have allHigh : ∀ other ∈ encodeCharacter character, 0x80 ≤ other.toNat := fun _ =>
      high_of_mem_encodeCharacter high
    rw [same] at allHigh
    refine ⟨byte, more, same, fun kind isKind => ?_,
      fun other member => allHigh other (List.mem_cons_of_mem _ member),
      fun low => absurd low ascii⟩
    rw [isAscii_of_high (allHigh byte List.mem_cons_self)]
    cases isCharacter : kind character with
    | false => rfl
    | true => exact absurd (isKind character isCharacter) ascii

theorem drop_encode (front rest : Text) :
    (encode (front ++ rest)).drop front.width = encode rest := by
  rw [encode_append, ← length_encode, List.drop_left]

/-- The byte at a column between characters is the first byte of the next character. -/
theorem byteAt_encode (front rest : Text) (character : Char) :
    ∃ byte, byteAt (encode (front ++ character :: rest)) front.width = .ok byte ∧
      (∀ kind, IsAsciiKind kind → isAscii kind byte = kind character) ∧
      (character.toNat < 0x80 → byte = UInt8.ofNat character.toNat) := by
  rcases exists_encodeCharacter character with ⟨byte, more, same, kinds, _, ascii⟩
  refine ⟨byte, ?_, kinds, fun low => (ascii low).1⟩
  have found : (encode (front ++ character :: rest))[front.width]? = some byte := by
    rw [← List.head?_drop, drop_encode, encode_cons, same]
    rfl
  rw [byteAt, found]

/-- A run of ASCII characters is as long in the bytes as in the text. -/
theorem length_takeWhile_encode {kind : Char → Bool} (isKind : IsAsciiKind kind) (text : Text) :
    ((encode text).takeWhile (isAscii kind)).length = Text.width (text.takeWhile kind) := by
  induction text with
  | nil => rfl
  | cons character rest ih =>
    rcases exists_encodeCharacter character with ⟨byte, more, same, kinds, _, ascii⟩
    rw [encode_cons, same, List.cons_append]
    by_cases isCharacter : kind character = true
    · have single := (ascii (isKind character isCharacter)).2
      have size : character.utf8Size = 1 := by
        rw [← length_encodeCharacter, same, single]
        rfl
      rw [single, List.nil_append,
        List.takeWhile_cons_of_pos (by rw [kinds kind isKind, isCharacter]),
        List.takeWhile_cons_of_pos isCharacter, List.length_cons, ih, Text.width_cons, size,
        Nat.add_comm]
    · rw [List.takeWhile_cons_of_neg (by rw [kinds kind isKind]; exact isCharacter),
        List.takeWhile_cons_of_neg isCharacter]
      rfl

theorem endOfRun_encode {kind : Char → Bool} (isKind : IsAsciiKind kind) (front rest : Text) :
    endOfRun kind (encode (front ++ rest)) front.width =
      .ok (front ++ rest.takeWhile kind).width := by
  have within : front.width ≤ (encode (front ++ rest)).length := by
    rw [length_encode, Text.width_append]
    exact Nat.le_add_right _ _
  rw [endOfRun, if_pos within, drop_encode, length_takeWhile_encode isKind, Text.width_append]

end Utf8

end ScriptPreprocessor
