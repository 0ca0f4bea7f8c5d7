import ScriptPreprocessor.Proofs.Macro.Pieces
import ScriptPreprocessor.Proofs.Text.ByteColumns

namespace ScriptPreprocessor

/-!
# Literals, words and calls by byte columns

The readers of a line once more, this time as loops over byte columns with every access checked.
At a column between characters each of them succeeds and finds what the recursion on characters
finds: the run that begins there (`readRun_of_first`), the call (`readCall_append`), and a body with
arguments put in (`substituteFrom_append`).
-/

open Utf8 (encode encodeCharacter)

/-! ## Readers -/

/-- The column behind a literal whose mark stands in front of the bytes. -/
def literalEndFrom (quote : UInt8) (escaped : Bool) (column : Nat) : Bytes → Nat
  | [] => column
  | byte :: rest =>
    if escaped then literalEndFrom quote false (column + 1) rest
    else if isAscii (· == '\\') byte then literalEndFrom quote true (column + 1) rest
    else if byte == quote then column + 1
    else literalEndFrom quote false (column + 1) rest

/-- The column behind the literal that begins at a column. -/
def literalEnd (bytes : Bytes) (start : Nat) : Except ScanFault Nat := do
  let quote ← byteAt bytes start
  return literalEndFrom quote false (start + 1) (bytes.drop (start + 1))

/-- A character that begins neither a literal nor a word. -/
def isMark (character : Char) : Bool :=
  !(isQuote character || isWordCharacter character)

/-- The column behind the literal, the word or the run of marks that begins at a column. -/
def runEnd (text : Text) (start : Nat) : Except ScanFault Nat := do
  let byte ← byteAt (encode text) start
  if isAscii isQuote byte then literalEnd (encode text) start
  else if isAscii isWordCharacter byte then endOfRun isWordCharacter (encode text) start
  else
    let rest ← text.cut start text.width
    return start + Text.width (rest.takeWhile isMark)

/-- The literal, the word or the run of marks that begins at a column, and the column behind it. -/
def readRun (text : Text) (start : Nat) : Except ScanFault (Text × Ahead start) := do
  let stop ← runEnd text start
  let part ← text.cut start stop
  let stop ← ahead start stop
  return (part, stop)

/-- The arguments of a call, read from a column in it on, and the column behind the call. -/
def readArguments (text : Text) (depth argumentStart column : Nat) (arguments : List Text) :
    Except ScanFault (Option (List Text × Nat)) :=
  if column < text.width then do
    let byte ← byteAt (encode text) column
    if isAscii isQuote byte then
      let stop ← literalEnd (encode text) column
      let stop ← ahead column stop
      readArguments text depth argumentStart stop arguments
    else if isAscii (· == '(') byte then
      readArguments text (depth + 1) argumentStart (column + 1) arguments
    else if isAscii (· == ')') byte then
      if depth = 0 then .error .counter
      else if depth - 1 = 0 then
        let part ← text.cut argumentStart column
        return some (arguments ++ [part.trim], column + 1)
      else
        readArguments text (depth - 1) argumentStart (column + 1) arguments
    else if isAscii (· == ',') byte && depth == 1 then
      let part ← text.cut argumentStart column
      readArguments text depth (column + 1) (column + 1) (arguments ++ [part.trim])
    else
      readArguments text depth argumentStart (column + 1) arguments
  else
    return none
  termination_by text.width - column
  decreasing_by all_goals omega

/-- The arguments of the call that begins at a column, and the column behind it. -/
def readCall (text : Text) (start : Nat) : Except ScanFault (Option (List Text × Nat)) := do
  let opening ← endOfRun isSpaceOrTab (encode text) start
  match (encode text)[opening]? with
  | none => return none
  | some byte =>
    if isAscii (· == '(') byte then readArguments text 0 (opening + 1) opening []
    else return none

/-- A body from a column on with its parameters replaced by arguments, behind what is done. -/
def substituteFrom (parameters arguments : List Text) (body : Text) (column : Nat) (done : Text) :
    Except ScanFault Text :=
  if column < body.width then do
    let byte ← byteAt (encode body) column
    let (part, stop) ← readRun body column
    if isAscii isWordCharacter byte then
      match parameters.idxOf? part with
      | none => substituteFrom parameters arguments body stop (done ++ part)
      | some place =>
        match arguments[place]? with
        | none => .error .index
        | some argument => substituteFrom parameters arguments body stop (done ++ argument)
    else
      substituteFrom parameters arguments body stop (done ++ part)
  else
    return done
  termination_by body.width - column
  decreasing_by all_goals omega

/-! ## Literals -/

section Literals

variable {quote : Char}

/-- Bytes of characters that are not ASCII leave a literal open. -/
theorem literalEndFrom_of_high (low : quote.toNat < 0x80) {bytes : Bytes}
    (high : ∀ byte ∈ bytes, 0x80 ≤ byte.toNat) (column : Nat) (rest : Bytes) :
    literalEndFrom (UInt8.ofNat quote.toNat) false column (bytes ++ rest) =
      literalEndFrom (UInt8.ofNat quote.toNat) false (column + bytes.length) rest := by
  induction bytes generalizing column with
  | nil => rfl
  | cons byte bytes ih =>
    rcases List.forall_mem_cons.1 high with ⟨isHigh, later⟩
    have noSlash : isAscii (· == '\\') byte = false := isAscii_of_high isHigh
    have noQuote : byte ≠ UInt8.ofNat quote.toNat := by
      intro same
      have found : isAscii (fun _ => true) byte = true := same ▸ isAscii_ofNat low
      rw [isAscii_of_high isHigh] at found
      cases found
    rw [List.cons_append, literalEndFrom, if_neg (by simp), noSlash, if_neg (by simp),
      beq_false_of_ne noQuote, if_neg (by simp), ih later, List.length_cons]
    congr 1
    omega

/-- In the bytes of a text a literal ends where it ends in the text. -/
theorem literalEndFrom_encode (isQuoteMark : isQuote quote = true) (text : Text) (column : Nat) :
    literalEndFrom (UInt8.ofNat quote.toNat) false column (encode text) =
        column + Text.width (spanLiteral (.inside quote) text).1 ∧
      literalEndFrom (UInt8.ofNat quote.toNat) true column (encode text) =
        column + Text.width (spanLiteral (.escaped quote) text).1 := by
  have low := isAsciiKind_isQuote quote isQuoteMark
  induction text generalizing column with
  | nil => exact ⟨rfl, rfl⟩
  | cons character rest ih =>
    rcases Utf8.exists_encodeCharacter character with ⟨byte, more, same, kinds, high, ascii⟩
    have size : character.utf8Size = 1 + more.length := by
      rw [← Utf8.length_encodeCharacter, same, List.length_cons, Nat.add_comm]
    have slash := kinds (· == '\\') (isAsciiKind_eq (by decide))
    have mark := kinds (· == quote) (isAsciiKind_eq low)
    -- Behind the first byte of the character the literal is open and nothing is escaped.
    have goesOn :
        literalEndFrom (UInt8.ofNat quote.toNat) false (column + 1) (more ++ encode rest) =
          column + Text.width (character :: (spanLiteral (.inside quote) rest).1) := by
      rw [literalEndFrom_of_high low high, (ih _).1, Text.width_cons, size]
      omega
    rw [Utf8.encode_cons, same, List.cons_append]
    constructor
    · by_cases isSlash : character = '\\'
      · subst isSlash
        have single := (ascii (by decide)).2
        have stays : (LiteralMode.inside quote).next '\\' = .escaped quote := rfl
        rw [literalEndFrom, if_neg (by simp), slash, if_pos (by simp), single, List.nil_append,
          (ih _).2, spanLiteral_of_open (by rw [stays]; simp), stays, Text.width_cons, size, single,
          List.length_nil]
        omega
      · rw [literalEndFrom, if_neg (by simp), slash, if_neg (by simpa using isSlash)]
        by_cases isMark : character = quote
        · subst isMark
          have closes : (LiteralMode.inside character).next character = .outside := by
            simp [LiteralMode.next, isSlash]
          rcases ascii low with ⟨isByte, single⟩
          rw [isByte, if_pos (by simp), spanLiteral_of_closes closes, Text.width_cons,
            Text.width_nil, size, single, List.length_nil]
        · have stays : (LiteralMode.inside quote).next character = .inside quote := by
            simp [LiteralMode.next, isSlash, isMark]
          have noQuote : byte ≠ UInt8.ofNat quote.toNat := by
            rintro rfl
            rw [isAscii_ofNat low] at mark
            exact isMark (by simpa using mark.symm)
          rw [beq_false_of_ne noQuote, if_neg (by simp), goesOn,
            spanLiteral_of_open (by rw [stays]; simp), stays]
    · rw [literalEndFrom, if_pos rfl, goesOn]
      rfl

end Literals

/-- The literal that begins at a column ends where it ends in the text. -/
theorem literalEnd_encode {quote : Char} (isQuoteMark : isQuote quote = true) (front rest : Text) :
    literalEnd (encode (front ++ quote :: rest)) front.width =
      .ok (front ++ quote :: (spanLiteral (.inside quote) rest).1).width := by
  have low := isAsciiKind_isQuote quote isQuoteMark
  rcases Utf8.byteAt_encode front rest quote with ⟨byte, found, _, isByte⟩
  have size : quote.utf8Size = 1 := by
    rw [← Utf8.length_encodeCharacter, Utf8.encodeCharacter_of_ascii low]
    rfl
  have behind : (encode (front ++ quote :: rest)).drop (front.width + 1) = encode rest := by
    have dropped := Utf8.drop_encode (front ++ [quote]) rest
    rwa [List.append_assoc, Text.width_append, Text.width_cons, size] at dropped
  simp only [literalEnd, found, bind, Except.bind, behind, isByte low,
    (literalEndFrom_encode isQuoteMark rest _).1, pure, Except.pure, Text.width_append,
    Text.width_cons, size]
  congr 1
  omega

/-! ## Runs -/

section Runs

variable {front rest after : Text} {character : Char} {piece : Piece}

theorem lt_width_append {part : Text} (filled : part ≠ []) :
    front.width < (front ++ part).width := by
  cases part with
  | nil => exact absurd rfl filled
  | cons character part =>
    have positive := character.utf8Size_pos
    rw [Text.width_append, Text.width_cons]
    omega

theorem readRun_of_runEnd {part back text : Text} (whole : part ++ back = text)
    (filled : part ≠ []) (ends : runEnd (front ++ text) front.width = .ok (front ++ part).width) :
    readRun (front ++ text) front.width =
      .ok (part, ⟨(front ++ part).width, lt_width_append filled⟩) := by
  subst whole
  simp only [readRun, ends, bind, Except.bind, Text.cut_append, ahead_of_lt
    (lt_width_append filled), pure, Except.pure]

theorem text_ne_nil_of_first (shape : Piece.first character rest = (piece, after)) :
    piece.text ≠ [] := by
  cases Piece.isFirst_of_first shape <;> exact List.cons_ne_nil _ _

theorem not_isWordCharacter_of_isMark (mark : isMark character = true) :
    isWordCharacter character = false := by
  simp only [isMark, Bool.not_eq_true', Bool.or_eq_false_iff] at mark
  exact mark.2

theorem first_of_isMark (mark : isMark character = true) (rest : Text) :
    Piece.first character rest = (.mark character, rest) := by
  simp only [isMark, Bool.not_eq_true', Bool.or_eq_false_iff] at mark
  simp [Piece.first, mark]

/-- A piece is a word exactly when it begins with a letter. -/
theorem isWordCharacter_of_first (shape : Piece.first character rest = (piece, after)) :
    isWordCharacter character = true ↔ ∃ name, piece = .word name := by
  constructor
  · intro letter
    cases Piece.isFirst_of_first shape with
    | literal quote =>
      rw [not_isWordCharacter_of_isQuote quote] at letter
      cases letter
    | word _ _ => exact ⟨_, rfl⟩
    | mark _ noLetter =>
      rw [noLetter] at letter
      cases letter
  · rintro ⟨name, rfl⟩
    cases Piece.isFirst_of_first shape with
    | word _ letter => exact letter

theorem runEnd_of_first (shape : Piece.first character rest = (piece, after))
    (noMark : isMark character = false) :
    runEnd (front ++ character :: rest) front.width = .ok (front ++ piece.text).width := by
  rcases Utf8.byteAt_encode front rest character with ⟨byte, found, kinds, _⟩
  simp only [runEnd, found, bind, Except.bind, kinds isQuote isAsciiKind_isQuote,
    kinds isWordCharacter isAsciiKind_isWordCharacter]
  cases Piece.isFirst_of_first shape with
  | literal quote =>
    rw [if_pos quote, literalEnd_encode quote]
    rfl
  | word noQuote letter =>
    rw [if_neg (ne_true_of_eq_false noQuote), if_pos letter,
      Utf8.endOfRun_encode isAsciiKind_isWordCharacter, List.takeWhile_cons_of_pos letter]
    rfl
  | mark noQuote noLetter =>
    rw [isMark, noQuote, noLetter] at noMark
    cases noMark

/-- The literal or the word at a column between characters is the first piece behind it. -/
theorem readRun_of_first (shape : Piece.first character rest = (piece, after))
    (noMark : isMark character = false) :
    readRun (front ++ character :: rest) front.width =
      .ok (piece.text,
        ⟨(front ++ piece.text).width, lt_width_append (text_ne_nil_of_first shape)⟩) :=
  readRun_of_runEnd (Piece.text_append_of_first shape) (text_ne_nil_of_first shape)
    (runEnd_of_first shape noMark)

/-- At a mark everything up to the next literal or word is read. -/
theorem readRun_of_mark (mark : isMark character = true) :
    readRun (front ++ character :: rest) front.width =
      .ok (character :: rest.takeWhile isMark,
        ⟨(front ++ character :: rest.takeWhile isMark).width,
          lt_width_append (List.cons_ne_nil _ _)⟩) := by
  have begins := mark
  simp only [isMark, Bool.not_eq_true', Bool.or_eq_false_iff] at begins
  rcases Utf8.byteAt_encode front rest character with ⟨byte, found, kinds, _⟩
  have tail : Text.cut (front ++ character :: rest) front.width (front ++ character :: rest).width =
      .ok (character :: rest) := by
    simpa using Text.cut_append front (character :: rest) []
  have whole : character :: rest.takeWhile isMark ++ rest.dropWhile isMark = character :: rest := by
    rw [List.cons_append, List.takeWhile_append_dropWhile]
  refine readRun_of_runEnd whole (List.cons_ne_nil _ _) ?_
  simp only [runEnd, found, bind, Except.bind, kinds isQuote isAsciiKind_isQuote, begins.1,
    kinds isWordCharacter isAsciiKind_isWordCharacter, begins.2, Bool.false_eq_true, if_false]
  rw [tail]
  simp only [List.takeWhile_cons_of_pos mark, pure, Except.pure, Text.width_append]

/-- A scanner that passes a run of marks in one turn may as well pass them one by one. -/
theorem scan_mark_of_runs {State Result : Type} (scan : Nat → State → Result)
    (put : State → Text → State)
    (put_append : ∀ done first second, put (put done first) second = put done (first ++ second))
    {text : Text}
    (runs : ∀ (front rest : Text) (character : Char) (done : State),
      front ++ character :: rest = text → isMark character = true →
      scan front.width done = scan (front ++ character :: rest.takeWhile isMark).width
        (put done (character :: rest.takeWhile isMark)))
    (whole : front ++ character :: rest = text) (mark : isMark character = true) (done : State) :
    scan front.width done = scan (front ++ [character]).width (put done [character]) := by
  rw [runs front rest character done whole mark]
  cases rest with
  | nil => rfl
  | cons next rest =>
    by_cases more : isMark next = true
    · have later := runs (front ++ [character]) rest next (put done [character])
        (by simpa using whole) more
      rw [later, List.takeWhile_cons_of_pos more, put_append]
      simp
    · rw [List.takeWhile_cons_of_neg more]

end Runs

/-! ## Calls -/

/-- A text put in front of the first of some parts. -/
def prependToFirst (front : Text) : List Text → List Text
  | [] => [front]
  | part :: parts => (front ++ part) :: parts

theorem prependToFirst_nil {parts : List Text} (filled : parts ≠ []) :
    prependToFirst [] parts = parts := by
  cases parts with
  | nil => exact absurd rfl filled
  | cons part parts => rfl

theorem prependToFirst_append (front next : Text) (parts : List Text) :
    prependToFirst (front ++ next) parts = prependToFirst front (prependToFirst next parts) := by
  cases parts with
  | nil => rfl
  | cons part parts => simp [prependToFirst]

/-- The parts between the separating commas up to the end of a call, and what follows the call. -/
def callParts (depth : Nat) (mode : LiteralMode) (text : Text) : Option (List Text × Text) :=
  (spanCall depth mode text).map fun (inside, after) => (splitArguments depth mode inside, after)

section CallParts

variable {depth : Nat} {mode : LiteralMode} {character : Char} {rest : Text}

theorem callParts_of_close (rest : Text) :
    callParts 0 .outside (')' :: rest) = some ([[]], rest) := by
  rw [callParts, spanCall, if_pos ⟨rfl, rfl, rfl⟩]
  rfl

theorem callParts_of_comma (rest : Text) :
    callParts 0 .outside (',' :: rest) =
      (callParts 0 .outside rest).map fun (parts, after) => ([] :: parts, after) := by
  rw [callParts, spanCall, if_neg (by simp), callParts, Option.map_map, Option.map_map]
  congr 1

theorem callParts_of_other
    (noClose : ¬ (mode = .outside ∧ character = ')' ∧ depth = 0))
    (noComma : ¬ (mode = .outside ∧ character = ',' ∧ depth = 0)) (rest : Text) :
    callParts depth mode (character :: rest) =
      (callParts (nextDepth depth mode character) (mode.next character) rest).map
        fun (parts, after) => (prependToFirst [character] parts, after) := by
  rw [callParts, spanCall, if_neg noClose, callParts, Option.map_map, Option.map_map]
  congr 1
  funext found
  simp only [Function.comp_apply, splitArguments, if_neg noComma]
  cases splitArguments (nextDepth depth mode character) (mode.next character) found.1 <;> rfl

theorem splitArguments_ne_nil (depth : Nat) (mode : LiteralMode) (text : Text) :
    splitArguments depth mode text ≠ [] := by
  cases text with
  | nil => exact List.cons_ne_nil _ _
  | cons character rest =>
    rw [splitArguments]
    split
    · exact List.cons_ne_nil _ _
    · split <;> exact List.cons_ne_nil _ _

/-- A literal in a call belongs to the part in which it begins. -/
theorem callParts_of_literal {quote : Char} (within : mode.IsWithin quote) (text : Text) :
    callParts depth mode text =
      (callParts depth .outside (spanLiteral mode text).2).map
        fun (parts, after) => (prependToFirst (spanLiteral mode text).1 parts, after) := by
  induction text generalizing mode with
  | nil => rfl
  | cons character rest ih =>
    have inside := within.ne_outside
    have same : nextDepth depth mode character = depth := by
      cases mode with
      | outside => exact absurd rfl inside
      | inside quote => rfl
      | escaped quote => rfl
    rw [callParts_of_other (fun closing => inside closing.1) (fun comma => inside comma.1), same]
    rcases within.next character with ⟨_, closes⟩ | still
    · rw [closes, spanLiteral_of_closes closes]
    · rw [ih still, spanLiteral_of_open still.ne_outside, Option.map_map]
      congr 1
      funext found
      exact congrArg (·, found.2) (prependToFirst_append [character] _ found.1).symm

/-- A literal that begins in a part belongs to it as a whole. -/
theorem callParts_of_quote (quote : isQuote character = true) {inside after : Text}
    (literal : spanLiteral (.inside character) rest = (inside, after)) :
    callParts depth .outside (character :: rest) =
      (callParts depth .outside after).map
        fun (parts, after) => (prependToFirst (character :: inside) parts, after) := by
  have noMark : character ≠ '(' ∧ character ≠ ')' ∧ character ≠ ',' := by
    refine ⟨?_, ?_, ?_⟩ <;> (rintro rfl; exact absurd quote (by decide))
  have same : nextDepth depth .outside character = depth := by
    simp [nextDepth, noMark]
  have opened : LiteralMode.outside.next character = .inside character := by
    rw [LiteralMode.next, if_pos quote]
  rw [callParts_of_other (fun closing => noMark.2.1 closing.2.1)
    (fun comma => noMark.2.2 comma.2.1), opened, same,
    callParts_of_literal (Or.inl rfl : (LiteralMode.inside character).IsWithin character),
    literal, Option.map_map]
  congr 1
  funext found
  exact congrArg (·, found.2) (prependToFirst_append [character] inside found.1).symm

end CallParts

/-! ### Turns in a call -/

section Turns

variable {front current rest : Text} {character : Char} {depth argumentStart : Nat}
  {arguments : List Text}

/-- Bytes of characters that are not ASCII are passed over. -/
theorem readArguments_of_high {text : Text} {column count : Nat}
    (high : ∀ place < count, ∃ byte, (encode text)[column + place]? = some byte ∧
      0x80 ≤ byte.toNat) :
    readArguments text depth argumentStart column arguments =
      readArguments text depth argumentStart (column + count) arguments := by
  induction count generalizing column with
  | zero => rfl
  | succ count ih =>
    rcases high 0 (Nat.succ_pos count) with ⟨byte, found, isHigh⟩
    rw [Nat.add_zero] at found
    have within : column < text.width := by
      rw [← Utf8.length_encode]
      exact (List.getElem?_eq_some_iff.1 found).1
    have later : ∀ place < count, ∃ byte, (encode text)[column + 1 + place]? = some byte ∧
        0x80 ≤ byte.toNat := by
      intro place bound
      have next := high (place + 1) (Nat.succ_lt_succ bound)
      rwa [← Nat.add_assoc, Nat.add_right_comm] at next
    rw [readArguments, if_pos within]
    simp only [byteAt, found, bind, Except.bind, isAscii_of_high isHigh, Bool.false_eq_true,
      if_false, Bool.false_and]
    rw [ih later, Nat.add_assoc, Nat.add_comm 1]

/-- The rest of a character, behind its first byte, is passed over. -/
theorem readArguments_behind_byte :
    readArguments (front ++ character :: rest) depth argumentStart (front.width + 1) arguments =
      readArguments (front ++ character :: rest) depth argumentStart
        (front ++ [character]).width arguments := by
  rcases Utf8.exists_encodeCharacter character with ⟨byte, more, same, _, high, _⟩
  have size : (front ++ [character]).width = front.width + 1 + more.length := by
    have length := Utf8.length_encodeCharacter character
    rw [same, List.length_cons] at length
    rw [Text.width_append, Text.width_cons, Text.width_nil, ← length]
    omega
  rw [size]
  apply readArguments_of_high
  intro place bound
  refine ⟨more[place], ?_, high _ (List.getElem_mem bound)⟩
  rw [Nat.add_assoc, Nat.add_comm 1, ← List.getElem?_drop, Utf8.drop_encode, Utf8.encode_cons,
    same, List.cons_append, List.getElem?_cons_succ, List.getElem?_append_left bound,
    List.getElem?_eq_getElem bound]

/-- A literal is passed over in one turn. -/
theorem readArguments_of_quote (quote : isQuote character = true) {inside after : Text}
    (literal : spanLiteral (.inside character) rest = (inside, after)) :
    readArguments (front ++ character :: rest) depth argumentStart front.width arguments =
      readArguments (front ++ character :: rest) depth argumentStart
        (front ++ character :: inside).width arguments := by
  have ends := literalEnd_encode quote front rest
  rw [literal] at ends
  have advances : front.width < (front ++ character :: inside).width :=
    lt_width_append (List.cons_ne_nil _ _)
  rcases Utf8.byteAt_encode front rest character with ⟨byte, found, kinds, _⟩
  conv_lhs => rw [readArguments, if_pos (lt_width_append (List.cons_ne_nil _ _))]
  simp only [found, bind, Except.bind, kinds isQuote isAsciiKind_isQuote, quote, if_true, ends,
    ahead_of_lt advances]

/-- A character that neither begins a literal nor ends an argument is passed over. -/
theorem readArguments_of_other (noQuote : isQuote character ≠ true)
    (noClose : ¬ (character = ')' ∧ depth = 0)) (noComma : ¬ (character = ',' ∧ depth = 0)) :
    readArguments (front ++ character :: rest) (depth + 1) argumentStart front.width arguments =
      readArguments (front ++ character :: rest) (nextDepth depth .outside character + 1)
        argumentStart (front ++ [character]).width arguments := by
  rcases Utf8.byteAt_encode front rest character with ⟨byte, found, kinds, _⟩
  conv_lhs => rw [readArguments, if_pos (lt_width_append (List.cons_ne_nil _ _))]
  simp only [found, bind, Except.bind, kinds isQuote isAsciiKind_isQuote, if_neg noQuote,
    kinds (· == '(') (isAsciiKind_eq (by decide)), kinds (· == ')') (isAsciiKind_eq (by decide)),
    kinds (· == ',') (isAsciiKind_eq (by decide)), beq_iff_eq, readArguments_behind_byte]
  rw [nextDepth]
  by_cases opens : character = '('
  · simp [opens]
  by_cases closes : character = ')'
  · have deeper : depth ≠ 0 := fun none => noClose ⟨closes, none⟩
    have same : depth - 1 + 1 = depth := Nat.sub_add_cancel (Nat.pos_of_ne_zero deeper)
    simp [closes, deeper, same]
  · have separates : ¬ ((character == ',' && depth + 1 == 1) = true) := by simpa using noComma
    simp only [opens, closes, if_false, if_neg separates, beq_iff_eq]

/-- The parenthesis that closes the call ends the last argument. -/
theorem readArguments_of_close :
    readArguments (front ++ (current ++ ')' :: rest)) 1 front.width (front ++ current).width
        arguments =
      .ok (some (arguments ++ [current.trim], (front ++ current).width + 1)) := by
  rcases Utf8.byteAt_encode (front ++ current) rest ')' with ⟨byte, found, kinds, _⟩
  have within : (front ++ current).width < (front ++ (current ++ ')' :: rest)).width := by
    rw [← List.append_assoc]
    exact lt_width_append (List.cons_ne_nil _ _)
  rw [List.append_assoc] at found
  rw [readArguments, if_pos within]
  simp only [found, bind, Except.bind, kinds isQuote isAsciiKind_isQuote,
    kinds (· == '(') (isAsciiKind_eq (by decide)), kinds (· == ')') (isAsciiKind_eq (by decide)),
    Text.cut_append]
  rfl

/-- A comma that stands in no inner parentheses ends an argument. -/
theorem readArguments_of_comma :
    readArguments (front ++ (current ++ ',' :: rest)) 1 front.width (front ++ current).width
        arguments =
      readArguments (front ++ (current ++ ',' :: rest)) 1 (front ++ (current ++ [','])).width
        (front ++ (current ++ [','])).width (arguments ++ [current.trim]) := by
  rcases Utf8.byteAt_encode (front ++ current) rest ',' with ⟨byte, found, kinds, _⟩
  have within : (front ++ current).width < (front ++ (current ++ ',' :: rest)).width := by
    rw [← List.append_assoc]
    exact lt_width_append (List.cons_ne_nil _ _)
  have behind : (front ++ current).width + 1 = (front ++ (current ++ [','])).width := by
    simp only [Text.width_append, Text.width_cons, Text.width_nil,
      show (',' : Char).utf8Size = 1 from rfl]
    omega
  rw [List.append_assoc] at found
  conv_lhs => rw [readArguments, if_pos within]
  simp only [found, bind, Except.bind, kinds isQuote isAsciiKind_isQuote,
    kinds (· == '(') (isAsciiKind_eq (by decide)), kinds (· == ')') (isAsciiKind_eq (by decide)),
    kinds (· == ',') (isAsciiKind_eq (by decide)), Text.cut_append, behind]
  rfl

end Turns

/-- In a call, behind the beginning of an argument, the reader finds the arguments that follow. -/
def ReadsOn (depth : Nat) (front current rest : Text) (arguments : List Text) : Prop :=
  readArguments (front ++ (current ++ rest)) (depth + 1) front.width (front ++ current).width
      arguments =
    .ok ((callParts depth .outside rest).map fun (parts, after) =>
      (arguments ++ (prependToFirst current parts).map Text.trim,
        (front ++ (current ++ rest)).width - after.width))

/-- What is passed over in a turn belongs to the argument. -/
theorem ReadsOn.pass {depth deeper : Nat} {front current part after text : Text}
    {arguments : List Text} (whole : part ++ after = text)
    (turn : readArguments ((front ++ current) ++ text) (depth + 1) front.width
        (front ++ current).width arguments =
      readArguments ((front ++ current) ++ text) (deeper + 1) front.width
        ((front ++ current) ++ part).width arguments)
    (parts : callParts depth .outside text =
      (callParts deeper .outside after).map
        fun (parts, after) => (prependToFirst part parts, after))
    (later : ReadsOn deeper front (current ++ part) after arguments) :
    ReadsOn depth front current text arguments := by
  subst whole
  unfold ReadsOn at later ⊢
  simp only [List.append_assoc] at turn later
  rw [turn, later, parts, Option.map_map]
  congr 2
  funext found
  simp only [Function.comp_apply, prependToFirst_append]

/-- The reader of arguments finds them.  The induction is on the length of what is left, because a
literal is passed over in one turn. -/
theorem readsOn (depth : Nat) (front current rest : Text) (arguments : List Text) :
    ReadsOn depth front current rest arguments := by
  induction length : rest.length using Nat.strong_induction_on
    generalizing depth front current rest arguments with
  | h _ ih =>
  subst length
  cases rest with
  | nil =>
    have ends : ¬ (front ++ current).width < (front ++ (current ++ [])).width := by simp
    rw [ReadsOn, readArguments, if_neg ends]
    rfl
  | cons character rest =>
    have shorter : rest.length < (character :: rest).length := Nat.lt_succ_self _
    by_cases quote : isQuote character = true
    · rcases literal : spanLiteral (.inside character) rest with ⟨inside, after⟩
      have whole : inside ++ after = rest := by
        simpa [literal] using spanLiteral_append (.inside character) rest
      have fewer : after.length < (character :: rest).length := by
        rw [← whole, List.length_cons, List.length_append]
        omega
      exact .pass (congrArg (character :: ·) whole) (readArguments_of_quote quote literal)
        (callParts_of_quote quote literal) (ih _ fewer _ _ _ _ _ rfl)
    have stays : LiteralMode.outside.next character = .outside := by
      rw [LiteralMode.next, if_neg quote]
    by_cases closes : character = ')' ∧ depth = 0
    · rcases closes with ⟨rfl, rfl⟩
      have behind : (front ++ current).width + 1 =
          (front ++ (current ++ ')' :: rest)).width - Text.width rest := by
        simp only [Text.width_append, Text.width_cons, show (')' : Char).utf8Size = 1 from rfl]
        omega
      rw [ReadsOn, readArguments_of_close, callParts_of_close, behind]
      simp [prependToFirst]
    by_cases separates : character = ',' ∧ depth = 0
    · rcases separates with ⟨rfl, rfl⟩
      have next := ih _ shorter 0 (front ++ (current ++ [','])) [] rest
        (arguments ++ [Text.trim current]) rfl
      simp only [ReadsOn, List.nil_append, List.append_nil, List.append_assoc,
        List.singleton_append] at next
      rw [ReadsOn, readArguments_of_comma]
      refine next.trans ?_
      rw [callParts_of_comma]
      cases read : callParts 0 .outside rest with
      | none => rfl
      | some found =>
        rcases Option.map_eq_some_iff.1 read with ⟨⟨inside, after⟩, _, rfl⟩
        simp only [Option.map_some, prependToFirst_nil (splitArguments_ne_nil 0 .outside inside)]
        simp [prependToFirst]
    · have parts := callParts_of_other (fun closing : LiteralMode.outside = .outside ∧ _ =>
        closes closing.2) (fun comma => separates comma.2) rest
      rw [stays] at parts
      exact .pass rfl (readArguments_of_other quote closes separates) parts
        (ih _ shorter _ _ _ _ _ rfl)

/-- The call at a column between characters is the call that begins the text behind it. -/
theorem readCall_append (front text : Text) :
    readCall (front ++ text) front.width =
      .ok ((Call.parse? text).map fun call =>
        (call.arguments, (front ++ text).width - call.after.width)) := by
  have whole := List.takeWhile_append_dropWhile (p := isSpaceOrTab) (l := text)
  simp only [readCall, Utf8.endOfRun_encode isAsciiKind_isSpaceOrTab, bind, Except.bind,
    Call.parse?]
  generalize text.takeWhile isSpaceOrTab = blanks at whole ⊢
  cases behind : text.dropWhile isSpaceOrTab with
  | nil =>
    rw [behind, List.append_nil] at whole
    subst whole
    have none : (encode (front ++ blanks))[(front ++ blanks).width]? = none := by
      rw [← Utf8.length_encode]
      exact List.getElem?_length _
    rw [none]
    rfl
  | cons character rest =>
    rw [behind] at whole
    subst whole
    rcases Utf8.byteAt_encode (front ++ blanks) rest character with ⟨byte, found, kinds, _⟩
    rw [List.append_assoc] at found
    simp only [getElem?_of_byteAt found, kinds (· == '(') (isAsciiKind_eq (by decide)), beq_iff_eq]
    by_cases opens : character = '('
    · subst opens
      have within : (front ++ blanks).width < (front ++ (blanks ++ '(' :: rest)).width := by
        rw [← List.append_assoc]
        exact lt_width_append (List.cons_ne_nil _ _)
      have start : (front ++ blanks).width + 1 = (front ++ (blanks ++ ['('])).width := by
        simp only [Text.width_append, Text.width_cons, Text.width_nil,
          show ('(' : Char).utf8Size = 1 from rfl]
        omega
      have opened := readsOn 0 (front ++ (blanks ++ ['('])) [] rest []
      simp only [ReadsOn, List.nil_append, List.append_nil, List.append_assoc,
        List.singleton_append, Nat.zero_add] at opened
      rw [if_pos rfl, readArguments, if_pos within, start]
      simp only [found, bind, Except.bind, kinds isQuote isAsciiKind_isQuote,
        kinds (· == '(') (isAsciiKind_eq (by decide))]
      rw [if_neg (by decide), if_pos (by decide)]
      refine opened.trans ?_
      rw [callParts, Option.map_map, Option.map_map]
      congr 2
      funext found
      simp [prependToFirst_nil (splitArguments_ne_nil _ _ _)]
    · rw [if_neg opens]
      split
      · next same =>
        cases same
        exact absurd rfl opens
      · rfl

/-! ## Bodies -/

/-- A parameter has an argument at its place. -/
theorem lookup_zip_of_idxOf? {parameters arguments : List Text} (name : Text)
    (sized : parameters.length ≤ arguments.length) :
    match parameters.idxOf? name with
    | none => (parameters.zip arguments).lookup name = none
    | some place => ∃ argument, arguments[place]? = some argument ∧
        (parameters.zip arguments).lookup name = some argument := by
  induction parameters generalizing arguments with
  | nil => rfl
  | cons parameter parameters ih =>
    cases arguments with
    | nil => cases sized
    | cons argument arguments =>
      have later := @ih arguments (Nat.le_of_succ_le_succ sized)
      rw [List.idxOf?_cons, List.zip_cons_cons, List.lookup_cons]
      by_cases same : parameter = name
      · subst same
        simp
      · rw [beq_false_of_ne same, beq_false_of_ne (Ne.symm same)]
        cases place : parameters.idxOf? name with
        | none =>
          rw [place] at later
          exact later
        | some place' =>
          rw [place] at later
          exact later

theorem substituteFrom_of_mark {parameters arguments : List Text} {front rest : Text}
    {character : Char} (mark : isMark character = true) (done : Text) :
    substituteFrom parameters arguments (front ++ character :: rest) front.width done =
      substituteFrom parameters arguments (front ++ character :: rest)
        (front ++ [character]).width (done ++ [character]) := by
  refine scan_mark_of_runs (substituteFrom parameters arguments (front ++ character :: rest))
    (· ++ ·) List.append_assoc ?_ (rfl : front ++ character :: rest = _) mark done
  intro front rest character done whole mark
  rw [← whole]
  rcases Utf8.byteAt_encode front rest character with ⟨byte, found, kinds, _⟩
  conv_lhs => rw [substituteFrom, if_pos (lt_width_append (List.cons_ne_nil _ _))]
  simp only [found, readRun_of_mark mark, bind, Except.bind,
    kinds isWordCharacter isAsciiKind_isWordCharacter, not_isWordCharacter_of_isMark mark,
    Bool.false_eq_true, if_false]

theorem substituteFrom_append {parameters arguments : List Text}
    (sized : parameters.length ≤ arguments.length) (front rest done : Text) :
    substituteFrom parameters arguments (front ++ rest) front.width done =
      .ok (done ++ Piece.substitute parameters arguments rest) := by
  fun_induction Piece.ofText rest generalizing front done with
  | case1 =>
    have ends : ¬ front.width < (front ++ []).width := by simp
    rw [substituteFrom, if_neg ends, Piece.substitute, Piece.ofText]
    simp [pure, Except.pure]
  | case2 character rest ih =>
    rcases shape : Piece.first character rest with ⟨piece, after⟩
    rw [shape] at ih
    have whole := Piece.text_append_of_first shape
    by_cases mark : isMark character = true
    · rw [first_of_isMark mark] at shape
      cases shape
      have next := ih (front ++ [character]) (done ++ [character])
      simp only [List.append_assoc, List.singleton_append] at next
      rw [substituteFrom_of_mark mark, next, Piece.substitute, Piece.substitute,
        Piece.ofText_of_first (first_of_isMark mark rest)]
      rfl
    · rcases Utf8.byteAt_encode front rest character with ⟨byte, found, kinds, _⟩
      have next (shown : Text) := ih (front ++ piece.text) (done ++ shown)
      simp only [List.append_assoc, whole] at next
      rw [substituteFrom, if_pos (lt_width_append (List.cons_ne_nil _ _))]
      simp only [found, readRun_of_first shape (eq_false_of_ne_true mark), bind, Except.bind,
        kinds isWordCharacter isAsciiKind_isWordCharacter]
      have letter := isWordCharacter_of_first shape
      rw [Piece.substitute, Piece.ofText_of_first shape, List.flatMap_cons]
      cases piece with
      | word name =>
        have place := lookup_zip_of_idxOf? name sized
        rw [if_pos (letter.2 ⟨name, rfl⟩)]
        simp only [Piece.text] at next ⊢
        cases known : parameters.idxOf? name with
        | none =>
          rw [known] at place
          simp only [place, Option.getD_none]
          exact next name
        | some index =>
          rw [known] at place
          rcases place with ⟨argument, isArgument, isReplaced⟩
          simp only [isArgument, isReplaced, Option.getD_some]
          exact next argument
      | literal text =>
        rw [if_neg (mt letter.1 (by simp))]
        exact next text
      | mark other =>
        rw [if_neg (mt letter.1 (by simp))]
        exact next [other]

end ScriptPreprocessor
