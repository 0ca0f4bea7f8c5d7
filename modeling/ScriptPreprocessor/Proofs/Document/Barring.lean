import ScriptPreprocessor.Document.Legacy
import ScriptPreprocessor.Proofs.Text.Search

namespace ScriptPreprocessor

/-!
# Bars in legacy documents

A legacy document holds its text with a bar in every comment delimiter (`barred`), also where
delimiters overlap.  The bars are taken out by replacing one delimiter after the other from left to
right.  A replacement goes on behind the delimiter that it has made, so in a row of slashes it finds
every second bar only: a row of three or more slashes comes back with bars (`rowBarred`), and every
other text comes back as it was.

The proof keeps each bar with the character in front of it (`Bars`).  A replacement takes single
bars out (`Bars.replaceAll_text`), and the last two look at a place alone, since their delimiters do
not overlap with themselves (`Bars.remove_cons_of_ne`).
-/

namespace Document

/-- Whether a character and the one behind it, if there is one, are a comment delimiter. -/
def isDelimiter (character : Char) (next? : Option Char) : Bool :=
  next?.any fun next => [['/', '/'], ['/', '*'], ['*', '/']].contains [character, next]

/-- A text with a bar between the two characters of every comment delimiter. -/
def barred : Text → Text
  | [] => []
  | character :: rest =>
    if isDelimiter character rest.head? then
      character :: '|' :: barred rest
    else character :: barred rest

/-- A text with the bars of its rows of slashes: slashes are taken in pairs, and a bar stands behind
a pair when the row goes on. -/
def rowBarred : Text → Text
  | [] => []
  | '/' :: '/' :: rest =>
    if rest.head? = some '/' then '/' :: '/' :: '|' :: rowBarred rest
    else '/' :: '/' :: rowBarred rest
  | character :: rest => character :: rowBarred rest

/-! ## Characters and bars -/

/-- Characters, each with whether a bar stands behind it. -/
abbrev Bars := List (Char × Bool)

namespace Bars

/-- A text with a bar in front of it, or without one. -/
def behind (bar : Bool) (rest : Text) : Text :=
  if bar then '|' :: rest else rest

/-- The text that characters and bars make. -/
def text : Bars → Text
  | [] => []
  | (character, bar) :: rest => character :: behind bar (text rest)

/-- The bars of the delimiters of a text. -/
def ofText : Text → Bars
  | [] => []
  | character :: rest =>
    (character, isDelimiter character rest.head?) :: ofText rest

/-- Takes the bars between two characters out, from left to right and with two new characters each
time. -/
def remove (left right : Char) : Bars → Bars
  | [] => []
  | [last] => [last]
  | (first, bar) :: (second, more) :: rest =>
    if bar ∧ first = left ∧ second = right then
      (first, false) :: (second, more) :: remove left right rest
    else (first, bar) :: remove left right ((second, more) :: rest)

theorem text_ofText (source : Text) : (ofText source).text = barred source := by
  induction source with
  | nil => rfl
  | cons character rest ih =>
    rw [ofText, barred, text, ih]
    cases isDelimiter character rest.head? <;> rfl

@[simp] theorem map_fst_remove (left right : Char) (bars : Bars) :
    (bars.remove left right).map Prod.fst = bars.map Prod.fst := by
  fun_induction remove left right bars <;> simp_all

@[simp] theorem map_fst_ofText (source : Text) : (ofText source).map Prod.fst = source := by
  induction source with
  | nil => rfl
  | cons character rest ih => rw [ofText, List.map_cons, ih]

theorem replaceFrom_behind {left : Char} (noBar : left ≠ '|') (more replacement : Text) (bar : Bool)
    (rest : Text) :
    Text.replaceFrom (left :: more) replacement 0 (behind bar rest) =
      behind bar (Text.replaceFrom (left :: more) replacement 0 rest) := by
  cases bar with
  | false => rfl
  | true =>
    have differs : ¬ left :: more <+: '|' :: rest := by
      rw [List.cons_prefix_cons]
      exact fun same => noBar same.1
    simp only [behind, if_true]
    exact Text.replaceFrom_cons_of_differs differs replacement

/-- Replacing a pair of characters around a bar by the pair takes the bar out. -/
theorem replaceAll_text {left right : Char} (noBar : left ≠ '|') {bars : Bars}
    (noBars : ∀ mark ∈ bars, mark.1 ≠ '|') :
    bars.text.replaceAll [left, '|', right] [left, right] = (bars.remove left right).text := by
  rw [Text.replaceAll, if_neg (by simp)]
  fun_induction remove left right bars with
  | case1 => rfl
  | case2 last =>
    rcases last with ⟨character, bar⟩
    have short : ¬ [left, '|', right] <+: text [(character, bar)] := by
      intro begins
      have bound := begins.length_le
      cases bar <;> simp [text, behind] at bound
    rw [text, Text.replaceFrom_cons_of_differs short, replaceFrom_behind noBar]
    rfl
  | case3 first bar second more rest found ih =>
    rcases found with ⟨rfl, rfl, rfl⟩
    have later := ih fun mark member =>
      noBars mark (List.mem_cons_of_mem _ (List.mem_cons_of_mem _ member))
    have shape : text ((first, true) :: (second, more) :: rest) =
        [first, '|', second] ++ behind more (text rest) := rfl
    rw [shape, Text.replaceFrom_append_left (List.cons_ne_nil _ _), replaceFrom_behind noBar, later]
    rfl
  | case4 first bar second more rest other ih =>
    have later := ih fun mark member => noBars mark (List.mem_cons_of_mem _ member)
    have differs : ¬ [left, '|', right] <+: text ((first, bar) :: (second, more) :: rest) := by
      intro begins
      have second_ne := noBars (second, more) (List.mem_cons_of_mem _ List.mem_cons_self)
      cases bar with
      | false =>
        simp only [text, behind, Bool.false_eq_true, if_false, List.cons_prefix_cons] at begins
        exact second_ne begins.2.1.symm
      | true =>
        simp only [text, behind, if_true, List.cons_prefix_cons] at begins
        exact other ⟨rfl, begins.1.symm, begins.2.2.1.symm⟩
    rw [text, Text.replaceFrom_cons_of_differs differs, replaceFrom_behind noBar, later]
    rfl

theorem remove_cons_of_other {left right character : Char} {bars : Bars}
    (other : ¬ (character = left ∧ (bars.map Prod.fst).head? = some right)) (bar : Bool) :
    remove left right ((character, bar) :: bars) = (character, bar) :: remove left right bars := by
  cases bars with
  | nil => rfl
  | cons second rest => exact if_neg fun found => other ⟨found.2.1, congrArg some found.2.2⟩

/-- Between different characters every bar is taken out. -/
theorem remove_cons_of_ne {left right : Char} (differ : left ≠ right) (character : Char)
    (bar : Bool) (bars : Bars) :
    remove left right ((character, bar) :: bars) =
      (character, bar && !decide (character = left ∧ (bars.map Prod.fst).head? = some right)) ::
        remove left right bars := by
  by_cases pair : character = left ∧ (bars.map Prod.fst).head? = some right
  · rcases pair with ⟨rfl, next⟩
    rcases bars with _ | ⟨⟨second, more⟩, rest⟩
    · cases next
    · cases next
      have pastSecond : remove character second ((second, more) :: rest) =
          (second, more) :: remove character second rest :=
        remove_cons_of_other (fun same => differ same.1.symm) more
      cases bar <;> simp [remove, pastSecond]
  · rw [remove_cons_of_other pair, decide_eq_false pair, Bool.not_false, Bool.and_true]

/-- The bars that stay when each delimiter in turn has been replaced. -/
def settled (bars : Bars) : Bars :=
  ((bars.remove '/' '/').remove '/' '*').remove '*' '/'

/-- Of the bars of the delimiters, those between two slashes are the only ones that the later
replacements leave. -/
theorem remove_remove_cons (character : Char) (bars : Bars) :
    remove '*' '/' (remove '/' '*'
        ((character, isDelimiter character (bars.map Prod.fst).head?) :: bars)) =
      (character, decide (character = '/' ∧ (bars.map Prod.fst).head? = some '/')) ::
        remove '*' '/' (remove '/' '*' bars) := by
  rw [remove_cons_of_ne (by decide), remove_cons_of_ne (by decide), map_fst_remove]
  congr 2
  cases (bars.map Prod.fst).head? with
  | none => simp [isDelimiter]
  | some next =>
    simp only [isDelimiter, Option.any_some, Option.some.injEq]
    grind

theorem settled_ofText_cons {character : Char} {rest : Text}
    (apart : ¬ (character = '/' ∧ rest.head? = some '/')) :
    (ofText (character :: rest)).settled = (character, false) :: (ofText rest).settled := by
  have kept (bar : Bool) : remove '/' '/' ((character, bar) :: ofText rest) =
      (character, bar) :: remove '/' '/' (ofText rest) :=
    remove_cons_of_other (by rwa [map_fst_ofText]) bar
  have later := remove_remove_cons character ((ofText rest).remove '/' '/')
  rw [map_fst_remove, map_fst_ofText, decide_eq_false apart] at later
  rw [settled, ofText, kept, later]
  rfl

theorem settled_ofText_pair (rest : Text) :
    (ofText ('/' :: '/' :: rest)).settled =
      ('/', false) :: ('/', decide (rest.head? = some '/')) :: (ofText rest).settled := by
  have pair (second : Bool) (bars : Bars) :
      remove '/' '/' (('/', true) :: ('/', second) :: bars) =
        ('/', false) :: ('/', second) :: remove '/' '/' bars := if_pos ⟨rfl, rfl, rfl⟩
  have later := remove_remove_cons '/' ((ofText rest).remove '/' '/')
  simp only [map_fst_remove, map_fst_ofText, true_and] at later
  have first : isDelimiter '/' (some '/') = true := rfl
  rw [settled, ofText, ofText, List.head?_cons, first, pair, remove_cons_of_ne (by decide),
    remove_cons_of_ne (by decide), later]
  rfl

/-- The three replacements leave the bars behind pairs of slashes in a row that goes on. -/
theorem text_settled_ofText (source : Text) : (ofText source).settled.text = rowBarred source := by
  fun_induction rowBarred source with
  | case1 => rfl
  | case2 rest goesOn ih =>
    rw [settled_ofText_pair, decide_eq_true goesOn, text, text, ih]
    rfl
  | case3 rest ends ih =>
    rw [settled_ofText_pair, decide_eq_false ends, text, text, ih]
    rfl
  | case4 character rest other ih =>
    have apart : ¬ (character = '/' ∧ rest.head? = some '/') := by
      rintro ⟨slash, next⟩
      rcases List.head?_eq_some_iff.1 next with ⟨more, shape⟩
      exact other more slash shape
    rw [settled_ofText_cons apart, text, ih]
    rfl

end Bars

/-! ## The block -/

theorem head?_barred (text : Text) : (barred text).head? = text.head? := by
  cases text with
  | nil => rfl
  | cons character rest =>
    rw [barred]
    split <;> rfl

theorem getLast?_barred (text : Text) : (barred text).getLast? = text.getLast? := by
  induction text with
  | nil => rfl
  | cons character rest ih =>
    cases rest with
    | nil => rfl
    | cons next more =>
      have filled : barred (next :: more) ≠ [] := by
        intro empty
        have same := head?_barred (next :: more)
        rw [empty] at same
        cases same
      rw [barred, List.getLast?_cons_cons, ← ih]
      split
      · rw [List.getLast?_cons_of_ne_nil (List.cons_ne_nil _ _),
          List.getLast?_cons_of_ne_nil filled]
      · rw [List.getLast?_cons_of_ne_nil filled]

/-- No block comment ends inside a text with bars, so the block ends behind the text. -/
theorem splitFirst?_barred (text : Text) :
    (barred text ++ legacyEnd).splitFirst? legacyEnd = some (barred text, []) := by
  have ends {character : Char} {after : Text} (begins : legacyEnd <+: character :: after) :
      character = '*' ∧ after.head? = some '/' := by
    rcases begins with ⟨more, shape⟩
    cases shape
    exact ⟨rfl, rfl⟩
  induction text with
  | nil => rfl
  | cons character rest ih =>
    have notBar : ¬ legacyEnd <+: '|' :: (barred rest ++ legacyEnd) := fun begins =>
      absurd (ends begins).1 (by decide)
    have head : (barred rest ++ legacyEnd).head? = rest.head?.or (some '*') := by
      rw [List.head?_append, head?_barred]
      rfl
    rw [barred]
    split
    · have notHere : ¬ legacyEnd <+: character :: '|' :: (barred rest ++ legacyEnd) := fun begins =>
        absurd (ends begins).2 (by simp)
      rw [List.cons_append, List.cons_append, Text.splitFirst?_cons_of_differs notHere,
        Text.splitFirst?_cons_of_differs notBar, ih]
      rfl
    · next apart =>
      have notHere : ¬ legacyEnd <+: character :: (barred rest ++ legacyEnd) := by
        intro begins
        rcases ends begins with ⟨rfl, next⟩
        rw [head] at next
        cases rest with
        | nil => cases next
        | cons first more =>
          cases next
          exact apart rfl
      rw [List.cons_append, Text.splitFirst?_cons_of_differs notHere, ih]
      rfl

/-! ## The bars of rows -/

theorem filter_rowBarred (source : Text) :
    (rowBarred source).filter (· != '|') = source.filter (· != '|') := by
  fun_induction rowBarred source with
  | case1 => rfl
  | case2 rest _ ih => simp [ih]
  | case3 rest _ ih => simp [ih]
  | case4 character rest _ ih => rw [List.filter_cons, List.filter_cons, ih]

theorem bar_mem_rowBarred_iff {source : Text} (noBar : '|' ∉ source) :
    '|' ∈ rowBarred source ↔ ['/', '/', '/'] <:+: source := by
  fun_induction rowBarred source with
  | case1 => simp
  | case2 rest goesOn ih =>
    rcases List.head?_eq_some_iff.1 goesOn with ⟨more, rfl⟩
    exact iff_of_true (by simp) ⟨[], more, rfl⟩
  | case3 rest ends ih =>
    have first : ¬ ['/', '/', '/'] <+: '/' :: '/' :: rest := by
      rintro ⟨more, shape⟩
      cases shape
      exact ends rfl
    have second : ¬ ['/', '/', '/'] <+: '/' :: rest := by
      rintro ⟨more, shape⟩
      cases shape
      exact ends rfl
    simp only [List.mem_cons, not_or] at noBar
    rw [List.infix_cons_iff, List.infix_cons_iff, or_iff_right first, or_iff_right second,
      ← ih noBar.2.2]
    simp
  | case4 character rest other ih =>
    rw [List.mem_cons, not_or] at noBar
    have here : ¬ ['/', '/', '/'] <+: character :: rest := by
      rintro ⟨more, shape⟩
      cases shape
      exact other _ rfl rfl
    rw [List.infix_cons_iff, or_iff_right here, ← ih noBar.2, List.mem_cons, or_iff_right noBar.1]

theorem filter_of_plain {text : Text} (plain : '|' ∉ text) : text.filter (· != '|') = text := by
  rw [List.filter_eq_self]
  intro character member
  rw [bne_iff_ne]
  rintro rfl
  exact plain member

/-- A spelling without a bar occurs between the bars of rows only where it occurs in the text. -/
theorem infix_of_infix_rowBarred {spelling text : Text} (noBar : '|' ∉ spelling)
    (plain : '|' ∉ text) (occurs : spelling <:+: rowBarred text) : spelling <:+: text := by
  have filtered := occurs.filter (· != '|')
  rwa [filter_rowBarred, filter_of_plain noBar, filter_of_plain plain] at filtered

theorem rowBarred_eq_iff {text : Text} (plain : '|' ∉ text) :
    rowBarred text = text ↔ ¬ ['/', '/', '/'] <:+: text := by
  rw [← bar_mem_rowBarred_iff plain]
  constructor
  · intro same
    rwa [same]
  · intro free
    have filtered := filter_rowBarred text
    rwa [filter_of_plain free, filter_of_plain plain] at filtered

/-! ## The spellings -/

theorem foldl_replaceAll_of_absent {spellings : List (Text × Text)} {text : Text}
    (absent : ∀ spelling ∈ spellings, spelling.1 ≠ [] ∧ ¬ spelling.1 <:+: text) :
    spellings.foldl (fun text (old, new) => text.replaceAll old new) text = text := by
  induction spellings with
  | nil => rfl
  | cons spelling rest ih =>
    rcases spelling with ⟨old, new⟩
    rcases absent (old, new) List.mem_cons_self with ⟨filled, notHere⟩
    have later := ih fun other member => absent other (List.mem_cons_of_mem _ member)
    simp only [List.foldl_cons, Text.replaceAll_of_not_infix filled notHere, later]

/-- The spellings of the delimiters, in the order of replacement. -/
def barredSpellings : List (Text × Text) :=
  [(['/', '|', '/'], ['/', '/']), (['/', '|', '*'], ['/', '*']), (['*', '|', '/'], ['*', '/'])]

/-- The spellings of the names. -/
def nameSpellings : List (Text × Text) :=
  legacySpellings.drop barredSpellings.length

theorem legacySpellings_eq : legacySpellings = barredSpellings ++ nameSpellings := by decide

theorem foldl_barredSpellings {text : Text} (plain : '|' ∉ text) :
    barredSpellings.foldl (fun text (old, new) => text.replaceAll old new) (barred text) =
      rowBarred text := by
  have noBars {bars : Bars} (same : bars.map Prod.fst = text) : ∀ mark ∈ bars, mark.1 ≠ '|' := by
    intro mark member bar
    rw [← same, ← bar] at plain
    exact plain (List.mem_map_of_mem member)
  simp only [barredSpellings, List.foldl_cons, List.foldl_nil]
  rw [← Bars.text_ofText, Bars.replaceAll_text (by decide) (noBars (by simp)),
    Bars.replaceAll_text (by decide) (noBars (by simp)),
    Bars.replaceAll_text (by decide) (noBars (by simp)), ← Bars.text_settled_ofText, Bars.settled]

/-- The names of a legacy text that are replaced. -/
def legacyNames : List Text :=
  nameSpellings.map Prod.fst

theorem modernize_barred {text : Text} (plain : '|' ∉ text)
    (absent : ∀ name ∈ legacyNames, ¬ name <:+: text) :
    modernize (barred text) = rowBarred text := by
  rw [modernize, legacySpellings_eq, List.foldl_append, foldl_barredSpellings plain]
  refine foldl_replaceAll_of_absent fun spelling member => ?_
  have named : spelling.1 ∈ legacyNames := List.mem_map_of_mem member
  have shape : ∀ name ∈ legacyNames, name ≠ [] ∧ '|' ∉ name := by decide
  rcases shape _ named with ⟨filled, noBar⟩
  exact ⟨filled, mt (infix_of_infix_rowBarred noBar plain) (absent _ named)⟩

/-- A text that is stored with bars comes back with the bars of its rows of slashes, so it comes
back as it was exactly when no three slashes stand in a row. -/
theorem convertLegacy_barred {text : Text} (ended : text.endsWith ['\n'] = true)
    (plain : '|' ∉ text) (absent : ∀ name ∈ legacyNames, ¬ name <:+: text) :
    convertLegacy (legacyStart ++ barred text ++ legacyEnd) = rowBarred text ∧
      (convertLegacy (legacyStart ++ barred text ++ legacyEnd) = text ↔
        ¬ ['/', '/', '/'] <:+: text) := by
  have block : (legacyStart ++ barred text ++ legacyEnd).splitFirst? legacyStart =
      some ([], barred text ++ legacyEnd) := by
    rw [List.append_assoc, Text.splitFirst?_append_left (by decide)]
  have stillEnded : endLastLine (barred text) = barred text := by
    rw [Text.endsWith_newline_iff, ← getLast?_barred, ← Text.endsWith_newline_iff] at ended
    rw [endLastLine, if_pos ended]
  have read : convertLegacy (legacyStart ++ barred text ++ legacyEnd) = rowBarred text := by
    rw [convertLegacy, block]
    simp only [splitFirst?_barred, stillEnded]
    exact modernize_barred plain absent
  exact ⟨read, by rw [read, rowBarred_eq_iff plain]⟩

theorem convertLegacy_barred_comment :
    convertLegacy (legacyStart ++ barred "/* //* *//*/ */*\n".toList ++ legacyEnd) =
      "/* //* *//*/ */*\n".toList :=
  (@convertLegacy_barred "/* //* *//*/ */*\n".toList (by decide) (by decide)
    (by decide)).2.2 (by decide)

/-- Three slashes come back with a bar in front of the third. -/
theorem exists_convertLegacy_barred_ne :
    ∃ text : Text, text.endsWith ['\n'] = true ∧ '|' ∉ text ∧
      (∀ name ∈ legacyNames, ¬ name <:+: text) ∧
      convertLegacy (legacyStart ++ barred text ++ legacyEnd) ≠ text :=
  ⟨"///\n".toList, by decide, by decide, by decide, by decide⟩

end Document
end ScriptPreprocessor
