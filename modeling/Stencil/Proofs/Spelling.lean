import Stencil.Token.Stream

/-!
# Writing tokens

The tokens of a tag are written with one blank behind each, and quoted texts get a backslash before
each backslash and each quotation mark. A token that is written like this is read back in one step:
the blank ends every word and every number, and a quoted text ends at its own mark. Other characters
end words and numbers as well, and a quoted text may be written in other ways, so each kind of token
has a law of its own, for whatever may stand behind it.
-/

namespace Stencil

namespace Text

/-- A code point in one set of ranges is in no other set that lies apart from it. Ranges are
compared by their bounds, so the premise can be decided, which no statement about all characters
could be. -/
theorem covers_apart {left right : Ranges}
    (apart : ∀ a ∈ left, ∀ b ∈ right, a.2 < b.1 ∨ b.2 < a.1) {code : Nat}
    (inLeft : left.covers code = true) : right.covers code = false := by
  have inRange (ranges : Ranges) (covered : ranges.covers code = true) :
      ∃ range ∈ ranges, range.1 ≤ code ∧ code ≤ range.2 := by
    induction ranges with
    | nil => cases covered
    | cons range rest inductionHypothesis =>
      obtain ⟨first, last⟩ := range
      unfold Ranges.covers at covered
      split at covered
      · cases covered
      · next notBefore =>
        split at covered
        · next notAfter =>
          exact ⟨(first, last), List.mem_cons_self, Nat.le_of_not_lt notBefore, notAfter⟩
        · obtain ⟨range, member, bounds⟩ := inductionHypothesis covered
          exact ⟨range, List.mem_cons_of_mem _ member, bounds⟩
  obtain ⟨a, memberLeft, lowLeft, highLeft⟩ := inRange left inLeft
  cases covered : right.covers code with
  | false => rfl
  | true =>
    obtain ⟨b, memberRight, lowRight, highRight⟩ := inRange right covered
    rcases apart a memberLeft b memberRight with below | above <;> omega

/-- The ten digits as a range, so that they can be compared with the ranges of the tables of letters
and blanks. -/
theorem isDigit_covers (c : Char) : c.isDigit = Ranges.covers [(0x30, 0x39)] c.toNat := by
  have low : (c.val ≥ '0'.val) ↔ ¬c.toNat < 0x30 := by
    rw [ge_iff_le, UInt32.le_iff_toNat_le, Nat.not_lt]
    rfl
  have high : (c.val ≤ '9'.val) ↔ c.toNat ≤ 0x39 := by
    rw [UInt32.le_iff_toNat_le]
    rfl
  unfold Char.isDigit
  simp only [Ranges.covers, low, high]
  by_cases below : c.toNat < 0x30 <;> simp [below]

/-- No digit is blank. -/
theorem digit_not_blank {c : Char} (digit : c.isDigit = true) : isBlank c = false := by
  rw [isDigit_covers] at digit
  exact covers_apart (by decide) digit

/-- The first character of a word is neither blank nor a digit, so it is clear from it what is
read. -/
theorem startsWord_apart {c : Char} (starts : startsWord c = true) :
    isBlank c = false ∧ c.isDigit = false := by
  have blankApart : ∀ a ∈ alphabetic, ∀ b ∈ blank, a.2 < b.1 ∨ b.2 < a.1 := by decide +kernel
  have digitApart : ∀ a ∈ alphabetic, ∀ b ∈ [(0x30, 0x39)], a.2 < b.1 ∨ b.2 < a.1 := by
    decide +kernel
  rcases Bool.or_eq_true_iff.mp starts with letter | lowLine
  · rw [isDigit_covers]
    exact ⟨covers_apart blankApart letter, covers_apart digitApart letter⟩
  · obtain rfl : c = '_' := beq_iff_eq.mp lowLine
    decide

end Text

/-- A number without a sign is written as its digits. -/
theorem Number.toList_wholeText {n : Int64} (natural : 0 ≤ n.toInt) :
    (wholeText n).toList = Nat.toDigits 10 n.toInt.natAbs := by
  rw [wholeText, integerText, if_neg (Int.not_lt.mpr natural), String.toList_ofList]

/-- The two marks that a quoted text can stand between. A text that holds one of them can be written
between those of the other kind. -/
inductive Quote where
  | single | double
deriving DecidableEq, Repr

namespace Quote

/-- The mark itself. -/
def mark : Quote → Char
  | .single => '\''
  | .double => '"'

/-- How one character is written between the marks. Only a backslash and the mark itself need a
backslash in front. -/
def escape (quote : Quote) (c : Char) : List Char :=
  if c = '\\' ∨ c = quote.mark then ['\\', c] else [c]

/-- How one character may be written between the marks as well: a line feed or a tab as a letter
behind a backslash, where this is asked for. -/
def spell (quote : Quote) (short : Bool) (c : Char) : List Char :=
  if short ∧ c = '\n' then ['\\', 'n']
  else if short ∧ c = '\t' then ['\\', 't']
  else quote.escape c

/-- How a text is written between the marks, with a choice at each position: `short` says where a
letter behind a backslash is used. -/
def encode (quote : Quote) (short : Nat → Bool) (text : List Char) : List Char :=
  (text.mapIdx fun position c => quote.spell (short position) c).flatten

/-- The first character is written as asked for at the first position, and the others as asked for
behind it. -/
theorem encode_cons (quote : Quote) (short : Nat → Bool) (c : Char) (rest : List Char) :
    quote.encode short (c :: rest) =
      quote.spell (short 0) c ++ quote.encode (fun position => short (position + 1)) rest := by
  rw [encode, List.mapIdx_cons, List.flatten_cons, encode]

/-- Where no letters are asked for, each character is written for itself. -/
theorem encode_escape (quote : Quote) (text : List Char) :
    quote.encode (fun _ => false) text = text.flatMap quote.escape := by
  induction text with
  | nil => rfl
  | cons c rest inductionHypothesis =>
    rw [encode_cons, inductionHypothesis, List.flatMap_cons]
    rfl

end Quote

namespace Token

/-- Whether a text is a word but no keyword, and so a name. It is checked, so that it can be
evaluated on a given text. -/
def isName (s : String) : Bool :=
  match s.toList with
  | [] => false
  | c :: rest =>
    Text.startsWord c && rest.all Text.continuesWord && (Keyword.ofWord? s).isNone

/-- A name has a first character that starts a word, goes on as a word, and is no keyword. These are
the conditions under which the scanner reads it as a name. -/
theorem name_parts {s : String} (named : isName s = true) :
    ∃ c rest, s.toList = c :: rest ∧ Text.startsWord c = true ∧
      (∀ d ∈ rest, Text.continuesWord d = true) ∧ Keyword.ofWord? s = none := by
  unfold isName at named
  split at named
  · cases named
  · next c rest parts =>
    rw [Bool.and_eq_true, Bool.and_eq_true, List.all_eq_true, Option.isNone_iff_eq_none] at named
    exact ⟨c, rest, parts, named.1.1, named.1.2, named.2⟩

namespace Kind

/-- How a token is written; a fault cannot be. For a text in quotes there is a choice, which is made
for all tokens at once by `quote`. -/
def spelling (quote : Quote) : Kind → List Char
  | .text s | .name s => s.toList
  | .opening tag => tag.opener.toList
  | .closing tag => tag.closer.toList
  | .keyword k => k.word.toList
  | .sign s => s.spelling.toList
  | .string s => quote.mark :: s.toList.flatMap quote.escape ++ [quote.mark]
  | .integer n => (Number.wholeText n).toList
  | .decimal x => (Number.valueText x).toList
  | .fault _ => []

/-- The tokens in a tag that are read back from how they are written: all but floats, whole
numbers with a sign of their own, and names that are no words. -/
def Writable : Kind → Prop
  | .keyword _ | .sign _ | .string _ => True
  | .name s => isName s
  | .integer n => 0 ≤ n.toInt
  | .text _ | .opening _ | .closing _ | .decimal _ | .fault _ => False

end Kind

/-- What stands behind a backslash is one character, whatever it is. In particular it is not the end
of the text. -/
theorem quoted_escaped (quote : Quote) (c : Char) (rest : List Char) :
    quoted quote.mark ('\\' :: c :: rest) =
      (quoted quote.mark rest).map fun (text, more) => (unescape c :: text, more + 2) := by
  have unmarked : ('\\' : Char) ≠ quote.mark := by cases quote <;> decide
  rw [quoted, if_neg unmarked, if_pos rfl]

/-- What is written for a character in a quoted text is read as the character. The cases are those
of how it is written: by a letter, behind a backslash, or as it is. -/
theorem quoted_spell (quote : Quote) (short : Bool) (c : Char) (rest : List Char) :
    quoted quote.mark (quote.spell short c ++ rest) =
      (quoted quote.mark rest).map fun (text, more) =>
        (c :: text, more + (quote.spell short c).length) := by
  unfold Quote.spell
  split
  · next feed =>
    obtain ⟨-, rfl⟩ := feed
    exact quoted_escaped quote 'n' rest
  · split
    · next tab =>
      obtain ⟨-, rfl⟩ := tab
      exact quoted_escaped quote 't' rest
    · unfold Quote.escape
      split
      · next special =>
        have same : unescape c = c := by
          rcases special with rfl | rfl
          · rfl
          · cases quote <;> rfl
        have read := quoted_escaped quote c rest
        rwa [same] at read
      · next ordinary =>
        obtain ⟨noBackslash, noMark⟩ := not_or.mp ordinary
        rw [List.singleton_append, quoted.eq_def]
        simp only [if_neg noMark, if_neg noBackslash, List.length_singleton]

/-- A quoted text is read up to its own mark. The induction is on the text, with what stands behind
it left open. -/
theorem quoted_encode (quote : Quote) (short : Nat → Bool) (text rest : List Char) :
    quoted quote.mark (quote.encode short text ++ quote.mark :: rest) =
      some (text, (quote.encode short text).length + 1) := by
  induction text generalizing short with
  | nil =>
    rw [Quote.encode, List.mapIdx_nil, List.flatten_nil, List.nil_append, quoted.eq_def]
    exact if_pos rfl
  | cons c later inductionHypothesis =>
    rw [Quote.encode_cons, List.append_assoc, quoted_spell, inductionHypothesis, Option.map_some,
      List.length_append]
    simp only [Option.some.injEq, Prod.mk.injEq, true_and]
    omega

/-- What goes on is taken up to what does not, and nothing more. This is how words and digits
end. -/
theorem takeWhile_stops {p : Char → Bool} {taken rest : List Char}
    (goesOn : ∀ c ∈ taken, p c = true) (stops : ∀ c ∈ rest.head?, p c = false) :
    (taken ++ rest).takeWhile p = taken ∧ (taken ++ rest).dropWhile p = rest := by
  rw [List.takeWhile_append_of_pos goesOn, List.dropWhile_append_of_pos goesOn]
  cases rest with
  | nil => exact ⟨List.append_nil taken, rfl⟩
  | cons c behind =>
    have stop : ¬p c = true := Bool.eq_false_iff.mp (stops c rfl)
    rw [List.takeWhile_cons_of_neg stop, List.dropWhile_cons_of_neg stop, List.append_nil]
    exact ⟨rfl, rfl⟩

section Steps

variable (trim : Bool) (tag : Tag) (afterDot : Bool)

/-- A letter starts no sign, for signs are of other characters. -/
theorem sign_of_letter {c : Char} (starts : Text.startsWord c = true) (rest : List Char) :
    sign? c rest = none := by
  unfold sign?
  split
  all_goals first | rfl | exact absurd starts (by decide)

/-- A word is read as the keyword or the name that it is, if what stands behind it does not go on
with it. A letter begins neither a number nor a sign nor a quotation, so the word is what is
tried. -/
theorem tagStep_word {c : Char} (starts : Text.startsWord c = true) {more rest : List Char}
    (continues : ∀ d ∈ more, Text.continuesWord d = true)
    (stops : ∀ d ∈ rest.head?, Text.continuesWord d = false) :
    tagStep trim tag afterDot c (more ++ rest) =
      match Keyword.ofWord? (String.ofList (c :: more)) with
      | some k => .token (.keyword k) more.length (.tag tag false)
      | none => .token (.name (String.ofList (c :: more))) more.length (.tag tag false) := by
  obtain ⟨notBlank, notDigit⟩ := Text.startsWord_apart starts
  have unquoted : ¬(c = '\'' ∨ c = '"') := by
    rintro (rfl | rfl) <;> exact absurd starts (by decide)
  have taken := (takeWhile_stops continues stops).1
  unfold tagStep
  rw [if_neg (by simp [notBlank])]
  split
  · exact absurd starts (by decide)
  · exact absurd starts (by decide)
  · simp only [sign_of_letter starts, if_neg unquoted, notDigit, starts, if_true, wordStep, taken]
    rfl

/-- What a digit begins is a number: it is neither blank, nor a sign, nor a mark, nor the end of the
tag. -/
theorem tagStep_number {c : Char} (digit : c.isDigit = true) (rest : List Char) :
    tagStep trim tag afterDot c rest = numberStep tag afterDot c rest := by
  have unquoted : ¬(c = '\'' ∨ c = '"') := by
    rintro (rfl | rfl) <;> exact absurd digit (by decide)
  have unsigned : sign? c rest = none := by
    unfold sign?
    split
    all_goals first | rfl | exact absurd digit (by decide)
  unfold tagStep
  rw [if_neg (by simp [Text.digit_not_blank digit])]
  split
  · exact absurd digit (by decide)
  · exact absurd digit (by decide)
  · simp only [unsigned, if_neg unquoted, digit, if_true]

/-- Digits are read as the whole number that they stand for, if no digit stands behind them, and no
fraction either unless a dot stands in front of them. For behind a dot a point begins the next step
of a path. -/
theorem tagStep_digits {c : Char} {more rest : List Char} {n : Int64}
    (digits : ∀ d ∈ c :: more, d.isDigit = true)
    (fits : Number.whole? (Nat.ofDigitChars 10 (c :: more) 0) = some n)
    (stops : ∀ d ∈ rest.head?, d.isDigit = false)
    (whole : afterDot = true ∨ fraction? rest = none) :
    tagStep trim tag afterDot c (more ++ rest) =
      .token (.integer n) more.length (.tag tag false) := by
  obtain ⟨digit, behind⟩ := List.forall_mem_cons.mp digits
  obtain ⟨taken, left⟩ := takeWhile_stops behind stops
  have noFraction : (if afterDot then none else fraction? rest) = none := by
    rcases whole with rfl | none
    · rfl
    · rw [none, ite_self]
  rw [tagStep_number trim tag afterDot digit, numberStep]
  simp only [taken, left, noFraction, fits]

/-- A quoted text is read as the text that was quoted. No quotation mark is a blank or begins a sign
or the end of a tag. -/
theorem tagStep_quoted (quote : Quote) {source text : List Char} {more : Nat}
    (read : quoted quote.mark source = some (text, more)) :
    tagStep trim tag afterDot quote.mark source =
      .token (.string (String.ofList text)) more (.tag tag false) := by
  have unsigned : sign? quote.mark source = none := by
    cases quote <;> rfl
  have quotes : quote.mark = '\'' ∨ quote.mark = '"' := by
    cases quote
    · exact .inl rfl
    · exact .inr rfl
  unfold tagStep
  rw [if_neg (by cases quote <;> decide)]
  split
  · next same => cases quote <;> exact absurd same (by decide)
  · next same => cases quote <;> exact absurd same (by decide)
  · simp only [unsigned, if_pos quotes, read]

/-- A sign is read as itself, and a dot is remembered. Signs of two characters are looked for first,
so none is cut short. -/
theorem tagStep_sign (sign : Sign) (rest : List Char) :
    ∃ c more, sign.spelling.toList = c :: more ∧ Text.isBlank c = false ∧
      tagStep trim tag afterDot c (more ++ rest) =
        .token (.sign sign) more.length (.tag tag (sign == .dot)) := by
  cases sign <;> exact ⟨_, _, rfl, by decide, rfl⟩

/-- What is written of a token, with a blank behind it, is read as the token. The cases are those of
the kinds that can be written; the blank ends words, numbers and signs alike. -/
theorem tagStep_spelling (quote : Quote) {kind : Kind} (writable : kind.Writable)
    (rest : List Char) :
    ∃ c more, kind.spelling quote = c :: more ∧ Text.isBlank c = false ∧
      tagStep trim tag afterDot c (more ++ ' ' :: rest) =
        .token kind more.length (.tag tag (kind = .sign .dot)) := by
  have blank {p : Char → Bool} (stop : p ' ' = false) : ∀ d ∈ (' ' :: rest).head?, p d = false := by
    rintro d ⟨⟩
    exact stop
  cases kind with
  | keyword k =>
    -- A keyword is read as a word first, so its spelling has to be that of a word.
    obtain ⟨c, more, parts, starts, continues⟩ : ∃ c more, k.word.toList = c :: more ∧
        Text.startsWord c = true ∧ more.all Text.continuesWord = true := by
      cases k <;> exact ⟨_, _, rfl, by decide, by decide⟩
    refine ⟨c, more, parts, (Text.startsWord_apart starts).1, ?_⟩
    rw [tagStep_word trim tag afterDot starts (List.all_eq_true.mp continues) (blank (by decide)),
      ← parts, String.ofList_toList, Keyword.ofWord?_word]
    simp
  | sign s =>
    obtain ⟨c, more, parts, notBlank, read⟩ := tagStep_sign trim tag afterDot s (' ' :: rest)
    refine ⟨c, more, parts, notBlank, ?_⟩
    rw [read]
    cases s <;> rfl
  | name s =>
    obtain ⟨c, more, parts, starts, continues, noKeyword⟩ := name_parts writable
    refine ⟨c, more, parts, (Text.startsWord_apart starts).1, ?_⟩
    rw [tagStep_word trim tag afterDot starts continues (blank (by decide)), ← parts,
      String.ofList_toList, noKeyword]
    simp
  | string s =>
    have notBlank : Text.isBlank quote.mark = false := by cases quote <;> decide
    refine ⟨quote.mark, s.toList.flatMap quote.escape ++ [quote.mark], rfl, notBlank, ?_⟩
    have read := tagStep_quoted trim tag afterDot quote
      (quoted_encode quote (fun _ => false) s.toList (' ' :: rest))
    rw [Quote.encode_escape] at read
    rw [List.append_assoc, List.singleton_append, read, String.ofList_toList, List.length_append]
    simp
  | integer n =>
    -- A whole number that is written has no sign, which is a token of its own.
    cases digits : Nat.toDigits 10 n.toInt.natAbs with
    | nil => exact absurd digits Nat.toDigits_ne_nil
    | cons c more =>
      have written : (Number.wholeText n).toList = c :: more :=
        (Number.toList_wholeText writable).trans digits
      have each : ∀ d ∈ c :: more, d.isDigit = true := by
        rw [← digits]
        exact fun d member => Nat.isDigit_of_mem_toDigits (by decide) (by decide) member
      have fits : Number.whole? (Nat.ofDigitChars 10 (c :: more) 0) = some n := by
        rw [← digits, Nat.ofDigitChars_ten_toDigits, Int.natAbs_of_nonneg writable,
          Number.whole?_toInt]
      refine ⟨c, more, written, Text.digit_not_blank (each c List.mem_cons_self), ?_⟩
      rw [tagStep_digits trim tag afterDot each fits (blank (by decide)) (.inr rfl)]
      simp
  | text s => cases writable
  | opening tag => cases writable
  | closing tag => cases writable
  | decimal x => cases writable
  | fault f => cases writable

end Steps

end Token

end Stencil
