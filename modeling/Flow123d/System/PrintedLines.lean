import Flow123d.Output.OutputMsh
import Flow123d.System.TextTokenizer

/-!
# Reading what was written

The lines that a tokenizer sees in a file, and what the library does with the words in them that
a stream has written.
-/

set_option autoImplicit false

namespace Flow123d

open Flow123d.Library

/-- The trimmed lines without the empty ones and those of comments. -/
def readableLines (raw : List String) : List String :=
  (raw.map fun line => String.ofList (TextTokenizer.content ['#'] line.toList)).filter (· ≠ "")

/-- A tokenizer on a file all of whose lines end with a line feed. -/
def Tokenizer.ofLines (raw : List String) : Tokenizer := ⟨readableLines raw, true, false, "", []⟩

/-! ## Words -/

/-- Nothing in the word has a meaning of its own for the tokenizer or its users. -/
def plainChar (char : Char) : Bool :=
  !isSpace char && char ≠ '"' && char ≠ '\\' && char ≠ '#' && char ≠ '$'

structure PlainWord (word : String) : Prop where
  filled : word ≠ ""
  plain : ∀ char ∈ word.toList, plainChar char = true

theorem plainChar_of_isDigit {char : Char} (digit : char.isDigit = true) :
    plainChar char = true := by
  obtain ⟨low, high⟩ := Char.isDigit_iff_toNat.mp digit
  have lower : 48 ≤ char.toNat := low
  have upper : char.toNat ≤ 57 := high
  have other : ∀ c : Char, c.toNat < 48 ∨ 57 < c.toNat → char ≠ c := by
    intro c outside same
    subst same
    omega
  have space : char ≠ ' ' := other _ (by decide)
  have tab : char ≠ '\t' := other _ (by decide)
  have feed : char ≠ '\n' := other _ (by decide)
  have carriage : char ≠ '\r' := other _ (by decide)
  have quote : char ≠ '"' := other _ (by decide)
  have backslash : char ≠ '\\' := other _ (by decide)
  have hash : char ≠ '#' := other _ (by decide)
  have dollar : char ≠ '$' := other _ (by decide)
  have vertical : char.toNat ≠ 11 := by omega
  have page : char.toNat ≠ 12 := by omega
  simp [plainChar, isSpace, space, tab, feed, carriage, quote, backslash, hash, dollar, vertical,
    page]

theorem plainWord_nat (n : ℕ) : PlainWord (toString n) where
  filled := Nat.repr_ne_empty
  plain char member := by
    rw [Nat.toString_eq_repr, Nat.toList_repr] at member
    exact plainChar_of_isDigit (Nat.isDigit_of_mem_toDigits (by decide) (by decide) member)

theorem plainWord_int (k : ℤ) : PlainWord (toString k) := by
  rw [Int.toString_eq_repr, Int.repr_eq_if]
  split_ifs with nonneg
  · exact plainWord_nat _
  · refine ⟨fun empty => ?_, fun char member => ?_⟩
    · have letters := congrArg String.toList empty
      simp at letters
    · rw [String.toList_append, List.mem_append] at member
      rcases member with sign | digit
      · have isSign : char = '-' := by simpa using sign
        rw [isSign]
        decide
      · exact (plainWord_nat _).plain char digit

/-- What is known of the library: words come back one by one, quotes are taken off, and the cast
of a word that a stream has written gives the number, where `rounded` is what a stream makes of
a floating point number. -/
structure Lexer.Reads (lexer : Lexer) (printer : Printer)
    (rounded : StreamFormat → Double → Double) : Prop where
  splits : ∀ words : List String, words ≠ [] → (∀ word ∈ words, PlainWord word) →
    lexer.tokens (lineOf words) = words
  unquotes : ∀ name : String, name ≠ "" → (∀ char ∈ name.toList, char ≠ '"' ∧ char ≠ '\\') →
    lexer.tokens ("\"" ++ name ++ "\"") = [name]
  unsigned : ∀ n : ℕ, n < 2 ^ 32 → lexer.castUnsigned (toString n) = some n
  integer : ∀ k : ℤ, -2 ^ 31 ≤ k → k < 2 ^ 31 →
    lexer.castUnsigned (toString k) = some (k % 2 ^ 32).toNat
  whole : ∀ k : ℤ, -2 ^ 31 ≤ k → k < 2 ^ 31 → lexer.castDouble (toString k) = some (.fin k)
  double : ∀ format value,
    lexer.castDouble (printer.double format value) = some (rounded format value)
  plain : ∀ format value, PlainWord (printer.double format value)

/-! ## Lines -/

theorem PlainWord.letters {word : String} (plain : PlainWord word) : word.toList ≠ [] :=
  fun empty => plain.filled (String.toList_eq_nil_iff.mp empty)

theorem isSpace_of_plainChar {char : Char} (plain : plainChar char = true) :
    isSpace char = false := by
  simp only [plainChar, Bool.and_eq_true, Bool.not_eq_true'] at plain
  exact plain.1.1.1.1

/-- Nothing is trimmed off a line that neither begins nor ends with a space. -/
theorem trim_of_ends {line : List Char} {first last : Char} (begins : line.head? = some first)
    (ends : line.getLast? = some last) (firstFilled : isSpace first = false)
    (lastFilled : isSpace last = false) : TextTokenizer.trim line = line := by
  have dropNone : ∀ {chars : List Char} {char : Char}, chars.head? = some char →
      isSpace char = false → chars.dropWhile isSpace = chars := by
    intro chars char isHead filled
    cases chars with
    | nil => cases isHead
    | cons head rest =>
        cases isHead
        rw [List.dropWhile_cons, filled]
        rfl
  unfold TextTokenizer.trim
  rw [dropNone begins firstFilled, dropNone (List.head?_reverse.trans ends) lastFilled,
    List.reverse_reverse]

theorem trim_append_blank {line : List Char} {first last : Char}
    (begins : line.head? = some first) (ends : line.getLast? = some last)
    (firstFilled : isSpace first = false) (lastFilled : isSpace last = false) :
    TextTokenizer.trim (line ++ [' ']) = line := by
  cases line with
  | nil => cases begins
  | cons head rest =>
      cases begins
      have trimmed : TextTokenizer.trim (first :: rest) = first :: rest :=
        trim_of_ends rfl ends firstFilled lastFilled
      unfold TextTokenizer.trim at trimmed ⊢
      rw [List.dropWhile_cons, firstFilled, if_neg Bool.false_ne_true] at trimmed
      rw [List.cons_append, List.dropWhile_cons, firstFilled, if_neg Bool.false_ne_true,
        ← List.cons_append, List.reverse_append, List.reverse_singleton, List.singleton_append,
        List.dropWhile_cons]
      exact trimmed

/-- A line that begins with a plain character is no comment. -/
theorem content_of_trim {raw line : List Char} {first : Char} (begins : line.head? = some first)
    (noComment : first ≠ '#') (trimmed : TextTokenizer.trim raw = line) :
    TextTokenizer.content ['#'] raw = line := by
  unfold TextTokenizer.content
  rw [trimmed]
  refine if_neg fun comment => ?_
  cases line with
  | nil => cases begins
  | cons head rest =>
      cases begins
      simp only [List.isPrefixOf, Bool.and_true, beq_iff_eq] at comment
      exact noComment comment.2.symm

/-! ## Lines of words -/

theorem toList_lineOf (words : List String) :
    (lineOf words).toList = [' '].intercalate (words.map String.toList) :=
  String.toList_intercalate

theorem toList_lineOf_cons (word next : String) (rest : List String) :
    (lineOf (word :: next :: rest)).toList = word.toList ++ ' ' :: (lineOf (next :: rest)).toList := by
  rw [toList_lineOf, toList_lineOf, List.map_cons, List.map_cons, List.intercalate_cons_cons]
  simp

theorem toList_lineOf_singleton (word : String) : (lineOf [word]).toList = word.toList := by
  rw [toList_lineOf, List.map_singleton, List.intercalate_singleton]

/-- A line of plain words begins and ends with a plain character. -/
theorem lineOf_ends {words : List String} (some_ : words ≠ [])
    (plain : ∀ word ∈ words, PlainWord word) :
    ∃ first last, (lineOf words).toList.head? = some first ∧
      (lineOf words).toList.getLast? = some last ∧ plainChar first = true ∧
        plainChar last = true := by
  induction words with
  | nil => exact absurd rfl some_
  | cons word rest ih =>
      have isPlain := plain word List.mem_cons_self
      have letters := isPlain.letters
      have head : word.toList.head? = some (word.toList.head letters) := List.head?_eq_some_head _
      have headPlain := isPlain.plain _ (List.head_mem letters)
      cases rest with
      | nil =>
          refine ⟨_, word.toList.getLast letters, ?_, ?_, headPlain,
            isPlain.plain _ (List.getLast_mem letters)⟩
          · rw [toList_lineOf_singleton, head]
          · rw [toList_lineOf_singleton, List.getLast?_eq_some_getLast letters]
      | cons next more =>
          obtain ⟨_, last, _, isLast, _, lastPlain⟩ := ih (List.cons_ne_nil _ _)
            fun other member => plain other (List.mem_cons_of_mem _ member)
          refine ⟨_, last, ?_, ?_, headPlain, lastPlain⟩
          · rw [toList_lineOf_cons, List.head?_append, head]
            rfl
          · rw [toList_lineOf_cons, List.getLast?_append, List.getLast?_cons, isLast]
            rfl

theorem lineOf_chars {words : List String} (plain : ∀ word ∈ words, PlainWord word) :
    ∀ char ∈ (lineOf words).toList, char = ' ' ∨ plainChar char = true := by
  induction words with
  | nil => exact fun char member => by cases member
  | cons word rest ih =>
      intro char member
      have isPlain := plain word List.mem_cons_self
      cases rest with
      | nil =>
          rw [toList_lineOf_singleton] at member
          exact .inr (isPlain.plain char member)
      | cons next more =>
          rw [toList_lineOf_cons, List.mem_append, List.mem_cons] at member
          rcases member with inWord | blank | later
          · exact .inr (isPlain.plain char inWord)
          · exact .inl blank
          · exact ih (fun other inRest => plain other (List.mem_cons_of_mem _ inRest)) char later

/-! ## Patterns -/

/-- A pattern that begins with a character that the line does not hold. -/
theorem containsPattern_absent {pattern line : String} {first : Char} {rest : List Char}
    (begins : pattern.toList = first :: rest) (absent : first ∉ line.toList) :
    containsPattern pattern line = false := by
  unfold containsPattern
  rw [List.any_eq_false]
  intro tail isTail found
  rw [begins] at found
  have suffix := (List.mem_tails _ _).mp isTail
  cases tail with
  | nil => exact absurd found Bool.false_ne_true
  | cons head later =>
      simp only [List.isPrefixOf, Bool.and_eq_true, beq_iff_eq] at found
      exact absent (found.1 ▸ suffix.subset List.mem_cons_self)

theorem lineOf_noDollar {words : List String} (plain : ∀ word ∈ words, PlainWord word) :
    '$' ∉ (lineOf words).toList := by
  intro member
  rcases lineOf_chars plain _ member with blank | isPlain
  · exact absurd blank (by decide)
  · exact absurd isPlain (by decide)

/-! ## Lines of a file -/

theorem readableLines_append (raw more : List String) :
    readableLines (raw ++ more) = readableLines raw ++ readableLines more := by
  unfold readableLines
  rw [List.map_append, List.filter_append]

/-- Of each line one line is left. -/
theorem readableLines_map {α : Type} {items : List α} {raw read : α → String}
    (each : ∀ item ∈ items, readableLines [raw item] = [read item]) :
    readableLines (items.map raw) = items.map read := by
  induction items with
  | nil => rfl
  | cons item rest ih =>
      have split : (item :: rest).map raw = [raw item] ++ rest.map raw := rfl
      rw [split, readableLines_append, each item List.mem_cons_self,
        ih fun other member => each other (List.mem_cons_of_mem _ member)]
      rfl

theorem readableLines_of_content {raw line : String}
    (content : TextTokenizer.content ['#'] raw.toList = line.toList) (filled : line ≠ "") :
    readableLines [raw] = [line] := by
  unfold readableLines
  rw [List.map_singleton, content, String.ofList_toList]
  simp [filled]

theorem ne_empty_of_head {line : String} {first : Char} (begins : line.toList.head? = some first) :
    line ≠ "" := by
  intro empty
  rw [empty] at begins
  cases begins

section Words

variable {words : List String} (some_ : words ≠ []) (plain : ∀ word ∈ words, PlainWord word)
include some_ plain

theorem readableLines_lineOf : readableLines [lineOf words] = [lineOf words] := by
  obtain ⟨first, last, begins, ends, firstPlain, lastPlain⟩ := lineOf_ends some_ plain
  have trimmed := trim_of_ends begins ends (isSpace_of_plainChar firstPlain)
    (isSpace_of_plainChar lastPlain)
  have noComment : first ≠ '#' := fun hash => absurd (hash ▸ firstPlain) (by decide)
  exact readableLines_of_content (content_of_trim begins noComment trimmed)
    (ne_empty_of_head begins)

theorem readableLines_lineOf_blank : readableLines [lineOf words ++ " "] = [lineOf words] := by
  obtain ⟨first, last, begins, ends, firstPlain, lastPlain⟩ := lineOf_ends some_ plain
  have trimmed := trim_append_blank begins ends (isSpace_of_plainChar firstPlain)
    (isSpace_of_plainChar lastPlain)
  have noComment : first ≠ '#' := fun hash => absurd (hash ▸ firstPlain) (by decide)
  refine readableLines_of_content ?_ (ne_empty_of_head begins)
  rw [String.toList_append]
  exact content_of_trim begins noComment trimmed

end Words

theorem readableLines_quoted (name : String) :
    readableLines ["\"" ++ name ++ "\""] = ["\"" ++ name ++ "\""] := by
  have letters : ("\"" ++ name ++ "\"").toList = '"' :: (name.toList ++ ['"']) := by
    rw [String.toList_append, String.toList_append]
    rfl
  have begins : ("\"" ++ name ++ "\"").toList.head? = some '"' := by rw [letters]; rfl
  have ends : ("\"" ++ name ++ "\"").toList.getLast? = some '"' := by
    rw [letters, ← List.cons_append, List.getLast?_concat]
  have trimmed := trim_of_ends begins ends (by decide) (by decide)
  exact readableLines_of_content (content_of_trim begins (by decide) trimmed)
    (ne_empty_of_head begins)

/-- What is read of a line is a part of it. -/
theorem content_subset (raw : List Char) : TextTokenizer.content ['#'] raw ⊆ raw := by
  unfold TextTokenizer.content
  split_ifs
  · exact List.nil_subset _
  · unfold TextTokenizer.trim
    intro char member
    have inDropped := (List.dropWhile_sublist _).subset (List.mem_reverse.mp member)
    exact (List.dropWhile_sublist _).subset (List.mem_reverse.mp inDropped)

theorem readableLines_noDollar {raw : List String} (noDollar : ∀ line ∈ raw, '$' ∉ line.toList) :
    ∀ line ∈ readableLines raw, '$' ∉ line.toList := by
  intro line member inLine
  obtain ⟨written, listed, rfl⟩ := List.mem_map.mp (List.mem_of_mem_filter member)
  rw [String.toList_ofList] at inLine
  exact noDollar written listed (content_subset _ inLine)

/-! ## Whole numbers -/

def castDigits (digits : List Char) : Option ℕ :=
  if digits ≠ [] ∧ digits.all Char.isDigit then some (digitsToNat digits) else none

/-- A word that is a number without a fraction. -/
def castWhole (word : String) : Option ℤ :=
  if word.toList.head? = some '-' then (castDigits (word.toList.drop 1)).map fun n : ℕ => -(n : ℤ)
  else (castDigits word.toList).map fun n : ℕ => (n : ℤ)

/-- Words between blanks, or one in quotes, and numbers without fractions. -/
def wordLexer : Lexer where
  tokens line :=
    if line.toList.head? = some '"' then
      [String.ofList ((line.toList.drop 1).takeWhile (· ≠ '"'))]
    else ((line.toList.splitOn ' ').filter (· ≠ [])).map String.ofList
  castUnsigned word := (castWhole word).map fun k : ℤ => (k % 2 ^ 32).toNat
  castDouble word := (castWhole word).map fun k : ℤ => .fin k

def wholePart : Double → ℤ
  | .fin value => value.floor
  | _ => 0

def wholePrinter : Printer where
  double _ value := toString (wholePart value)

theorem digitsToNat_toString (n : ℕ) : digitsToNat (toString n).toList = n := by
  rw [Nat.toString_eq_repr, Nat.toList_repr]
  unfold digitsToNat
  rw [← Nat.ofDigitChars_eq_foldl]
  exact Nat.ofDigitChars_toDigits (by decide) (by decide)

theorem castDigits_nat (n : ℕ) : castDigits (toString n).toList = some n := by
  have digits : (toString n).toList.all Char.isDigit = true := by
    rw [List.all_eq_true, Nat.toString_eq_repr, Nat.toList_repr]
    exact fun char member => Nat.isDigit_of_mem_toDigits (by decide) (by decide) member
  unfold castDigits
  rw [if_pos ⟨(plainWord_nat n).letters, digits⟩, digitsToNat_toString]

theorem castWhole_int (k : ℤ) : castWhole (toString k) = some k := by
  unfold castWhole
  rw [Int.toString_eq_repr, Int.repr_eq_if]
  split_ifs with nonneg minus minus
  · have digit := Nat.isDigit_of_mem_toDigits (by decide) (by decide)
      (Nat.toList_repr ▸ List.mem_of_mem_head? minus)
    exact absurd digit (by decide)
  · rw [← Nat.toString_eq_repr, castDigits_nat, Option.map_some, Int.toNat_of_nonneg nonneg]
  · have letters : ("-" ++ (-k).toNat.repr).toList.drop 1 = (toString (-k).toNat).toList := by
      rw [String.toList_append, Nat.toString_eq_repr]
      rfl
    rw [letters, castDigits_nat, Option.map_some, Int.toNat_of_nonneg (by omega), neg_neg]
  · refine absurd ?_ minus
    rw [String.toList_append]
    rfl

theorem castWhole_nat (n : ℕ) : castWhole (toString n) = some (n : ℤ) := castWhole_int n

theorem wordLexer_splits {words : List String} (some_ : words ≠ [])
    (plain : ∀ word ∈ words, PlainWord word) : wordLexer.tokens (lineOf words) = words := by
  obtain ⟨first, _, begins, _, firstPlain, _⟩ := lineOf_ends some_ plain
  have parts : ((lineOf words).toList.splitOn ' ') = words.map String.toList := by
    rw [toList_lineOf]
    refine List.splitOn_intercalate ' ' (fun letters member blank => ?_)
      (fun none_ => some_ (List.map_eq_nil_iff.mp none_))
    obtain ⟨word, listed, rfl⟩ := List.mem_map.mp member
    exact absurd ((plain word listed).plain _ blank) (by decide)
  have kept : (words.map String.toList).filter (· ≠ []) = words.map String.toList := by
    refine List.filter_eq_self.mpr fun letters member => ?_
    obtain ⟨word, listed, rfl⟩ := List.mem_map.mp member
    exact decide_eq_true (plain word listed).letters
  have noQuote : (lineOf words).toList.head? ≠ some '"' := by
    intro quoted
    rw [begins] at quoted
    cases quoted
    exact absurd firstPlain (by decide)
  refine (if_neg noQuote).trans ?_
  rw [parts, kept, List.map_map]
  exact (List.map_congr_left fun word _ => String.ofList_toList).trans (List.map_id _)

theorem wordLexer_reads :
    wordLexer.Reads wholePrinter fun _ value => .fin (wholePart value) where
  splits words some_ plain := wordLexer_splits some_ plain
  unquotes name _ plain := by
    have letters : ("\"" ++ name ++ "\"").toList = '"' :: (name.toList ++ ['"']) := by
      rw [String.toList_append, String.toList_append]
      rfl
    refine (if_pos (by rw [letters]; rfl)).trans ?_
    have found : (name.toList ++ ['"']).takeWhile (· ≠ '"') = name.toList := by
      rw [List.takeWhile_append_of_pos fun char member => decide_eq_true (plain char member).1]
      simp
    rw [letters, List.drop_one, List.tail_cons, found, String.ofList_toList]
  unsigned n small := by
    have known : ((n : ℤ) % 2 ^ 32).toNat = n := by omega
    exact (congrArg (Option.map fun k : ℤ => (k % 2 ^ 32).toNat) (castWhole_nat n)).trans
      (congrArg some known)
  integer k _ _ := congrArg (Option.map fun k : ℤ => Int.toNat (k % 2 ^ 32)) (castWhole_int k)
  whole k _ _ := congrArg (Option.map fun k : ℤ => Double.fin k) (castWhole_int k)
  double format value := congrArg (Option.map fun k : ℤ => Double.fin k) (castWhole_int _)
  plain format value := plainWord_int _

end Flow123d
