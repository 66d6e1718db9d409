import SourceSearch.Proofs.Words
import SourceSearch.Query.Parser

/-!
# Tokens of a query text

Blanks between tokens give nothing, a word goes on up to the next blank, and a phrase up to the next
quote.  Conversely every token is read off such a piece of the text: a word has no blank in it,
unless it is a sign with a phrase, and a phrase has no quote in it.
-/

namespace SourceSearch
namespace Query

variable {text rest : List Char}

/-! ## Pieces -/

/-- A text that the scanner reads as one word. -/
structure IsWord (word : List Char) : Prop where
  /-- There are characters. -/
  nonempty : word ≠ []
  /-- No blank ends the word early. -/
  unbroken : ∀ c ∈ word, Text.isBlank c = false
  /-- It does not start a phrase. -/
  notQuoted : ∀ words, word ≠ '"' :: words
  /-- It does not start a phrase with a sign in front. -/
  notSigned : ∀ sign words, word = sign :: '"' :: words → sign ≠ '-' ∧ sign ≠ '+'

/-- What comes after a word that ends here: a blank, or nothing. -/
def EndsWord (rest : List Char) : Prop := ∀ c ∈ rest.head?, Text.isBlank c = true

theorem endsWord_append {blanks : List Char} (nonempty : blanks ≠ [])
    (blank : ∀ c ∈ blanks, Text.isBlank c = true) (rest : List Char) :
    EndsWord (blanks ++ rest) := by
  obtain ⟨first, others, rfl⟩ := List.exists_cons_of_ne_nil nonempty
  intro c head
  obtain rfl : first = c := by simpa using head
  exact blank first List.mem_cons_self

/-! ## From pieces to tokens -/

theorem scan_blanks {blanks : List Char} (blank : ∀ c ∈ blanks, Text.isBlank c = true)
    (rest : List Char) : scan .between (blanks ++ rest) = scan .between rest := by
  induction blanks with
  | nil => rfl
  | cons c blanks ih =>
      rw [List.forall_mem_cons] at blank
      rw [List.cons_append, scan, if_pos blank.1, ih blank.2]

example : scan .between [' ', '\t', 'a'] = [.word ['a']] := by cbv

theorem scan_phrase (noQuote : '"' ∉ text) (read rest : List Char) :
    scan (.phrase read) (text ++ '"' :: rest) =
      phraseToken (text.reverse ++ read) ++ scan .between rest := by
  induction text generalizing read with
  | nil => rw [List.nil_append, scan, if_pos rfl, List.reverse_nil, List.nil_append]
  | cons c text ih =>
      rw [List.mem_cons, not_or] at noQuote
      rw [List.cons_append, scan, if_neg (Ne.symm noQuote.1), ih noQuote.2, List.reverse_cons,
        List.append_assoc, List.singleton_append]

theorem scan_prefixed (noQuote : '"' ∉ text) (read rest : List Char) :
    scan (.prefixed read) (text ++ '"' :: rest) =
      .word (read.reverse ++ text) :: scan .between rest := by
  induction text generalizing read with
  | nil => rw [List.nil_append, scan, if_pos rfl, List.append_nil]
  | cons c text ih =>
      rw [List.mem_cons, not_or] at noQuote
      rw [List.cons_append, scan, if_neg (Ne.symm noQuote.1), ih noQuote.2, List.reverse_cons,
        List.append_assoc, List.singleton_append]

/-- A quoted text between tokens. -/
theorem scan_quoted (noQuote : '"' ∉ text) (rest : List Char) :
    scan .between ('"' :: (text ++ '"' :: rest)) =
      phraseToken text.reverse ++ scan .between rest := by
  rw [scan, if_neg (by decide), if_pos rfl, scan_phrase noQuote, List.append_nil]

/-- A quoted text with a sign in front. -/
theorem scan_signed_quoted {sign : Char} (is : sign = '-' ∨ sign = '+') (noQuote : '"' ∉ text)
    (rest : List Char) :
    scan .between (sign :: '"' :: (text ++ '"' :: rest)) =
      .word (sign :: '"' :: text) :: scan .between rest := by
  have opens : '"' = '"' ∧ ([sign] = ['-'] ∨ [sign] = ['+']) := by simpa using is
  have notBlank : ¬ Text.isBlank sign = true := by rcases is with rfl | rfl <;> decide
  have notQuote : ¬ sign = '"' := by rcases is with rfl | rfl <;> decide
  rw [scan, if_neg notBlank, if_neg notQuote, scan, if_neg (by decide), if_pos opens,
    scan_prefixed noQuote]
  rfl

theorem scan_word_end (ends : EndsWord rest) (read : List Char) :
    scan (.word read) rest = wordToken read :: scan .between rest := by
  cases rest with
  | nil => rfl
  | cons c rest =>
      have blank : Text.isBlank c = true := ends c rfl
      rw [scan, if_pos blank, scan, if_pos blank]

/-- After two characters a word only goes on. -/
theorem scan_word_onward (unbroken : ∀ c ∈ text, Text.isBlank c = false) {read : List Char}
    (long : 2 ≤ read.length) (rest : List Char) :
    scan (.word read) (text ++ rest) = scan (.word (text.reverse ++ read)) rest := by
  induction text generalizing read with
  | nil => rfl
  | cons c text ih =>
      rw [List.forall_mem_cons] at unbroken
      have goesOn : ¬ (c = '"' ∧ (read = ['-'] ∨ read = ['+'])) := by
        rintro ⟨-, rfl | rfl⟩ <;> simp at long
      have longer : 2 ≤ (c :: read).length := Nat.le_succ_of_le long
      rw [List.cons_append, scan, if_neg (by simp [unbroken.1]), if_neg goesOn,
        ih unbroken.2 longer, List.reverse_cons, List.append_assoc, List.singleton_append]

theorem wordToken_reverse (word : List Char) :
    wordToken word.reverse = if word = ['O', 'R'] then .or else .word word := by
  have same : word.reverse = ['R', 'O'] ↔ word = ['O', 'R'] := List.reverse_eq_iff
  simp only [wordToken, same, List.reverse_reverse]

/-- A word between tokens. -/
theorem scan_word (proper : IsWord text) (ends : EndsWord rest) :
    scan .between (text ++ rest) = wordToken text.reverse :: scan .between rest := by
  obtain ⟨nonempty, unbroken, notQuoted, notSigned⟩ := proper
  obtain ⟨first, others, rfl⟩ := List.exists_cons_of_ne_nil nonempty
  rw [List.forall_mem_cons] at unbroken
  have notQuote : ¬ first = '"' := fun quote => notQuoted others (by rw [quote])
  rw [List.cons_append, scan, if_neg (by simp [unbroken.1]), if_neg notQuote]
  cases others with
  | nil => exact scan_word_end ends [first]
  | cons second others =>
      rw [List.forall_mem_cons] at unbroken
      have goesOn : ¬ (second = '"' ∧ ([first] = ['-'] ∨ [first] = ['+'])) := by
        rintro ⟨rfl, sign⟩
        have apart := notSigned first others rfl
        simp [apart] at sign
      rw [List.cons_append, scan, if_neg (by simp [unbroken.2.1]), if_neg goesOn,
        scan_word_onward unbroken.2.2 (by simp), scan_word_end ends]
      simp

/-! ## From tokens to pieces -/

/-- A sign, a quote and a text without quotes. -/
def IsSignedPhrase (word : List Char) : Prop :=
  ∃ sign words, (sign = '-' ∨ sign = '+') ∧ word = sign :: '"' :: words ∧ '"' ∉ words

/-- What a token can hold. -/
def Token.IsRead : Token → Prop
  | .word text => IsWord text ∨ IsSignedPhrase text
  | .phrase text => '"' ∉ text
  | .or => True

/-- What the scanner can be in the middle of. -/
def Scan.IsSound : Scan → Prop
  | .between => True
  | .phrase read => '"' ∉ read
  | .word read => IsWord read.reverse
  | .prefixed read => IsSignedPhrase read.reverse

theorem IsWord.snoc {word : List Char} (proper : IsWord word) {c : Char}
    (notBlank : Text.isBlank c = false)
    (goesOn : ¬ (c = '"' ∧ (word = ['-'] ∨ word = ['+']))) : IsWord (word ++ [c]) where
  nonempty := by simp
  unbroken := by
    rw [List.forall_mem_append, List.forall_mem_singleton]
    exact ⟨proper.unbroken, notBlank⟩
  notQuoted words quoted := by
    obtain ⟨first, others, rfl⟩ := List.exists_cons_of_ne_nil proper.nonempty
    rw [List.cons_append, List.cons.injEq] at quoted
    exact proper.notQuoted others (by rw [quoted.1])
  notSigned sign words signed := by
    obtain ⟨first, others, rfl⟩ := List.exists_cons_of_ne_nil proper.nonempty
    rw [List.cons_append, List.cons.injEq] at signed
    obtain ⟨rfl, signed⟩ := signed
    cases others with
    | nil =>
        -- The quote is the character that was added.
        obtain rfl : c = '"' := (List.cons.inj signed).1
        exact ⟨fun minus => goesOn ⟨rfl, .inl (by rw [minus])⟩,
          fun plus => goesOn ⟨rfl, .inr (by rw [plus])⟩⟩
    | cons second others =>
        rw [List.cons_append, List.cons.injEq] at signed
        exact proper.notSigned first others (by rw [signed.1])

theorem IsSignedPhrase.snoc {word : List Char} (signed : IsSignedPhrase word) {c : Char}
    (notQuote : c ≠ '"') : IsSignedPhrase (word ++ [c]) := by
  obtain ⟨sign, words, is, rfl, noQuote⟩ := signed
  refine ⟨sign, words ++ [c], is, rfl, ?_⟩
  rw [List.mem_append, List.mem_singleton, not_or]
  exact ⟨noQuote, Ne.symm notQuote⟩

theorem isRead_wordToken {read : List Char} (proper : IsWord read.reverse) :
    (wordToken read).IsRead := by
  rw [wordToken]
  split
  · trivial
  · exact .inl proper

theorem isRead_of_mem_phraseToken {read : List Char} (noQuote : '"' ∉ read) {token : Token}
    (member : token ∈ phraseToken read) : token.IsRead := by
  simp only [phraseToken] at member
  split at member
  · cases member
  · obtain rfl := List.mem_singleton.mp member
    exact fun quote => noQuote (List.mem_reverse.mp ((Text.trim_infix _).subset quote))

/-- Every token is read off a piece of the text. -/
theorem isRead_of_mem_scan {state : Scan} (sound : state.IsSound) {token : Token}
    (member : token ∈ scan state text) : token.IsRead := by
  fun_induction scan state text with
  | case1 => cases member
  | case2 c rest blank ih => exact ih trivial member
  | case3 rest _ ih => exact ih List.not_mem_nil member
  | case4 c rest notBlank notQuote ih =>
      refine ih ⟨by simp, by simpa using notBlank, ?_, by simp⟩ member
      rintro words quoted
      exact notQuote (List.cons.inj quoted).1
  | case5 read => exact isRead_of_mem_phraseToken sound member
  | case6 read rest ih =>
      rcases List.mem_append.mp member with here | later
      · exact isRead_of_mem_phraseToken sound here
      · exact ih trivial later
  | case7 read c rest notQuote ih =>
      refine ih ?_ member
      rw [Scan.IsSound, List.mem_cons, not_or]
      exact ⟨Ne.symm notQuote, sound⟩
  | case8 read =>
      obtain rfl := List.mem_singleton.mp member
      exact isRead_wordToken sound
  | case9 read c rest blank ih =>
      rcases List.mem_cons.mp member with rfl | later
      · exact isRead_wordToken sound
      · exact ih trivial later
  | case10 read c rest notBlank opens ih =>
      refine ih ?_ member
      obtain ⟨rfl, rfl | rfl⟩ := opens
      · exact ⟨'-', [], .inl rfl, rfl, List.not_mem_nil⟩
      · exact ⟨'+', [], .inr rfl, rfl, List.not_mem_nil⟩
  | case11 read c rest notBlank goesOn ih =>
      refine ih ?_ member
      rw [Scan.IsSound, List.reverse_cons]
      refine IsWord.snoc sound (by simpa using notBlank) ?_
      simpa [List.reverse_eq_iff] using goesOn
  | case12 read =>
      obtain rfl := List.mem_singleton.mp member
      exact .inr sound
  | case13 read rest ih =>
      rcases List.mem_cons.mp member with rfl | later
      · exact .inr sound
      · exact ih trivial later
  | case14 read c rest notQuote ih =>
      refine ih ?_ member
      rw [Scan.IsSound, List.reverse_cons]
      exact IsSignedPhrase.snoc sound notQuote

end Query
end SourceSearch
