import Mathlib.Data.List.TakeWhile
import SourceSearch.Proofs.Query.Scanning

/-!
# The grammar of query texts

A query text is written from groups of terms: `OR` stands between the terms of a group, blanks stand
between all words, and a sign may stand in front of a phrase, a class tag or a word.  Reading the
text gives back the groups.  A phrase is trimmed when it stands alone, but not behind a sign.
-/

namespace SourceSearch
namespace Query

/-! ## Terms -/

/-- A text without blanks that does not start like a phrase. -/
structure IsUnquoted (text : List Char) : Prop where
  /-- There are characters. -/
  nonempty : text ≠ []
  /-- None of them is blank. -/
  unbroken : ∀ c ∈ text, Text.isBlank c = false
  /-- No quote is in front. -/
  notQuoted : text.head? ≠ some '"'

/-- A text that can stand between quotes. -/
structure IsPhrase (text : List Char) : Prop where
  /-- There are characters. -/
  nonempty : text ≠ []
  /-- None of them ends the phrase. -/
  noQuote : '"' ∉ text
  /-- No blanks are at its ends. -/
  trimmed : Text.trim text = text

/-- A key and a value that can stand on the two sides of a colon. -/
structure IsTag (key value : List Char) : Prop extends IsUnquoted key where
  /-- The first colon ends the key. -/
  noColon : ':' ∉ key
  /-- There is a value. -/
  filled : value ≠ []
  /-- No character of the value is blank. -/
  whole : ∀ c ∈ value, Text.isBlank c = false

/-- A text that can stand for itself: the first colon in it, if any, is at one of its ends. -/
structure IsPlainWord (text : List Char) : Prop extends IsUnquoted text where
  /-- It is no class tag. -/
  noTag : ∀ key value, text = key ++ ':' :: value → ':' ∉ key → key = [] ∨ value = []

/-- What a term is about. -/
inductive Atom where
  /-- A text between quotes. -/
  | phrase (text : List Char) (proper : IsPhrase text)
  /-- A key and a value with a colon between them. -/
  | tag (key value : List Char) (proper : IsTag key value)
  /-- A word. -/
  | word (text : List Char) (proper : IsPlainWord text)

namespace Atom

/-- How an atom is written. -/
def written : Atom → List Char
  | phrase words _ => '"' :: (words ++ ['"'])
  | tag key value _ => key ++ ':' :: value
  | word letters _ => letters

/-- The query that an atom stands for. -/
def query : Atom → Query
  | phrase words _ => .phrase (String.ofList words)
  | tag key value _ => .tag (String.ofList key) (String.ofList value)
  | word letters _ => .text (String.ofList letters)

end Atom

/-- What stands in front of an atom. -/
inductive Sign where
  /-- The atom is included. -/
  | plus
  /-- The atom is excluded. -/
  | minus

namespace Sign

/-- The character of a sign. -/
def mark : Sign → Char
  | plus => '+'
  | minus => '-'

/-- What a sign makes of a query. -/
def apply : Sign → Query → Query
  | plus => including
  | minus => excluding

end Sign

/-- An atom that means the same with no sign in front: it does not start with one, and it is not
`OR`. -/
def Atom.IsUnsigned : Atom → Prop
  | phrase _ _ => True
  | tag key _ _ => ∀ sign : Sign, key.head? ≠ some sign.mark
  | word letters _ => (∀ sign : Sign, letters.head? ≠ some sign.mark) ∧ letters ≠ ['O', 'R']

/-- An atom with or without a sign. -/
inductive Term where
  /-- No sign. -/
  | bare (atom : Atom) (unsigned : atom.IsUnsigned)
  /-- A sign. -/
  | signed (sign : Sign) (atom : Atom)

namespace Term

/-- How a term is written. -/
def written : Term → List Char
  | bare atom _ => atom.written
  | signed sign atom => sign.mark :: atom.written

/-- The query that a term stands for. -/
def query : Term → Query
  | bare atom _ => atom.query
  | signed sign atom => sign.apply atom.query

end Term

/-! ## Texts -/

/-- A run of blanks between two words. -/
structure IsGap (gap : List Char) : Prop where
  /-- There is a blank. -/
  nonempty : gap ≠ []
  /-- There is nothing else. -/
  blank : ∀ c ∈ gap, Text.isBlank c = true

/-- A text is a group of terms with `OR` between them. -/
inductive WritesGroup : List Term → List Char → Prop where
  /-- A single term. -/
  | single (term : Term) : WritesGroup [term] term.written
  /-- A term in front of others. -/
  | join (term : Term) {others : List Term} {before after text : List Char} (left : IsGap before)
      (right : IsGap after) (writes : WritesGroup others text) :
      WritesGroup (term :: others) (term.written ++ (before ++ ('O' :: 'R' :: (after ++ text))))

/-- A text is a sequence of groups. -/
inductive Writes : List (List Term) → List Char → Prop where
  /-- No group. -/
  | none : Writes [] []
  /-- A single group. -/
  | single {group : List Term} {text : List Char} (writes : WritesGroup group text) :
      Writes [group] text
  /-- A group in front of others. -/
  | more {group next : List Term} {later : List (List Term)} {text between rest : List Char}
      (writes : WritesGroup group text) (gap : IsGap between)
      (others : Writes (next :: later) rest) :
      Writes (group :: next :: later) (text ++ (between ++ rest))

/-- The query of a group: a single term stands for itself, several are alternatives. -/
def groupQuery : List Term → Query
  | [term] => term.query
  | terms => any (terms.map Term.query)

/-- The query of a sequence of groups: all of them hold. -/
def groupsQuery : List (List Term) → Query
  | [] => empty
  | [group] => groupQuery group
  | groups => all (groups.map groupQuery)

theorem exists_writesGroup {group : List Term} (nonempty : group ≠ []) :
    ∃ text, WritesGroup group text := by
  induction group with
  | nil => exact absurd rfl nonempty
  | cons term others ih =>
      by_cases last : others = []
      · subst last
        exact ⟨_, .single term⟩
      · obtain ⟨text, writes⟩ := ih last
        have gap : IsGap [' '] := ⟨by simp, by simp [Text.isBlank]⟩
        exact ⟨_, .join term gap gap writes⟩

/-- Every sequence of groups can be written. -/
theorem exists_writes {groups : List (List Term)} (nonempty : ∀ group ∈ groups, group ≠ []) :
    ∃ text, Writes groups text := by
  induction groups with
  | nil => exact ⟨[], .none⟩
  | cons group later ih =>
      rw [List.forall_mem_cons] at nonempty
      obtain ⟨text, writes⟩ := exists_writesGroup nonempty.1
      cases later with
      | nil => exact ⟨text, .single writes⟩
      | cons next later =>
          obtain ⟨rest, others⟩ := ih nonempty.2
          have gap : IsGap [' '] := ⟨by simp, by simp [Text.isBlank]⟩
          exact ⟨_, .more writes gap others⟩

/-! ## Words of the scanner -/

namespace IsUnquoted

variable {text : List Char}

theorem notQuoted' (unquoted : IsUnquoted text) (words : List Char) : text ≠ '"' :: words := by
  rintro rfl
  exact unquoted.notQuoted rfl

theorem isWord (unquoted : IsUnquoted text)
    (unsigned : ∀ sign : Sign, text.head? ≠ some sign.mark) : IsWord text where
  nonempty := unquoted.nonempty
  unbroken := unquoted.unbroken
  notQuoted := unquoted.notQuoted'
  notSigned sign words is := by
    rw [is] at unsigned
    exact ⟨fun minus => unsigned .minus (congrArg some minus),
      fun plus => unsigned .plus (congrArg some plus)⟩

theorem isWord_signed (unquoted : IsUnquoted text) (sign : Sign) : IsWord (sign.mark :: text) where
  nonempty := List.cons_ne_nil _ _
  unbroken := by
    rw [List.forall_mem_cons]
    exact ⟨by cases sign <;> decide, unquoted.unbroken⟩
  notQuoted words is := by
    have quote : sign.mark = '"' := (List.cons.inj is).1
    cases sign <;> exact absurd quote (by decide)
  notSigned first words is := absurd (List.cons.inj is).2 (unquoted.notQuoted' words)

end IsUnquoted

theorem IsTag.head? {key value : List Char} (proper : IsTag key value) :
    (key ++ ':' :: value).head? = key.head? := by
  obtain ⟨first, others, rfl⟩ := List.exists_cons_of_ne_nil proper.nonempty
  rfl

theorem IsTag.isUnquoted {key value : List Char} (proper : IsTag key value) :
    IsUnquoted (key ++ ':' :: value) where
  nonempty := by simp
  unbroken := by
    rw [List.forall_mem_append, List.forall_mem_cons]
    exact ⟨proper.unbroken, by decide, proper.whole⟩
  notQuoted := proper.head? ▸ proper.notQuoted

/-! ## From atoms to queries -/

theorem dropTrailing_of_forall {p : Char → Bool} {text : List Char}
    (none : ∀ c ∈ text, p c = false) : Text.dropTrailing p text = text := by
  have kept : text.reverse.dropWhile p = text.reverse := by
    cases reversed : text.reverse with
    | nil => rfl
    | cons last front =>
        have member : last ∈ text := List.mem_reverse.mp (reversed ▸ List.mem_cons_self)
        rw [List.dropWhile_cons_of_neg (by simp [none last member])]
  rw [Text.dropTrailing, kept, List.reverse_reverse]

theorem atomOf_quoted {text : List Char} (noQuote : '"' ∉ text) :
    atomOf ('"' :: text) = phrase (String.ofList text) := by
  have kept : Text.dropTrailing (· == '"') text = text := by
    refine dropTrailing_of_forall fun c member => beq_eq_false_iff_ne.mpr ?_
    rintro rfl
    exact noQuote member
  rw [atomOf, kept]

/-- A text without a quote in front is split at its first colon. -/
theorem atomOf_unquoted {text : List Char} (unquoted : IsUnquoted text) :
    atomOf text =
      if (text.takeWhile (· ≠ ':')).isEmpty || ((text.dropWhile (· ≠ ':')).drop 1).isEmpty then
        .text (String.ofList text)
      else tag (String.ofList (text.takeWhile (· ≠ ':')))
        (String.ofList ((text.dropWhile (· ≠ ':')).drop 1)) := by
  rw [atomOf]
  exact fun words is => unquoted.notQuoted' words is

theorem atomOf_tag {key value : List Char} (proper : IsTag key value) :
    atomOf (key ++ ':' :: value) = tag (String.ofList key) (String.ofList value) := by
  have before : ∀ c ∈ key, decide (c ≠ ':') = true := by
    intro c member
    rw [decide_eq_true_eq]
    rintro rfl
    exact proper.noColon member
  have first : (key ++ ':' :: value).takeWhile (· ≠ ':') = key := by
    rw [List.takeWhile_append_of_pos before, List.takeWhile_cons_of_neg (by simp), List.append_nil]
  have second : ((key ++ ':' :: value).dropWhile (· ≠ ':')).drop 1 = value := by
    rw [List.dropWhile_append_of_pos before, List.dropWhile_cons_of_neg (by simp)]
    rfl
  rw [atomOf_unquoted proper.isUnquoted, first, second, if_neg]
  simp [proper.nonempty, proper.filled]

theorem atomOf_word {text : List Char} (proper : IsPlainWord text) :
    atomOf text = .text (String.ofList text) := by
  rw [atomOf_unquoted proper.toIsUnquoted, if_pos]
  rw [Bool.or_eq_true, List.isEmpty_iff, List.isEmpty_iff]
  cases tail : text.dropWhile (· ≠ ':') with
  | nil => exact .inr rfl
  | cons c value =>
      have colon : c = ':' := by
        have head := List.head?_dropWhile_not (· ≠ ':') text
        rw [tail] at head
        simpa using head
      rw [colon] at tail
      refine proper.noTag _ value ?_ fun member => ?_
      · rw [← tail, List.takeWhile_append_dropWhile]
      · simpa using List.mem_takeWhile_imp member

/-! ## From terms to tokens -/

/-- What the scanner keeps of an atom in a word: the quote at the end is left out. -/
def Atom.scanned : Atom → List Char
  | phrase words _ => '"' :: words
  | tag key value _ => key ++ ':' :: value
  | word letters _ => letters

/-- The token of a term. -/
def Term.token : Term → Token
  | bare (.phrase words _) _ => .phrase words
  | bare (.tag key value _) _ => .word (key ++ ':' :: value)
  | bare (.word letters _) _ => .word letters
  | signed sign atom => .word (sign.mark :: atom.scanned)

theorem atomOf_scanned (atom : Atom) : atomOf atom.scanned = atom.query := by
  cases atom with
  | phrase text proper => exact atomOf_quoted proper.noQuote
  | tag key value proper => exact atomOf_tag proper
  | word text proper => exact atomOf_word proper

theorem termOf_signed (sign : Sign) {word : List Char} (nonempty : word ≠ []) :
    termOf (sign.mark :: word) = sign.apply (atomOf word) := by
  obtain ⟨first, others, rfl⟩ := List.exists_cons_of_ne_nil nonempty
  cases sign <;> rfl

theorem termOf_unsigned {word : List Char}
    (unsigned : ∀ sign : Sign, word.head? ≠ some sign.mark) : termOf word = atomOf word := by
  rw [termOf]
  · rintro c others rfl
    exact unsigned .minus rfl
  · rintro c others rfl
    exact unsigned .plus rfl

theorem scanned_ne_nil (atom : Atom) : atom.scanned ≠ [] := by
  cases atom with
  | phrase text proper => exact List.cons_ne_nil _ _
  | tag key value proper => exact proper.isUnquoted.nonempty
  | word text proper => exact proper.nonempty

/-- The token of a term is read as the term. -/
theorem groups_token (term : Term) (rest : List Token) :
    groups (term.token :: rest) = groups.place term.query rest (groups rest) := by
  cases term with
  | signed sign atom =>
      rw [Term.token, groups, termOf_signed sign (scanned_ne_nil atom), atomOf_scanned, Term.query]
  | bare atom unsigned =>
      cases atom with
      | phrase text proper => rfl
      | tag key value proper =>
          rw [Term.token, groups, termOf_unsigned (proper.head?.symm ▸ unsigned), atomOf_tag proper]
          rfl
      | word text proper =>
          rw [Term.token, groups, termOf_unsigned unsigned.1, atomOf_word proper]
          rfl

theorem Term.token_ne_or (term : Term) : term.token ≠ .or := by
  rcases term with ⟨⟨⟩ | ⟨⟩ | ⟨⟩, -⟩ | ⟨⟩ <;> simp [Term.token]

theorem sign_mark (sign : Sign) : sign.mark = '-' ∨ sign.mark = '+' := by
  cases sign
  · exact .inr rfl
  · exact .inl rfl

/-- A word of the scanner that is not `OR` gives its token. -/
theorem scan_word_of_ne {word rest : List Char} (proper : IsWord word) (notOr : word ≠ ['O', 'R'])
    (ends : EndsWord rest) : scan .between (word ++ rest) = .word word :: scan .between rest := by
  rw [scan_word proper ends, wordToken_reverse, if_neg notOr]

/-- A term in front of a blank is read as its token. -/
theorem scan_term (term : Term) {rest : List Char} (ends : EndsWord rest) :
    scan .between (term.written ++ rest) = term.token :: scan .between rest := by
  have signed_ne (sign : Sign) (text : List Char) : sign.mark :: text ≠ ['O', 'R'] := by
    intro same
    cases sign <;> cases same
  cases term with
  | bare atom unsigned =>
      cases atom with
      | phrase text proper =>
          have token : phraseToken text.reverse = [.phrase text] := by
            simp [phraseToken, proper.trimmed, proper.nonempty]
          have read := scan_quoted proper.noQuote rest
          rw [token] at read
          simpa [Term.written, Atom.written, Term.token] using read
      | tag key value proper =>
          refine scan_word_of_ne (proper.isUnquoted.isWord (proper.head?.symm ▸ unsigned)) ?_ ends
          intro same
          have colon : ':' ∈ ['O', 'R'] := same ▸ List.mem_append_right key List.mem_cons_self
          exact absurd colon (by decide)
      | word text proper =>
          exact scan_word_of_ne (proper.toIsUnquoted.isWord unsigned.1) unsigned.2 ends
  | signed sign atom =>
      cases atom with
      | phrase text proper =>
          have read := scan_signed_quoted (sign_mark sign) proper.noQuote rest
          simpa [Term.written, Atom.written, Term.token, Atom.scanned] using read
      | tag key value proper =>
          exact scan_word_of_ne (proper.isUnquoted.isWord_signed sign) (signed_ne _ _) ends
      | word text proper =>
          exact scan_word_of_ne (proper.toIsUnquoted.isWord_signed sign) (signed_ne _ _) ends

/-! ## From groups to tokens and back -/

/-- The tokens of a group. -/
def groupTokens : List Term → List Token
  | [] => []
  | [term] => [term.token]
  | term :: others => term.token :: .or :: groupTokens others

theorem IsGap.endsWord {gap : List Char} (is : IsGap gap) (rest : List Char) :
    EndsWord (gap ++ rest) := endsWord_append is.nonempty is.blank rest

theorem isWord_or : IsWord ['O', 'R'] := ⟨by simp, by simp [Text.isBlank], by simp, by simp⟩

theorem WritesGroup.nonempty {group : List Term} {text : List Char}
    (writes : WritesGroup group text) : group ≠ [] := by
  cases writes <;> simp

theorem groupTokens_cons (term : Term) {others : List Term} (more : others ≠ []) :
    groupTokens (term :: others) = term.token :: .or :: groupTokens others := by
  obtain ⟨next, later, rfl⟩ := List.exists_cons_of_ne_nil more
  rfl

theorem scan_group {group : List Term} {text rest : List Char} (writes : WritesGroup group text)
    (ends : EndsWord rest) :
    scan .between (text ++ rest) = groupTokens group ++ scan .between rest := by
  induction writes with
  | single term => exact scan_term term ends
  | @join term others before after text left right writes ih =>
      calc scan .between (term.written ++ (before ++ ('O' :: 'R' :: (after ++ text))) ++ rest)
          = scan .between
              (term.written ++ (before ++ (['O', 'R'] ++ (after ++ (text ++ rest))))) := by simp
        _ = term.token :: scan .between (['O', 'R'] ++ (after ++ (text ++ rest))) := by
            rw [scan_term term (left.endsWord _), scan_blanks left.blank]
        _ = term.token :: .or :: scan .between (text ++ rest) := by
            rw [scan_word isWord_or (right.endsWord _), scan_blanks right.blank]
            rfl
        _ = groupTokens (term :: others) ++ scan .between rest := by
            rw [ih, groupTokens_cons term writes.nonempty]
            rfl

theorem scan_groups {written : List (List Term)} {text rest : List Char}
    (writes : Writes written text) (ends : EndsWord rest) :
    scan .between (text ++ rest) = written.flatMap groupTokens ++ scan .between rest := by
  induction writes with
  | none => rfl
  | single writes => simpa using scan_group writes ends
  | @more group next later text between following writes gap others ih =>
      calc scan .between (text ++ (between ++ following) ++ rest)
          = scan .between (text ++ (between ++ (following ++ rest))) := by simp
        _ = groupTokens group ++ scan .between (following ++ rest) := by
            rw [scan_group writes (gap.endsWord _), scan_blanks gap.blank]
        _ = (group :: next :: later).flatMap groupTokens ++ scan .between rest := by
            rw [ih, ← List.append_assoc]
            rfl

/-- The tokens of a group in front of a term are read as a group of its own. -/
theorem groups_groupTokens {group : List Term} (nonempty : group ≠ []) {later : List Token}
    (apart : later.head? ≠ some .or) :
    groups (groupTokens group ++ later) = group.map Term.query :: groups later := by
  induction group with
  | nil => exact absurd rfl nonempty
  | cons term others ih =>
      by_cases last : others = []
      · subst last
        refine (groups_token term later).trans ?_
        rw [groups.place]
        · rfl
        · rintro tokens first rest rfl
          exact absurd rfl apart
      · rw [groupTokens_cons term last, List.cons_append, List.cons_append, groups_token, groups,
          ih last]
        rfl

theorem head?_groupTokens {group : List Term} (later : List Token) (nonempty : group ≠ []) :
    (groupTokens group ++ later).head? ≠ some .or := by
  obtain ⟨term, others, rfl⟩ := List.exists_cons_of_ne_nil nonempty
  cases others with
  | nil => exact fun is => term.token_ne_or (Option.some.inj is)
  | cons next others => exact fun is => term.token_ne_or (Option.some.inj is)

theorem groups_flatMap {written : List (List Term)} (nonempty : ∀ group ∈ written, group ≠ []) :
    groups (written.flatMap groupTokens) = written.map (·.map Term.query) := by
  induction written with
  | nil => rfl
  | cons group later ih =>
      rw [List.forall_mem_cons] at nonempty
      have apart : (later.flatMap groupTokens).head? ≠ some .or := by
        cases later with
        | nil => simp
        | cons next later =>
            exact head?_groupTokens _ (nonempty.2 next List.mem_cons_self)
      rw [List.flatMap_cons, groups_groupTokens nonempty.1 apart, ih nonempty.2, List.map_cons]

theorem combine_any (group : List Term) :
    combine any (group.map Term.query) = groupQuery group := by
  rcases group with - | ⟨term, - | ⟨next, others⟩⟩ <;> rfl

/-! ## Reading what was written -/

/-- **Reading undoes writing.**  Every sequence of groups of terms can be written, and every text
that it is written as, with any blanks around it, is read as the query of these groups. -/
theorem parse_writes {written : List (List Term)} (nonempty : ∀ group ∈ written, group ≠ []) :
    (∃ text, Writes written text) ∧
      ∀ leading text trailing, (∀ c ∈ leading, Text.isBlank c = true) → Writes written text →
        (∀ c ∈ trailing, Text.isBlank c = true) →
          parse (String.ofList (leading ++ text ++ trailing)) = groupsQuery written := by
  refine ⟨exists_writes nonempty, fun leading text trailing before writes after => ?_⟩
  have ends : EndsWord trailing := fun c head => after c (List.mem_of_head? head)
  have done : scan .between trailing = [] := by
    rw [← trailing.append_nil, scan_blanks after]
    rfl
  have tokens : tokensOf (leading ++ text ++ trailing) = written.flatMap groupTokens := by
    rw [tokensOf, List.append_assoc, scan_blanks before, scan_groups writes ends, done,
      List.append_nil]
  have items : (groups (written.flatMap groupTokens)).map (combine any) =
      written.map groupQuery := by
    rw [groups_flatMap nonempty, List.map_map]
    exact List.map_congr_left fun group _ => combine_any group
  rw [parse, String.toList_ofList, tokens, items]
  rcases written with - | ⟨group, - | ⟨next, later⟩⟩ <;> rfl

/-- A word with a colon at its end, which is no class tag. -/
def sampleWord : Atom :=
  .word ['a', ':']
    { nonempty := by decide
      unbroken := by simp [Text.isBlank]
      notQuoted := by decide
      noTag := by
        intro key value is noColon
        rcases key with - | ⟨c, - | ⟨d, key⟩⟩
        · exact .inl rfl
        · exact .inr (by simpa using (List.cons.inj is).2.symm)
        · simp only [List.cons_append, List.cons.injEq] at is
          exact absurd (is.2.1 ▸ by simp) noColon }

/-- A class tag with a quote in it. -/
def sampleTag : Atom :=
  .tag ['k'] ['"', 'v']
    { nonempty := by decide
      unbroken := by simp [Text.isBlank]
      notQuoted := by decide
      noColon := by decide
      filled := by decide
      whole := by simp [Text.isBlank] }

/-- A phrase of two words. -/
def samplePhrase : Atom :=
  .phrase ['o', 'l', 'd', ' ', 'a', 'p', 'i'] ⟨by decide, by decide, by decide⟩

/-- A word beside the alternatives of a class tag, an excluded phrase and an included word. -/
def sampleGroups : List (List Term) := [
  [.bare sampleWord ⟨by rintro (- | -) <;> decide, by decide⟩],
  [.bare sampleTag (by rintro (- | -) <;> decide), .signed .minus samplePhrase,
    .signed .plus sampleWord]]

theorem writes_sampleGroups :
    Writes sampleGroups
      (['a', ':'] ++ ([' ', '\u3000'] ++ (['k', ':', '"', 'v'] ++ ([' '] ++ ('O' :: 'R' ::
        ([' '] ++ (['-', '"', 'o', 'l', 'd', ' ', 'a', 'p', 'i', '"'] ++ (['\t'] ++ ('O' :: 'R' ::
          ([' ', ' '] ++ ['+', 'a', ':'])))))))))) := by
  have space : IsGap [' '] := ⟨by decide, by simp [Text.isBlank]⟩
  have spaces : IsGap [' ', ' '] := ⟨by decide, by simp [Text.isBlank]⟩
  have tab : IsGap ['\t'] := ⟨by decide, by simp [Text.isBlank]⟩
  have wide : IsGap [' ', '\u3000'] := ⟨by decide, by simp [Text.isBlank]⟩
  exact .more (.single _) wide
    (.single (.join _ space space (.join _ tab spaces (.single _))))

/-- Blanks of all kinds, a sign before a phrase, a colon at an end and a quote within a word. -/
theorem parse_writes_sample :
    (∀ group ∈ sampleGroups, group ≠ []) ∧
      (∀ c ∈ ['\n'], Text.isBlank c = true) ∧
      parse "\na: \u3000k:\"v OR -\"old api\"\tOR  +a:\n" =
        all [text "a:",
          any [tag "k" "\"v", excluding (phrase "old api"), including (text "a:")]] := by
  have nonempty : ∀ group ∈ sampleGroups, group ≠ [] := by simp [sampleGroups]
  have blank : ∀ c ∈ ['\n'], Text.isBlank c = true := by simp [Text.isBlank]
  refine ⟨nonempty, blank, ?_⟩
  exact (parse_writes nonempty).2 ['\n'] _ ['\n'] blank writes_sampleGroups blank

/-! ## Signs and phrases -/

/-- A text between quotes. -/
def quoted (words : String) : String := "\"" ++ words ++ "\""

/-- A text with a sign in front. -/
def Sign.before (sign : Sign) (text : String) : String := String.singleton sign.mark ++ text

theorem toList_quoted (words : String) :
    (quoted words).toList = '"' :: (words.toList ++ ['"']) := by
  simp [quoted]

theorem trim_ne_nil {words : List Char} (filled : ∃ c ∈ words, Text.isBlank c = false) :
    Text.trim words ≠ [] := by
  obtain ⟨c, member, notBlank⟩ := filled
  intro none
  rw [Text.trim, Text.dropTrailing, List.reverse_eq_nil_iff, List.dropWhile_eq_nil_iff] at none
  have blank : Text.isBlank c = true := by
    rw [← List.takeWhile_append_dropWhile (p := Text.isBlank) (l := words), List.mem_append]
      at member
    rcases member with front | back
    · exact List.mem_takeWhile_imp front
    · exact none c (List.mem_reverse.mpr back)
  rw [notBlank] at blank
  cases blank

section Phrases

variable {words : String} (noQuote : '"' ∉ words.toList)

include noQuote

/-- A phrase that stands alone is trimmed. -/
theorem parse_quoted (filled : ∃ c ∈ words.toList, Text.isBlank c = false) :
    parse (quoted words) = phrase (String.ofList (Text.trim words.toList)) := by
  have tokens : tokensOf (quoted words).toList = [.phrase (Text.trim words.toList)] := by
    rw [tokensOf, toList_quoted, scan_quoted noQuote, phraseToken]
    simp [trim_ne_nil filled, scan]
  rw [parse, tokens]
  rfl

/-- A phrase behind a sign is kept as it is. -/
theorem parse_signed_quoted (sign : Sign) :
    parse (sign.before (quoted words)) = sign.apply (phrase words) := by
  have letters : (sign.before (quoted words)).toList =
      sign.mark :: '"' :: (words.toList ++ ['"']) := by
    rw [Sign.before, String.toList_append, toList_quoted]
    simp
  have tokens : tokensOf (sign.before (quoted words)).toList =
      [.word (sign.mark :: '"' :: words.toList)] := by
    rw [tokensOf, letters, scan_signed_quoted (sign_mark sign) noQuote]
    rfl
  have term : termOf (sign.mark :: '"' :: words.toList) = sign.apply (phrase words) := by
    rw [termOf_signed sign (List.cons_ne_nil _ _), atomOf_quoted noQuote, String.ofList_toList]
  rw [parse, tokens, groups, term]
  rfl

end Phrases

theorem Sign.apply_injective (sign : Sign) {query other : Query}
    (same : sign.apply query = sign.apply other) : query = other := by
  cases sign
  · exact including.inj same
  · exact excluding.inj same

/-- **A sign in front of a phrase.**  A phrase alone is trimmed, and a phrase behind a sign is not.
So a sign does no more than to include or to exclude what the phrase alone stands for exactly if
the phrase has no blanks at its ends. -/
theorem parse_signed_phrase (sign : Sign) {words : String} (noQuote : '"' ∉ words.toList)
    (filled : ∃ c ∈ words.toList, Text.isBlank c = false) :
    parse (quoted words) = phrase (String.ofList (Text.trim words.toList)) ∧
      parse (sign.before (quoted words)) = sign.apply (phrase words) ∧
      (parse (sign.before (quoted words)) = sign.apply (parse (quoted words)) ↔
        Text.trim words.toList = words.toList) := by
  have alone := parse_quoted noQuote filled
  have behind := parse_signed_quoted noQuote sign
  refine ⟨alone, behind, ?_⟩
  rw [alone, behind]
  constructor
  · intro same
    have kept : words = String.ofList (Text.trim words.toList) :=
      phrase.inj (sign.apply_injective same)
    rw [← String.toList_ofList (l := Text.trim words.toList), ← kept]
  · intro trimmed
    rw [trimmed, String.ofList_toList]

/-- A blank at the start of an included phrase makes a difference. -/
theorem parse_signed_phrase_blank :
    '"' ∉ " alpha ".toList ∧ (∃ c ∈ " alpha ".toList, Text.isBlank c = false) ∧
      parse "+\" alpha \"" = including (phrase " alpha ") ∧
      parse "+\" alpha \"" ≠ including (parse "\" alpha \"") := by
  have noQuote : '"' ∉ " alpha ".toList := by decide
  have filled : ∃ c ∈ " alpha ".toList, Text.isBlank c = false := ⟨'a', by decide, by decide⟩
  obtain ⟨-, behind, exact_iff⟩ := parse_signed_phrase .plus noQuote filled
  exact ⟨noQuote, filled, behind, fun same => absurd (exact_iff.mp same) (by decide)⟩

end Query
end SourceSearch
