import Mathlib.Data.List.Nodup
import Mathlib.Data.List.TakeWhile

/-!
# The text format of exposed metrics

A text of lines. A line that begins with a number sign is a comment, unless the first word after it
is `HELP` or `TYPE` and a second one follows, the name of a metric family. Any other line that is
not blank is a sample of the family with whose name it begins.

`Grouped` says of the items of a text that each family has at most one line of help and one of its
type, that they come before its samples, and that its samples stand together.

**Theorem** (`grouped_familyItems`): families that differ, with three lines each, are grouped. No
line is there twice (`nodup_familyItems`), which leaves nothing between two samples of a family;
help and type come first within a family, and another family has other lines.

**What a line says** (`itemOf_comment`, `itemOf_sample`): a comment that is written from a keyword
and a name, and a line that begins with a name, are about that name: the name is the first word, and
what ends it is no character of a name. `items_append`: what comes behind a quote and a brace at the
end of a text changes none of its items.
-/

set_option autoImplicit false

namespace Exposition

/-! ## Lines -/

/-- The lines of a text. -/
def lines (text : List Char) : List (List Char) := text.splitOn '\n'

/-- A text without a line break is one line. -/
theorem lines_eq_singleton {text : List Char} (h : '\n' ∉ text) : lines text = [text] :=
  List.splitOn_eq_singleton h

/-- A line break separates the lines before it and those behind it. -/
theorem lines_append_cons (text rest : List Char) :
    lines (text ++ '\n' :: rest) = lines text ++ lines rest :=
  List.splitOn_append_cons_self text rest

/-- A text up to its first line break is its first line. -/
theorem lines_cons {line : List Char} (h : '\n' ∉ line) (rest : List Char) :
    lines (line ++ '\n' :: rest) = line :: lines rest := by
  rw [lines_append_cons, lines_eq_singleton h, List.singleton_append]

/-- A line of a text with something at its end is a part of the text, and perhaps what stands at the
end. -/
theorem mem_lines_append {text suffix line : List Char} (hsuffix : '\n' ∉ suffix)
    (h : line ∈ lines (text ++ suffix)) :
    ∃ part, part.length ≤ text.length ∧ (line = part ∨ line = part ++ suffix) := by
  induction hn : text.length using Nat.strong_induction_on generalizing text with
  | _ n ih =>
    by_cases hbreak : '\n' ∈ text
    · obtain ⟨first, rest, rfl, hfirst⟩ := List.eq_append_cons_of_mem hbreak
      rw [List.append_assoc, List.cons_append, lines_cons hfirst] at h
      rw [List.length_append, List.length_cons] at hn
      rcases List.mem_cons.mp h with rfl | h
      · exact ⟨line, by omega, Or.inl rfl⟩
      · obtain ⟨part, hpart, hline⟩ := ih rest.length (by omega) h rfl
        exact ⟨part, by omega, hline⟩
    · rw [lines_eq_singleton (by simp [hbreak, hsuffix])] at h
      exact ⟨text, hn.le, Or.inr (List.mem_singleton.mp h)⟩

/-! ## Characters -/

/-- A blank. -/
def isBlank (c : Char) : Bool := c = ' ' || c = '\t'

/-- The characters that the name of a metric may begin with. -/
def isNameStart (c : Char) : Bool := c.isAlpha || c = '_' || c = ':'

/-- The characters of the name of a metric. -/
def isNameChar (c : Char) : Bool := c.isAlphanum || c = '_' || c = ':'

/-- A name may go on with what it may begin with. -/
theorem isNameChar_of_isNameStart {c : Char} (h : isNameStart c = true) : isNameChar c = true := by
  simp only [isNameStart, isNameChar, Char.isAlphanum, Bool.or_eq_true] at h ⊢
  tauto

/-- The characters of a number. -/
def isNumberChar (c : Char) : Bool := c.isAlphanum || c = '.' || c = '+' || c = '-'

/-- No character of a class is one outside of it. -/
theorem ne_of_class {p : Char → Bool} {c d : Char} (hc : p c = true) (hd : p d = false) :
    c ≠ d := by
  rintro rfl
  rw [hc] at hd
  exact absurd hd (by decide)

/-! ## What a line is about -/

/-- What a line says of a metric family. -/
inductive Item where
  | help (family : List Char)
  | type (family : List Char)
  | sample (family : List Char)
deriving DecidableEq, Repr

/-- The words of a line. -/
def words (cs : List Char) : List (List Char) := (cs.splitOnP isBlank).filter (· ≠ [])

/-- What a comment says of a family. -/
def commentItem : List (List Char) → Option Item
  | keyword :: family :: _ =>
      if keyword = "HELP".toList then some (.help family)
      else if keyword = "TYPE".toList then some (.type family)
      else none
  | _ => none

/-- What a line says that is no comment. -/
def sampleItem (cs : List Char) : Option Item :=
  let family := cs.takeWhile isNameChar
  if family.head?.any isNameStart then some (.sample family) else none

/-- The item of a line. -/
def itemOf (line : List Char) : Option Item :=
  let cs := line.dropWhile isBlank
  if cs.head? = some '#' then commentItem (words cs.tail) else sampleItem cs

/-- The items of a text, in order. -/
def items (text : List Char) : List Item := (lines text).filterMap itemOf

/-- What the format asks of the items of a text. -/
structure Grouped (is : List Item) : Prop where
  help : ∀ f, is.count (.help f) ≤ 1
  type : ∀ f, is.count (.type f) ≤ 1
  /-- No line of help or type comes after a sample of its family. -/
  first : ∀ f, is.Pairwise fun a b => a = .sample f → b ≠ .help f ∧ b ≠ .type f
  /-- Nothing stands between two samples of a family but samples of the family. -/
  together : ∀ f before between behind,
    is = before ++ .sample f :: (between ++ .sample f :: behind) →
      ∀ item ∈ between, item = .sample f

/-- The three lines of a family. -/
def familyItems (family : List Char) : List Item := [.help family, .type family, .sample family]

/-- The lines of different families differ. -/
theorem nodup_familyItems {families : List (List Char)} (h : families.Nodup) :
    (families.flatMap familyItems).Nodup := by
  rw [List.nodup_flatMap]
  refine ⟨fun f _ => by simp [familyItems], h.imp fun {f g} hne => ?_⟩
  intro item hf hg
  simp only [familyItems, List.mem_cons, List.not_mem_nil, or_false] at hf hg
  rcases hf with rfl | rfl | rfl <;> simp at hg <;> exact hne hg

/-- Families with one sample each are grouped. -/
theorem grouped_familyItems {families : List (List Char)} (h : families.Nodup) :
    Grouped (families.flatMap familyItems) := by
  have hnodup := nodup_familyItems h
  refine ⟨fun f => List.nodup_iff_count_le_one.mp hnodup _,
    fun f => List.nodup_iff_count_le_one.mp hnodup _, fun f => ?_,
    fun f before between behind heq => ?_⟩
  · rw [List.pairwise_flatMap]
    refine ⟨fun g _ => by simp [familyItems], h.imp fun {g g'} hne => ?_⟩
    rintro item hitem item' hitem' rfl
    simp only [familyItems, List.mem_cons, List.not_mem_nil, or_false, reduceCtorEq, false_or,
      Item.sample.injEq] at hitem hitem'
    subst hitem
    rcases hitem' with rfl | rfl | rfl <;> simp [Ne.symm hne]
  · -- the two samples of the family would be one line twice
    rw [heq] at hnodup
    simp [List.nodup_append] at hnodup

/-- Help that is given twice is not grouped. -/
theorem Grouped.help_once {is : List Item} (h : Grouped is) (f : List Char)
    (before between behind : List Item) :
    is ≠ before ++ .help f :: (between ++ .help f :: behind) := by
  rintro rfl
  have hcount := h.help f
  simp at hcount
  omega

/-- A line that stands on both sides of the help for a family is not grouped. -/
theorem Grouped.not_around_help {is : List Item} (h : Grouped is) (item : Item) (f : List Char)
    (before between behind : List Item) (hbetween : .help f ∈ between) :
    is ≠ before ++ item :: (between ++ item :: behind) := by
  rintro rfl
  cases item with
  | help g => exact h.help_once g before between behind rfl
  | type g =>
      have hcount := h.type g
      simp at hcount
      omega
  | sample g => exact absurd (h.together g before between behind rfl _ hbetween) (by simp)

/-! ### Lines that end in a label and a number -/

/-- A blank separates the words before it and those behind it. -/
theorem words_append_blank (cs rest : List Char) :
    words (cs ++ ' ' :: rest) = words cs ++ words rest := by
  unfold words
  rw [List.splitOnP_append_cons cs rest (by decide), List.filter_append]

/-- A character that is no blank is in a word. -/
theorem exists_word_of_mem {c : Char} (hc : isBlank c = false) {cs : List Char} (h : c ∈ cs) :
    ∃ w ∈ words cs, c ∈ w := by
  suffices hsplit : ∃ w ∈ cs.splitOnP isBlank, c ∈ w by
    obtain ⟨w, hw, hcw⟩ := hsplit
    have hne : w ≠ [] := List.ne_nil_of_mem hcw
    exact ⟨w, List.mem_filter.mpr ⟨hw, by simpa using hne⟩, hcw⟩
  induction cs with
  | nil => exact absurd h List.not_mem_nil
  | cons d cs ih =>
      obtain ⟨w, ws, hws⟩ := List.exists_cons_of_ne_nil (List.splitOnP_ne_nil isBlank cs)
      rw [List.splitOnP_cons_eq_if_modifyHead, hws]
      rw [hws] at ih
      rcases List.mem_cons.mp h with rfl | h
      · exact ⟨c :: w, by simp [hc], List.mem_cons_self⟩
      · obtain ⟨w', hw', hcw'⟩ := ih h
        by_cases hd : isBlank d = true
        · exact ⟨w', by simpa [hd] using Or.inr hw', hcw'⟩
        · rcases List.mem_cons.mp hw' with rfl | hw'
          · exact ⟨d :: w', by simp [hd], List.mem_cons_of_mem d hcw'⟩
          · exact ⟨w', by simp [hd, hw'], hcw'⟩

/-- The item of a comment with a label and a number at its end does not depend on the number. -/
theorem commentItem_append {cs : List Char} (h : '}' ∈ cs) (number : List Char) :
    commentItem (words (cs ++ ' ' :: number)) = commentItem (words cs) := by
  rw [words_append_blank]
  obtain ⟨w, hw, hbrace⟩ := exists_word_of_mem (by decide) h
  match hws : words cs with
  | [] => simp [hws] at hw
  | [keyword] =>
      obtain rfl : w = keyword := by simpa [hws] using hw
      have hhelp : w ≠ "HELP".toList := by rintro rfl; exact absurd hbrace (by decide)
      have htype : w ≠ "TYPE".toList := by rintro rfl; exact absurd hbrace (by decide)
      cases words number with
      | nil => rfl
      | cons v vs =>
          rw [List.singleton_append, commentItem, if_neg hhelp, if_neg htype]
          rfl
  | keyword :: family :: ws => rfl

/-- What follows a character that ends a word is not part of it. -/
theorem takeWhile_append_stop {p : Char → Bool} {c : Char} (hc : p c = false)
    (cs rest : List Char) : (cs ++ c :: rest).takeWhile p = cs.takeWhile p := by
  induction cs with
  | nil => simp [hc]
  | cons d cs ih => simp only [List.cons_append, List.takeWhile_cons, ih]

/-- What follows a character that ends a word stays. -/
theorem dropWhile_append_stop {p : Char → Bool} {c : Char} (hc : p c = false)
    (cs rest : List Char) : (cs ++ c :: rest).dropWhile p = cs.dropWhile p ++ c :: rest := by
  induction cs with
  | nil => simp [hc]
  | cons d cs ih =>
      simp only [List.cons_append, List.dropWhile_cons, ih]
      split <;> rfl

/-- The item of a line with a label and a number at its end does not depend on the number. -/
theorem itemOf_append (cs number : List Char) :
    itemOf (cs ++ '"' :: '}' :: ' ' :: number) = itemOf (cs ++ ['"', '}']) := by
  have hname : isNameChar '"' = false := by decide
  simp only [itemOf, dropWhile_append_stop (show isBlank '"' = false by decide)]
  rcases cs.dropWhile isBlank with _ | ⟨c, rest⟩
  · rfl
  · simp only [List.cons_append, List.head?_cons, List.tail_cons, Option.some.injEq]
    by_cases hc : c = '#'
    · have hcomment : commentItem (words ((rest ++ ['"', '}']) ++ ' ' :: number)) =
          commentItem (words (rest ++ ['"', '}'])) := commentItem_append (by simp) number
      rw [List.append_assoc] at hcomment
      rw [if_pos hc, if_pos hc]
      exact hcomment
    · rw [if_neg hc, if_neg hc, sampleItem, sampleItem, ← List.cons_append, ← List.cons_append,
        takeWhile_append_stop hname, takeWhile_append_stop hname]

/-- The items of a text with a label and a number at its end do not depend on the number. -/
theorem items_append (text : List Char) {number : List Char} (hnumber : '\n' ∉ number) :
    items (text ++ '"' :: '}' :: ' ' :: number) = items (text ++ ['"', '}']) := by
  unfold items
  induction hn : text.length using Nat.strong_induction_on generalizing text with
  | _ n ih =>
    by_cases hbreak : '\n' ∈ text
    · obtain ⟨first, rest, rfl, hfirst⟩ := List.eq_append_cons_of_mem hbreak
      rw [List.length_append, List.length_cons] at hn
      simp only [List.append_assoc, List.cons_append, lines_cons hfirst, List.filterMap_cons,
        ih rest.length (by omega) rest rfl]
    · rw [lines_eq_singleton (by simp [hbreak, hnumber]),
        lines_eq_singleton (by simp [hbreak])]
      simp only [List.filterMap_cons, itemOf_append, List.filterMap_nil]

/-! ### The three lines of a family -/

/-- The name of a metric: it does not begin with a digit. -/
def IsName (family : List Char) : Prop :=
  family.head?.any isNameStart = true ∧ ∀ c ∈ family, isNameChar c = true

instance (family : List Char) : Decidable (IsName family) :=
  decidable_of_iff (family.head?.any isNameStart && family.all isNameChar) (by simp [IsName])

/-- A name has a first character. -/
theorem IsName.exists_cons {family : List Char} (h : IsName family) :
    ∃ c cs, family = c :: cs ∧ isNameStart c = true := by
  obtain ⟨hstart, -⟩ := h
  match family with
  | [] => simp at hstart
  | c :: cs => exact ⟨c, cs, rfl, by simpa using hstart⟩

/-- A name has no blank. -/
theorem isBlank_of_isNameChar {c : Char} (hc : isNameChar c = true) : isBlank c = false := by
  simp [isBlank, ne_of_class hc (show isNameChar ' ' = false by decide),
    ne_of_class hc (show isNameChar '\t' = false by decide)]

/-- There is no line break in a name. -/
theorem IsName.not_break_mem {family : List Char} (h : IsName family) : '\n' ∉ family :=
  fun hmem => absurd rfl (ne_of_class (h.2 _ hmem) (show isNameChar '\n' = false by decide))

/-- A name is one word. -/
theorem words_name {family : List Char} (h : IsName family) : words family = [family] := by
  unfold words
  rw [List.splitOnP_eq_singleton fun c hc => isBlank_of_isNameChar (h.2 c hc)]
  obtain ⟨c, cs, rfl, -⟩ := h.exists_cons
  simp

/-- A line that begins with a number sign, a keyword and a name is the comment that says so. -/
theorem itemOf_comment {keyword family : List Char} (hkeyword : IsName keyword)
    (hfamily : IsName family) (text : List Char) :
    itemOf ('#' :: ' ' :: (keyword ++ ' ' :: (family ++ ' ' :: text))) =
      commentItem (keyword :: family :: words text) := by
  have hhash : isBlank '#' = false := by decide
  have hwords : words (' ' :: (keyword ++ ' ' :: (family ++ ' ' :: text))) =
      keyword :: family :: words text := by
    have hnil := words_append_blank [] (keyword ++ ' ' :: (family ++ ' ' :: text))
    rw [List.nil_append] at hnil
    rw [hnil, words_append_blank, words_append_blank, words_name hkeyword, words_name hfamily]
    rfl
  simp only [itemOf, List.dropWhile_cons, hhash, Bool.false_eq_true, if_false, List.head?_cons,
    List.tail_cons, if_true, hwords]

/-- A line that begins with a name is a sample. -/
theorem itemOf_sample {family : List Char} (h : IsName family) {c : Char}
    (hc : isNameChar c = false) (rest : List Char) :
    itemOf (family ++ c :: rest) = some (.sample family) := by
  have htake : (family ++ c :: rest).takeWhile isNameChar = family := by
    rw [takeWhile_append_stop hc, List.takeWhile_eq_self_iff]
    exact h.2
  have hitem : sampleItem (family ++ c :: rest) = some (.sample family) := by
    simp only [sampleItem, htake, h.1, if_true]
  obtain ⟨d, ds, rfl, hd⟩ := h.exists_cons
  have hhash : d ≠ '#' := ne_of_class hd (by decide)
  rw [List.cons_append] at hitem
  simp only [itemOf, List.cons_append, List.dropWhile_cons,
    isBlank_of_isNameChar (isNameChar_of_isNameStart hd), Bool.false_eq_true, if_false,
    List.head?_cons, Option.some.injEq, hhash, hitem]

end Exposition
