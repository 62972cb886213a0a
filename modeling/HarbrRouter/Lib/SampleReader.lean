import HarbrRouter.Lib.Exposition
import HarbrRouter.Lib.Transition

/-!
# Samples of exposed metrics

The syntax of one sample: the name of its family, labels in braces whose values are quoted, and a
number, after which a time may stand. In a value the backslash escapes a backslash, a quote or, as
an n, a line break; nothing else may be escaped. The reader is a machine over the characters of a
line.

**What has nothing to escape is read back** (`readSample_plain`, `readSample_labelled`): the run
over the line is cut where its parts meet, and each part is collected in the state that takes its
characters (`run_name`, `run_value`, `run_number`).

**What is not escaped is not** (`labels_lt_of_escape`), whatever its lines are read as: every label
value that is read is shorter than what was written. A value comes to its end at a quote only, so
the last quote of a line bounds the values by what is before it (`Scan.Within.labels_le`), and an
escape or a quote inside takes a character from the value (`labels_lt_of_quote`); behind a line
break the line holds less than the whole (`mem_lines_append`).
-/

set_option autoImplicit false

namespace Exposition

open Transition

/-- A sample: its family, the labels with their values, and the number. -/
structure Sample where
  family : List Char
  labels : List (List Char × List Char)
  number : List Char
deriving DecidableEq, Repr

/-- How far a line has been read. -/
inductive Scan where
  | start
  | family (cs : List Char)
  /-- After the name: labels or the number come. -/
  | named (sample : Sample)
  /-- In the braces: the name of a label or the end comes. -/
  | labels (sample : Sample)
  | label (sample : Sample) (name : List Char)
  | labelled (sample : Sample) (name : List Char)
  /-- After the equals sign. -/
  | quote (sample : Sample) (name : List Char)
  | value (sample : Sample) (name text : List Char)
  /-- After a backslash. -/
  | escape (sample : Sample) (name text : List Char)
  /-- After a value: a comma or the end of the braces comes. -/
  | closed (sample : Sample)
  /-- After the braces: the number comes. -/
  | braced (sample : Sample)
  | number (sample : Sample)
  /-- After the number: a time may come. -/
  | counted (sample : Sample)
  | time (sample : Sample)
  | timed (sample : Sample)
deriving DecidableEq, Repr

namespace Scan

/-- One character is read; `none` where the syntax does not allow it. -/
def step : Scan → Char → Option Scan
  | start, c =>
      if isBlank c then some start else if isNameStart c then some (family [c]) else none
  | family cs, c =>
      if isNameChar c then some (family (cs ++ [c]))
      else if c = '\x7b' then some (labels ⟨cs, [], []⟩)
      else if isBlank c then some (named ⟨cs, [], []⟩)
      else none
  | named sample, c =>
      if isBlank c then some (named sample)
      else if c = '\x7b' then some (labels sample)
      else if isNumberChar c then some (number { sample with number := [c] })
      else none
  | labels sample, c =>
      if isBlank c then some (labels sample)
      else if c = '\x7d' then some (braced sample)
      else if isNameStart c && c ≠ ':' then some (label sample [c])
      else none
  | label sample name, c =>
      if isNameChar c && c ≠ ':' then some (label sample (name ++ [c]))
      else if c = '=' then some (quote sample name)
      else if isBlank c then some (labelled sample name)
      else none
  | labelled sample name, c =>
      if isBlank c then some (labelled sample name)
      else if c = '=' then some (quote sample name)
      else none
  | quote sample name, c =>
      if isBlank c then some (quote sample name)
      else if c = '"' then some (value sample name [])
      else none
  | value sample name text, c =>
      if c = '\\' then some (escape sample name text)
      else if c = '"' then some (closed { sample with labels := sample.labels ++ [(name, text)] })
      else some (value sample name (text ++ [c]))
  | escape sample name text, c =>
      if c = '\\' then some (value sample name (text ++ ['\\']))
      else if c = '"' then some (value sample name (text ++ ['"']))
      else if c = 'n' then some (value sample name (text ++ ['\n']))
      else none
  | closed sample, c =>
      if isBlank c then some (closed sample)
      else if c = ',' then some (labels sample)
      else if c = '\x7d' then some (braced sample)
      else none
  | braced sample, c =>
      if isBlank c then some (braced sample)
      else if isNumberChar c then some (number { sample with number := [c] })
      else none
  | number sample, c =>
      if isNumberChar c then some (number { sample with number := sample.number ++ [c] })
      else if isBlank c then some (counted sample)
      else none
  | counted sample, c =>
      if isBlank c then some (counted sample)
      else if c.isDigit || c = '-' then some (time sample)
      else none
  | time sample, c =>
      if c.isDigit then some (time sample) else if isBlank c then some (timed sample) else none
  | timed sample, c => if isBlank c then some (timed sample) else none

/-- The sample of a line that has come to its end. -/
def finish : Scan → Option Sample
  | number sample | counted sample | time sample | timed sample => some sample
  | _ => none

/-- The labels whose values have been read to their end. -/
def done : Scan → List (List Char × List Char)
  | start | family _ => []
  | named s | labels s | label s _ | labelled s _ | quote s _ | value s _ _ | escape s _ _
  | closed s | braced s | number s | counted s | time s | timed s => s.labels

/-- What has been read of the value that is being read. -/
def current : Scan → List Char
  | value _ _ text | escape _ _ text => text
  | _ => []

end Scan

/-- The reader of a line. -/
def scanner : Machine Scan Char := ⟨Scan.step⟩

/-- The sample of a line, if it is one. -/
def readSample (line : List Char) : Option Sample :=
  (scanner.run .start line).bind Scan.finish

/-- A number, as far as it is told apart here. -/
inductive Number where
  | integer (n : ℕ)
  | other (text : List Char)
deriving DecidableEq, Repr

/-- The number that is written so. -/
def readNumber (cs : List Char) : Number :=
  if cs.all Char.isDigit then .integer (Nat.ofDigitChars 10 cs 0) else .other cs

/-- The samples of a text, in order. -/
def readSamples (text : List Char) : List Sample := (lines text).filterMap readSample

/-! ## How long label values are -/

namespace Scan

/-- No label value is longer than the bound. -/
structure Within (k : ℕ) (scan : Scan) : Prop where
  done : ∀ l ∈ scan.done, l.2.length ≤ k
  current : scan.current.length ≤ k

/-- A label comes to its end with what was read of its value, at a quote. -/
theorem done_of_step {scan scan' : Scan} {c : Char} (h : scan.step c = some scan') :
    scan'.done = scan.done ∨
      c = '"' ∧ ∃ name, scan'.done = scan.done ++ [(name, scan.current)] := by
  cases scan with
  | value sample name text =>
      simp only [step] at h
      split_ifs at h with hescape hquote
      · obtain rfl := Option.some.inj h
        exact Or.inl rfl
      · obtain rfl := Option.some.inj h
        exact Or.inr ⟨hquote, name, rfl⟩
      · obtain rfl := Option.some.inj h
        exact Or.inl rfl
  | _ =>
      simp only [step] at h
      split_ifs at h <;> obtain rfl := Option.some.inj h <;> exact Or.inl rfl

/-- A character adds one to a value at most. -/
theorem current_of_step {scan scan' : Scan} {c : Char} (h : scan.step c = some scan') :
    scan'.current.length ≤ scan.current.length + 1 := by
  cases scan <;> simp only [step] at h <;> split_ifs at h <;> obtain rfl := Option.some.inj h <;>
    simp [current]

variable {k : ℕ} {scan scan' : Scan} {c : Char}

/-- The bound grows by one with each character. -/
theorem Within.step (hw : Within k scan) (h : scan.step c = some scan') : Within (k + 1) scan' := by
  refine ⟨fun l hl => ?_, (current_of_step h).trans (Nat.succ_le_succ hw.current)⟩
  rcases done_of_step h with hdone | ⟨-, name, hdone⟩
  · rw [hdone] at hl
    exact (hw.done l hl).trans (Nat.le_succ k)
  · rw [hdone] at hl
    rcases List.mem_append.mp hl with hl | hl
    · exact (hw.done l hl).trans (Nat.le_succ k)
    · obtain rfl := List.mem_singleton.mp hl
      exact hw.current.trans (Nat.le_succ k)

/-- No value that has come to its end is longer than one that is being read may be. -/
theorem Within.done_step (hw : Within k scan) (h : scan.step c = some scan') :
    ∀ l ∈ scan'.done, l.2.length ≤ k := by
  intro l hl
  rcases done_of_step h with hdone | ⟨-, name, hdone⟩
  · exact hw.done l (hdone ▸ hl)
  · rw [hdone] at hl
    rcases List.mem_append.mp hl with hl | hl
    · exact hw.done l hl
    · obtain rfl := List.mem_singleton.mp hl
      exact hw.current

/-- The bound grows in a run by the number of its characters. -/
theorem Within.run {cs : List Char} (hw : Within k scan)
    (hrun : scanner.run scan cs = some scan') : Within (k + cs.length) scan' := by
  induction cs generalizing k scan with
  | nil =>
      obtain rfl : scan = scan' := by simpa using hrun
      exact hw
  | cons c cs ih =>
      obtain ⟨t, ht, hrest⟩ := scanner.run_cons_eq_some.mp hrun
      rw [List.length_cons, Nat.add_comm cs.length 1, ← Nat.add_assoc]
      exact ih (hw.step ht) hrest

/-- Without a quote no value comes to its end. -/
theorem done_of_run {cs : List Char} (hcs : '"' ∉ cs)
    (hrun : scanner.run scan cs = some scan') : scan'.done = scan.done := by
  induction cs generalizing scan with
  | nil =>
      obtain rfl : scan = scan' := by simpa using hrun
      rfl
  | cons c cs ih =>
      obtain ⟨t, ht, hrest⟩ := scanner.run_cons_eq_some.mp hrun
      rw [List.mem_cons, not_or] at hcs
      rw [ih hcs.2 hrest]
      rcases done_of_step ht with hdone | ⟨rfl, -⟩
      · exact hdone
      · exact absurd rfl hcs.1

/-- A sample has the labels that have been read to their end. -/
theorem labels_of_finish {sample : Sample} (h : scan.finish = some sample) :
    sample.labels = scan.done := by
  cases scan with
  | number s | counted s | time s | timed s =>
      obtain rfl := Option.some.inj h
      rfl
  | _ => exact absurd h (by simp [finish])

/-- Behind the last quote of a line no value comes to its end: the values are no longer than what is
before it. -/
theorem Within.labels_le {before behind : List Char} {sample : Sample} (hw : Within k scan)
    (hbehind : '"' ∉ behind)
    (hread : (scanner.run scan (before ++ '"' :: behind)).bind finish = some sample) :
    ∀ l ∈ sample.labels, l.2.length ≤ k + before.length := by
  obtain ⟨last, hrun, hfinish⟩ := Option.bind_eq_some_iff.mp hread
  obtain ⟨s, hbefore, hrest⟩ := scanner.run_append_eq_some.mp hrun
  obtain ⟨t, hquote, hlast⟩ := scanner.run_cons_eq_some.mp hrest
  rw [labels_of_finish hfinish, done_of_run hbehind hlast]
  exact (hw.run hbefore).done_step hquote

end Scan

/-! ## What is written without an escape -/

/-- Characters are collected in a state that takes them. -/
theorem run_collect {state : List Char → Scan} {p : Char → Prop}
    (hstep : ∀ acc c, p c → (state acc).step c = some (state (acc ++ [c]))) {cs : List Char}
    (hcs : ∀ c ∈ cs, p c) (acc : List Char) :
    scanner.run (state acc) cs = some (state (acc ++ cs)) := by
  induction cs generalizing acc with
  | nil => simp
  | cons c cs ih =>
      rw [List.forall_mem_cons] at hcs
      rw [Machine.run_cons_eq_some]
      exact ⟨_, hstep acc c hcs.1, by simpa using ih hcs.2 (acc ++ [c])⟩

/-- A name is read from its first character on. -/
theorem run_name {state : List Char → Scan} {scan : Scan} {p : Char → Prop} {name : List Char}
    (hname : IsName name) (hp : ∀ c ∈ name, p c)
    (hfirst : ∀ c, isNameStart c = true → p c → scan.step c = some (state [c]))
    (hstep : ∀ acc c, isNameChar c = true ∧ p c → (state acc).step c = some (state (acc ++ [c]))) :
    scanner.run scan name = some (state name) := by
  have hchars : ∀ c ∈ name, isNameChar c = true ∧ p c := fun c hc => ⟨hname.2 c hc, hp c hc⟩
  obtain ⟨c, cs, rfl, hc⟩ := hname.exists_cons
  rw [List.forall_mem_cons] at hchars
  rw [Machine.run_cons_eq_some]
  exact ⟨_, hfirst c hc hchars.1.2, run_collect hstep hchars.2 [c]⟩

/-- The name of a family is read. -/
theorem run_family {family : List Char} (h : IsName family) :
    scanner.run .start family = some (.family family) := by
  refine run_name (p := fun _ => True) h (fun _ _ => trivial) (fun c hc _ => ?_)
    fun acc c hc => by simp [Scan.step, hc.1]
  simp [Scan.step, hc, isBlank_of_isNameChar (isNameChar_of_isNameStart hc)]

/-- The name of a label: there is no colon in it. -/
def IsLabel (name : List Char) : Prop := IsName name ∧ ':' ∉ name

instance (name : List Char) : Decidable (IsLabel name) :=
  inferInstanceAs (Decidable (IsName name ∧ ':' ∉ name))

/-- The name of a label is read. -/
theorem run_label {name : List Char} (h : IsLabel name) (sample : Sample) :
    scanner.run (.labels sample) name = some (.label sample name) := by
  have hcolon : ∀ c ∈ name, c ≠ ':' := fun c hc heq => h.2 (heq ▸ hc)
  refine run_name h.1 hcolon (fun c hc hcolon => ?_) fun acc c hc => by
    simp [Scan.step, hc.1, hc.2]
  have hname := isNameChar_of_isNameStart hc
  have hbrace : c ≠ '\x7d' := ne_of_class hname (by decide)
  simp [Scan.step, hc, hcolon, hbrace, isBlank_of_isNameChar hname]

/-- A value without an escape is read. -/
theorem run_value {text : List Char} (h : ∀ c ∈ text, c ≠ '"' ∧ c ≠ '\\') (sample : Sample)
    (name : List Char) :
    scanner.run (.value sample name []) text = some (.value sample name text) :=
  run_collect (fun acc c hc => by simp [Scan.step, hc]) h []

/-- What is written of a number. -/
def IsNumber (number : List Char) : Prop := number ≠ [] ∧ ∀ c ∈ number, isNumberChar c

instance (number : List Char) : Decidable (IsNumber number) :=
  decidable_of_iff (!number.isEmpty && number.all isNumberChar) (by simp [IsNumber])

/-- A digit may stand in a number. -/
theorem isNumberChar_of_isDigit {c : Char} (h : c.isDigit = true) : isNumberChar c = true := by
  simp [isNumberChar, Char.isAlphanum, h]

/-- The digits of an integer are a number. -/
theorem isNumber_repr (n : ℕ) : IsNumber (Nat.repr n).toList := by
  rw [Nat.toList_repr]
  exact ⟨Nat.toDigits_ne_nil, fun c hc =>
    isNumberChar_of_isDigit (Nat.isDigit_of_mem_toDigits (by omega) (by omega) hc)⟩

/-- An integer is read back. -/
theorem readNumber_repr (n : ℕ) : readNumber (Nat.repr n).toList = .integer n := by
  have hdigits : (Nat.toDigits 10 n).all Char.isDigit = true := by
    rw [List.all_eq_true]
    exact fun c hc => Nat.isDigit_of_mem_toDigits (by omega) (by omega) hc
  rw [readNumber, Nat.toList_repr, if_pos hdigits, Nat.ofDigitChars_ten_toDigits]

/-- A number is read where one may come. -/
theorem run_number {number : List Char} (h : IsNumber number) {scan : Scan} (sample : Sample)
    (hfirst : ∀ c, isNumberChar c → scan.step c = some (.number { sample with number := [c] })) :
    scanner.run scan number = some (.number { sample with number }) := by
  obtain ⟨hne, hchars⟩ := h
  match number with
  | [] => exact absurd rfl hne
  | c :: cs =>
      rw [List.forall_mem_cons] at hchars
      rw [Machine.run_cons_eq_some]
      have hstep : ∀ acc c, isNumberChar c → (Scan.number { sample with number := acc }).step c =
          some (.number { sample with number := acc ++ [c] }) :=
        fun acc c hc => by simp [Scan.step, hc]
      exact ⟨_, hfirst c hchars.1, run_collect hstep hchars.2 [c]⟩

/-- A number is no blank and no brace. -/
theorem isBlank_of_isNumberChar {c : Char} (hc : isNumberChar c = true) :
    isBlank c = false ∧ c ≠ '\x7b' := by
  have hne : ∀ {d}, isNumberChar d = false → c ≠ d := ne_of_class hc
  exact ⟨by simp [isBlank, hne (show isNumberChar ' ' = false by decide),
    hne (show isNumberChar '\t' = false by decide)], hne (by decide)⟩

/-- A sample without labels is read. -/
theorem readSample_plain {family number : List Char} (hfamily : IsName family)
    (hnumber : IsNumber number) :
    readSample (family ++ ' ' :: number) = some ⟨family, [], number⟩ := by
  unfold readSample
  rw [Machine.run_append, run_family hfamily, Option.bind_some, Machine.run_cons]
  have hblank : scanner.step (.family family) ' ' = some (.named ⟨family, [], []⟩) := rfl
  rw [hblank, Option.bind_some, run_number hnumber ⟨family, [], []⟩]
  · rfl
  · intro c hc
    simp [Scan.step, hc, isBlank_of_isNumberChar hc]

/-- What comes before a label value. -/
def opening (family label : List Char) : List Char :=
  family ++ '\x7b' :: (label ++ ['=', '"'])

/-- What comes before a label value brings the reader to the value. -/
theorem run_opening {family label : List Char} (hfamily : IsName family) (hlabel : IsLabel label)
    (rest : List Char) : scanner.run .start (opening family label ++ rest) =
      scanner.run (.value ⟨family, [], []⟩ label []) rest := by
  unfold opening
  rw [List.append_assoc, Machine.run_append, run_family hfamily, Option.bind_some,
    List.cons_append, Machine.run_cons]
  have hbrace : scanner.step (.family family) '\x7b' = some (.labels ⟨family, [], []⟩) := rfl
  rw [hbrace, Option.bind_some, List.append_assoc, Machine.run_append, run_label hlabel,
    Option.bind_some]
  rfl

/-- What comes behind a label value. -/
def closing (number : List Char) : List Char := '"' :: '\x7d' :: ' ' :: number

/-- A sample with a label is read, if the value has nothing to escape. -/
theorem readSample_labelled {family label text number : List Char} (hfamily : IsName family)
    (hlabel : IsLabel label) (htext : ∀ c ∈ text, c ≠ '"' ∧ c ≠ '\\') (hnumber : IsNumber number) :
    readSample (opening family label ++ (text ++ closing number)) =
      some ⟨family, [(label, text)], number⟩ := by
  unfold readSample closing
  rw [run_opening hfamily hlabel, Machine.run_append, run_value htext, Option.bind_some,
    Machine.run_cons]
  have hquote : scanner.step (.value ⟨family, [], []⟩ label text) '"' =
      some (.closed ⟨family, [(label, text)], []⟩) := rfl
  have hbrace : scanner.step (.closed ⟨family, [(label, text)], []⟩) '\x7d' =
      some (.braced ⟨family, [(label, text)], []⟩) := rfl
  have hblank : scanner.step (.braced ⟨family, [(label, text)], []⟩) ' ' =
      some (.braced ⟨family, [(label, text)], []⟩) := rfl
  rw [hquote, Option.bind_some, Machine.run_cons, hbrace, Option.bind_some, Machine.run_cons,
    hblank, Option.bind_some, run_number hnumber ⟨family, [(label, text)], []⟩]
  · rfl
  · intro c hc
    simp [Scan.step, hc, isBlank_of_isNumberChar hc]

/-! ## What would have to be escaped -/

/-- What is not a character of a number is not in one. -/
theorem IsNumber.not_mem {number : List Char} (h : IsNumber number) {c : Char}
    (hc : isNumberChar c = false) : c ∉ number := by
  intro hmem
  rw [h.2 c hmem] at hc
  exact absurd hc (by decide)

/-- There is no quote in what follows a label value but the first. -/
theorem not_quote_mem_closing {number : List Char} (h : IsNumber number) :
    '"' ∉ '\x7d' :: ' ' :: number := by
  simpa using h.not_mem (show isNumberChar '"' = false by decide)

/-- There is no line break in what follows a label value. -/
theorem not_break_mem_closing {number : List Char} (h : IsNumber number) :
    '\n' ∉ closing number := by
  simpa [closing] using h.not_mem (show isNumberChar '\n' = false by decide)

/-- There is no line break in what comes before a label value. -/
theorem not_break_mem_opening {family label : List Char} (hfamily : IsName family)
    (hlabel : IsLabel label) : '\n' ∉ opening family label := by
  simp [opening, hfamily.not_break_mem, hlabel.1.not_break_mem]

/-- A line with a quote or a backslash in its label value: the values that are read are shorter. -/
theorem labels_lt_of_quote {family label text number : List Char} (hfamily : IsName family)
    (hlabel : IsLabel label) (hnumber : IsNumber number)
    (hescape : ∃ c ∈ text, c = '"' ∨ c = '\\') {sample : Sample}
    (hread : readSample (opening family label ++ (text ++ closing number)) = some sample) :
    ∀ l ∈ sample.labels, l.2.length < text.length := by
  -- the value up to the first of these characters
  obtain ⟨c, good, rest, rfl, hc, hgood⟩ : ∃ c good rest, text = good ++ c :: rest ∧
      (c = '"' ∨ c = '\\') ∧ ∀ d ∈ good, d ≠ '"' ∧ d ≠ '\\' := by
    obtain ⟨c, hc⟩ : ∃ c, text.find? (fun c => c = '"' || c = '\\') = some c := by
      rw [← Option.isSome_iff_exists, List.find?_isSome]
      simpa using hescape
    obtain ⟨hbad, good, rest, htext, hgood⟩ := List.find?_eq_some_iff_append.mp hc
    exact ⟨c, good, rest, htext, by simpa using hbad, by simpa using hgood⟩
  obtain ⟨scan, hstep, hwithin⟩ : ∃ scan, scanner.step (.value ⟨family, [], []⟩ label good) c =
      some scan ∧ Scan.Within good.length scan := by
    rcases hc with rfl | rfl
    · exact ⟨_, rfl, by simp [Scan.done], by simp [Scan.current]⟩
    · exact ⟨_, rfl, by simp [Scan.done], by simp [Scan.current]⟩
  unfold readSample closing at hread
  rw [run_opening hfamily hlabel, List.append_assoc, Machine.run_append, run_value hgood,
    Option.bind_some, List.cons_append, Machine.run_cons, hstep, Option.bind_some] at hread
  intro l hl
  have hle := hwithin.labels_le (not_quote_mem_closing hnumber) hread l hl
  rw [List.length_append, List.length_cons]
  omega

/-- A label value with a quote, a backslash or a line break in it is not read: the values that are
read in its lines are shorter. -/
theorem labels_lt_of_escape {family label text number : List Char} (hfamily : IsName family)
    (hlabel : IsLabel label) (hnumber : IsNumber number)
    (hescape : ∃ c ∈ text, c = '"' ∨ c = '\\' ∨ c = '\n') {line : List Char} {sample : Sample}
    (hline : line ∈ lines (opening family label ++ (text ++ closing number)))
    (hread : readSample line = some sample) : ∀ l ∈ sample.labels, l.2.length < text.length := by
  have hopening := not_break_mem_opening hfamily hlabel
  have hclosing := not_break_mem_closing hnumber
  by_cases hbreak : '\n' ∈ text
  · obtain ⟨first, rest, rfl, hfirst⟩ := List.eq_append_cons_of_mem hbreak
    have hlines : opening family label ++ ((first ++ '\n' :: rest) ++ closing number) =
        (opening family label ++ first) ++ '\n' :: (rest ++ closing number) := by simp
    rw [hlines, lines_cons (by simp [hopening, hfirst])] at hline
    rw [List.length_append, List.length_cons]
    intro l hl
    rcases List.mem_cons.mp hline with rfl | hline
    · -- the first line ends before the value does
      unfold readSample at hread
      rw [run_opening hfamily hlabel] at hread
      obtain ⟨last, hrun, hfinish⟩ := Option.bind_eq_some_iff.mp hread
      have hwithin : Scan.Within 0 (.value ⟨family, [], []⟩ label []) :=
        ⟨by simp [Scan.done], by simp [Scan.current]⟩
      rw [Scan.labels_of_finish hfinish] at hl
      have hle := (hwithin.run hrun).done l hl
      omega
    · have hwithin : Scan.Within 0 .start := ⟨by simp [Scan.done], by simp [Scan.current]⟩
      obtain ⟨part, hpart, rfl | rfl⟩ := mem_lines_append hclosing hline
      · obtain ⟨last, hrun, hfinish⟩ := Option.bind_eq_some_iff.mp hread
        rw [Scan.labels_of_finish hfinish] at hl
        have hle := (hwithin.run hrun).done l hl
        omega
      · have hle := hwithin.labels_le (not_quote_mem_closing hnumber) hread l hl
        omega
  · rw [lines_eq_singleton (by simp [hopening, hclosing, hbreak])] at hline
    obtain rfl := List.mem_singleton.mp hline
    refine labels_lt_of_quote hfamily hlabel hnumber ?_ hread
    obtain ⟨c, hc, rfl | rfl | rfl⟩ := hescape
    · exact ⟨_, hc, Or.inl rfl⟩
    · exact ⟨_, hc, Or.inr rfl⟩
    · exact absurd hc hbreak

end Exposition
