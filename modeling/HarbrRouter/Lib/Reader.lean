import Mathlib.Computability.Language
import Mathlib.Data.Nat.Notation
import Mathlib.Tactic.Common

/-!
# Readers

A reader takes a value off the front of a text, or fails and leaves the text. `Reads r l stop` says
that `r` reads the texts of the language `l`: what it takes is one of them (`sound`), and it takes
the whole of each that is in front of something at which it may stop (`complete`). The stop is what
makes a longest match definite.

* `Reads.bind`, `Reads.orElse`, `Reads.optional`: sequence, choice and an optional part.
* `reads_number`: the numbers of a radix, with a bound on the digits or on the value.
* `Reads.all_iff`: what a reader takes as a whole is the language.
-/

set_option autoImplicit false

/-- A reader. -/
abbrev Reader := StateT (List Char) Option

namespace Reader

variable {α β : Type}

/-- A sequence runs its second reader on what the first leaves. -/
theorem bind_apply (r : Reader α) (f : α → Reader β) (s : List Char) :
    (r >>= f) s = (r s).bind fun p => f p.1 p.2 := rfl

/-- A pure reader takes nothing. -/
theorem pure_apply (a : α) (s : List Char) : (pure a : Reader α) s = some (a, s) := rfl

/-- A mapped reader takes what the reader takes. -/
theorem map_apply (f : α → β) (r : Reader α) (s : List Char) :
    (f <$> r) s = (r s).map fun p => (f p.1, p.2) := by
  rw [map_eq_pure_bind, bind_apply]
  cases r s <;> rfl

/-- A choice tries the second reader on the text of the first. -/
theorem orElse_apply (r₁ r₂ : Reader α) (s : List Char) :
    (r₁ <|> r₂) s = (r₁ s).or (r₂ s) := by
  change (r₁ s <|> r₂ s) = _
  cases r₁ s <;> rfl

/-! ## Readers and languages -/

/-- The reader takes the texts of the language, each in front of a rest at which it may stop. -/
structure Reads (r : Reader α) (l : Language Char) (stop : List Char → Prop) : Prop where
  sound : ∀ s a rest, r s = some (a, rest) → ∃ t ∈ l, t ++ rest = s
  complete : ∀ t ∈ l, ∀ rest, stop rest → ∃ a, r (t ++ rest) = some (a, rest)

namespace Reads

variable {r r₁ r₂ : Reader α} {f : α → Reader β} {l l₁ l₂ : Language Char}
  {stop stop₁ stop₂ : List Char → Prop}

/-- A reader may stop at less. -/
theorem mono (h : Reads r l stop₁) (hstop : ∀ rest, stop₂ rest → stop₁ rest) : Reads r l stop₂ :=
  ⟨h.sound, fun t ht rest hrest => h.complete t ht rest (hstop rest hrest)⟩

/-- The reader that takes nothing reads the empty text. -/
theorem pure (a : α) : Reads (Pure.pure a : Reader α) 1 stop := by
  refine ⟨fun s a' rest h => ⟨[], rfl, ?_⟩, fun t ht rest _ => ⟨a, ?_⟩⟩
  · rw [pure_apply, Option.some.injEq, Prod.mk.injEq] at h
    exact h.2.symm
  · rw [(Language.mem_one t).mp ht, List.nil_append, pure_apply]

/-- A sequence, where the first reader may stop at each text of the second. -/
theorem bind (h₁ : Reads r l₁ stop₁) (h₂ : ∀ a, Reads (f a) l₂ stop₂)
    (hstop : ∀ t ∈ l₂, ∀ rest, stop₂ rest → stop₁ (t ++ rest)) :
    Reads (r >>= f) (l₁ * l₂) stop₂ := by
  constructor
  · intro s b rest h
    rw [bind_apply] at h
    obtain ⟨⟨a, mid⟩, hr, hf⟩ := Option.bind_eq_some_iff.mp h
    obtain ⟨t₁, ht₁, rfl⟩ := h₁.sound s a mid hr
    obtain ⟨t₂, ht₂, rfl⟩ := (h₂ a).sound mid b rest hf
    exact ⟨t₁ ++ t₂, Language.append_mem_mul ht₁ ht₂, List.append_assoc ..⟩
  · intro t ht rest hrest
    obtain ⟨t₁, ht₁, t₂, ht₂, rfl⟩ := Language.mem_mul.mp ht
    obtain ⟨a, ha⟩ := h₁.complete t₁ ht₁ (t₂ ++ rest) (hstop t₂ ht₂ rest hrest)
    obtain ⟨b, hb⟩ := (h₂ a).complete t₂ ht₂ rest hrest
    exact ⟨b, by rw [bind_apply, List.append_assoc, ha, Option.bind_some, hb]⟩

/-- A reader reads the same texts whatever its value is mapped to. -/
theorem map (h : Reads r l stop) (g : α → β) : Reads (g <$> r) l stop := by
  constructor
  · intro s b rest hr
    rw [map_apply] at hr
    obtain ⟨⟨a, rest'⟩, ha, heq⟩ := Option.map_eq_some_iff.mp hr
    obtain ⟨-, rfl⟩ := Prod.mk.inj heq
    exact h.sound s a rest' ha
  · intro t ht rest hrest
    obtain ⟨a, ha⟩ := h.complete t ht rest hrest
    exact ⟨g a, by rw [map_apply, ha]; rfl⟩

/-- A sequence that only makes a value of what is read. -/
theorem bind_pure (h : Reads r l stop) (g : α → β) :
    Reads (r >>= fun a => Pure.pure (g a)) l stop := by
  have hmap := h.map g
  rwa [map_eq_pure_bind] at hmap

/-- A choice, where no text of the second reader begins as one of the first does. -/
theorem orElse (h₁ : Reads r₁ l₁ stop) (h₂ : Reads r₂ l₂ stop)
    (hne : ∀ t ∈ l₂, ∀ rest, stop rest → ∀ t' ∈ l₁, ∀ rest', t' ++ rest' ≠ t ++ rest) :
    Reads (r₁ <|> r₂) (l₁ + l₂) stop := by
  constructor
  · intro s a rest h
    rw [orElse_apply] at h
    rcases Option.or_eq_some_iff.mp h with h | ⟨-, h⟩
    · obtain ⟨t, ht, hs⟩ := h₁.sound s a rest h
      exact ⟨t, (Language.mem_add ..).mpr (Or.inl ht), hs⟩
    · obtain ⟨t, ht, hs⟩ := h₂.sound s a rest h
      exact ⟨t, (Language.mem_add ..).mpr (Or.inr ht), hs⟩
  · intro t ht rest hrest
    rcases (Language.mem_add ..).mp ht with ht | ht
    · obtain ⟨a, ha⟩ := h₁.complete t ht rest hrest
      exact ⟨a, by rw [orElse_apply, ha, Option.some_or]⟩
    · obtain ⟨a, ha⟩ := h₂.complete t ht rest hrest
      have hnone : r₁ (t ++ rest) = none := by
        refine Option.eq_none_iff_forall_not_mem.mpr fun p hp => ?_
        obtain ⟨t', ht', heq⟩ := h₁.sound _ p.1 p.2 hp
        exact hne t ht rest hrest t' ht' p.2 heq
      exact ⟨a, by rw [orElse_apply, hnone, Option.none_or, ha]⟩

/-- A part that may be missing, where what may follow is not how the part begins. -/
theorem optional (h : Reads r l stop) (a : α)
    (hne : ∀ rest, stop rest → ∀ t ∈ l, ∀ rest', t ++ rest' ≠ rest) :
    Reads (r <|> Pure.pure a) (l + 1) stop := by
  refine h.orElse (Reads.pure a) fun t ht rest hrest t' ht' rest' => ?_
  rw [(Language.mem_one t).mp ht, List.nil_append]
  exact hne rest hrest t' ht' rest'

/-- What the reader takes as a whole is the language. -/
theorem all_iff (h : Reads r l stop) (hstop : stop []) {s : List Char} :
    (∃ a, r s = some (a, [])) ↔ s ∈ l := by
  constructor
  · rintro ⟨a, ha⟩
    obtain ⟨t, ht, rfl⟩ := h.sound s a [] ha
    rwa [List.append_nil]
  · intro hs
    obtain ⟨a, ha⟩ := h.complete s hs [] hstop
    exact ⟨a, by rwa [List.append_nil] at ha⟩

end Reads

/-! ## Characters -/

/-- The next character. -/
def anyChar : Reader Char := fun s =>
  match s with
  | [] => none
  | c :: s => some (c, s)

/-- One character. -/
def char (target : Char) : Reader Unit := do
  let c ← anyChar
  if c = target then pure () else failure

/-- A character is read off a text that begins with it. -/
theorem char_apply (c d : Char) (s : List Char) :
    char c (d :: s) = if d = c then some ((), s) else none := by
  rw [char, bind_apply]
  simp only [anyChar, Option.bind_some]
  split_ifs <;> rfl

/-- No character is read off the end. -/
@[simp] theorem char_nil (c : Char) : char c [] = none := rfl

/-- A character is read off wherever it stands. -/
theorem reads_char (c : Char) (stop : List Char → Prop) : Reads (char c) {[c]} stop := by
  constructor
  · rintro (_ | ⟨d, s⟩) a rest h
    · simp at h
    · rw [char_apply] at h
      split_ifs at h with hd
      simp only [Option.some.injEq, Prod.mk.injEq, true_and] at h
      exact ⟨[c], rfl, by rw [hd, ← h]; rfl⟩
  · rintro _ rfl rest -
    exact ⟨(), by rw [List.singleton_append, char_apply, if_pos rfl]⟩

/-- Every text of the language begins with the character. -/
def BeginsWith (c : Char) (l : Language Char) : Prop := ∀ t ∈ l, t.head? = some c

/-- A character and anything behind it begin with the character. -/
theorem beginsWith_char_mul (c : Char) (l : Language Char) : BeginsWith c ({[c]} * l) := by
  intro t ht
  obtain ⟨_, rfl, t, -, rfl⟩ := Language.mem_mul.mp ht
  rfl

/-- Texts that begin with a character begin with it whatever is put behind them. -/
theorem BeginsWith.mul {c : Char} {l : Language Char} (h : BeginsWith c l) (m : Language Char) :
    BeginsWith c (l * m) := by
  intro t ht
  obtain ⟨t₁, ht₁, t₂, -, rfl⟩ := Language.mem_mul.mp ht
  simp [List.head?_append, h t₁ ht₁]

/-! ## Numbers -/

/-- The digit that a character stands for. -/
def toDigit (radix : ℕ) (c : Char) : Option ℕ :=
  let d? := if '0' ≤ c ∧ c ≤ '9' then some (c.toNat - '0'.toNat)
    else if 'a' ≤ c ∧ c ≤ 'z' then some (c.toNat - 'a'.toNat + 10)
    else if 'A' ≤ c ∧ c ≤ 'Z' then some (c.toNat - 'A'.toNat + 10)
    else none
  d?.filter fun d => d < radix

/-- Is it a digit? -/
def IsDigit (radix : ℕ) (c : Char) : Prop := (toDigit radix c).isSome

instance (radix : ℕ) (c : Char) : Decidable (IsDigit radix c) :=
  inferInstanceAs (Decidable ((toDigit radix c).isSome = true))

/-- The value that the digits make of the one in front of them. -/
def digitsValue (radix : ℕ) : ℕ → List Char → ℕ
  | result, [] => result
  | result, c :: cs => digitsValue radix (result * radix + (toDigit radix c).getD 0) cs

/-- Digits make a value no smaller. -/
theorem le_digitsValue {radix : ℕ} (hradix : 0 < radix) (result : ℕ) (ds : List Char) :
    result ≤ digitsValue radix result ds := by
  induction ds generalizing result with
  | nil => exact le_rfl
  | cons d ds ih =>
      refine le_trans ?_ (ih _)
      exact Nat.le_add_right_of_le (Nat.le_mul_of_pos_right result hradix)

/-- The value of digits and more digits is that of the latter, from the value of the former on. -/
theorem digitsValue_append (radix result : ℕ) (ds₁ ds₂ : List Char) :
    digitsValue radix result (ds₁ ++ ds₂) =
      digitsValue radix (digitsValue radix result ds₁) ds₂ := by
  induction ds₁ generalizing result with
  | nil => rfl
  | cons d ds₁ ih => exact ih _

/-- Read digits up to the first character that is none. The result and the count so far must keep to
the limits. -/
def digits (radix : ℕ) (ok : ℕ → ℕ → Bool) : ℕ → ℕ → Reader (ℕ × ℕ)
  | result, count, [] => some ((result, count), [])
  | result, count, c :: cs =>
      match toDigit radix c with
      | none => some ((result, count), c :: cs)
      | some d =>
          if ok (result * radix + d) (count + 1) then
            digits radix ok (result * radix + d) (count + 1) cs
          else none

/-- The limit that is checked at each digit: on their count where that is bounded, else on the
result. -/
def withinLimit (maxDigits : Option ℕ) (max result count : ℕ) : Bool :=
  match maxDigits with
  | some maxDigits => count ≤ maxDigits
  | none => result ≤ max

/-- A number of a radix. -/
def number (radix : ℕ) (maxDigits : Option ℕ) (allowZeroPrefix : Bool) (max : ℕ) : Reader ℕ :=
  fun s =>
    match digits radix (withinLimit maxDigits max) 0 0 s with
    | none => none
    | some ((result, count), rest) =>
        if count = 0 then none
        else if ¬ allowZeroPrefix ∧ s.head? = some '0' ∧ 1 < count then none
        else if max < result then none
        else some (result, rest)

/-- The texts of the numbers. -/
def numbers (radix : ℕ) (maxDigits : Option ℕ) (allowZeroPrefix : Bool) (max : ℕ) :
    Language Char :=
  {ds | ds ≠ [] ∧ (∀ c ∈ ds, IsDigit radix c) ∧ (∀ m ∈ maxDigits, ds.length ≤ m) ∧
    (allowZeroPrefix ∨ ds.head? ≠ some '0' ∨ ds.length = 1) ∧ digitsValue radix 0 ds ≤ max}

/-- A digit is a digit of every larger radix. -/
theorem IsDigit.mono {radix radix' : ℕ} (hradix : radix ≤ radix') {c : Char}
    (h : IsDigit radix c) : IsDigit radix' c := by
  obtain ⟨d, hd⟩ := Option.isSome_iff_exists.mp h
  rw [toDigit, Option.filter_eq_some_iff] at hd
  refine Option.isSome_iff_exists.mpr ⟨d, ?_⟩
  rw [toDigit, Option.filter_eq_some_iff]
  exact ⟨hd.1, decide_eq_true ((of_decide_eq_true hd.2).trans_le hradix)⟩

/-- No digit comes next. -/
def NoDigit (radix : ℕ) (rest : List Char) : Prop := ∀ c ∈ rest.head?, ¬ IsDigit radix c

/-- No digit comes next in a text that begins with another character. -/
theorem NoDigit.of_beginsWith {radix : ℕ} {c : Char} (hc : ¬ IsDigit radix c) {l : Language Char}
    (hl : BeginsWith c l) {t : List Char} (ht : t ∈ l) (rest : List Char) :
    NoDigit radix (t ++ rest) := by
  intro d hd
  rw [List.head?_append, hl t ht, Option.some_or] at hd
  obtain rfl := Option.some.inj hd
  exact hc

/-- What the loop takes are digits, and it gives their value and their count. -/
theorem digits_sound {radix : ℕ} {ok : ℕ → ℕ → Bool} {result count result' count' : ℕ}
    {s rest : List Char} (h : digits radix ok result count s = some ((result', count'), rest)) :
    ∃ ds, ds ++ rest = s ∧ (∀ c ∈ ds, IsDigit radix c) ∧ result' = digitsValue radix result ds ∧
      count' = count + ds.length ∧ (ds ≠ [] → ok result' count') := by
  induction s generalizing result count with
  | nil =>
      simp only [digits, Option.some.injEq, Prod.mk.injEq] at h
      obtain ⟨⟨rfl, rfl⟩, rfl⟩ := h
      exact ⟨[], rfl, by simp, rfl, rfl, by simp⟩
  | cons c cs ih =>
      rw [digits] at h
      cases hdigit : toDigit radix c with
      | none =>
          simp only [hdigit, Option.some.injEq, Prod.mk.injEq] at h
          obtain ⟨⟨rfl, rfl⟩, rfl⟩ := h
          exact ⟨[], rfl, by simp, rfl, rfl, by simp⟩
      | some d =>
          simp only [hdigit] at h
          split_ifs at h with hok
          obtain ⟨ds, rfl, hds, hresult, hcount, hlast⟩ := ih h
          have hc : IsDigit radix c := by simp [IsDigit, hdigit]
          refine ⟨c :: ds, rfl, ?_, ?_, ?_, fun _ => ?_⟩
          · simpa [hc] using hds
          · rw [hresult, digitsValue, hdigit, Option.getD_some]
          · rw [hcount, List.length_cons]
            omega
          · cases ds with
            | nil => rw [hresult, hcount]; exact hok
            | cons d' ds => exact hlast (by simp)

/-- The loop takes all the digits where the limits hold along them. -/
theorem digits_complete {radix : ℕ} {ok : ℕ → ℕ → Bool} {result count : ℕ} {ds rest : List Char}
    (hds : ∀ c ∈ ds, IsDigit radix c) (hrest : NoDigit radix rest)
    (hok : ∀ ds₁ ds₂, ds₁ ++ ds₂ = ds → ds₁ ≠ [] →
      ok (digitsValue radix result ds₁) (count + ds₁.length)) :
    digits radix ok result count (ds ++ rest) =
      some ((digitsValue radix result ds, count + ds.length), rest) := by
  induction ds generalizing result count with
  | nil =>
      cases rest with
      | nil => rfl
      | cons c rest =>
          have hc : toDigit radix c = none := by simpa [IsDigit] using hrest c rfl
          simp [digits, hc, digitsValue]
  | cons d ds ih =>
      obtain ⟨v, hv⟩ := Option.isSome_iff_exists.mp (hds d List.mem_cons_self)
      have hfirst : ok (result * radix + v) (count + 1) := by
        simpa [digitsValue, hv] using hok [d] ds rfl (by simp)
      have hafter : ∀ ds₁ ds₂, ds₁ ++ ds₂ = ds → ds₁ ≠ [] →
          ok (digitsValue radix (result * radix + v) ds₁) (count + 1 + ds₁.length) := by
        intro ds₁ ds₂ heq _
        have hlater := hok (d :: ds₁) ds₂ (by rw [List.cons_append, heq]) (by simp)
        rw [digitsValue, hv, Option.getD_some, List.length_cons] at hlater
        rwa [Nat.add_assoc, Nat.add_comm 1]
      rw [List.cons_append, digits, hv]
      simp only [hfirst, if_true]
      rw [ih (fun c hc => hds c (List.mem_cons_of_mem d hc)) hafter, digitsValue, hv,
        Option.getD_some, List.length_cons, Nat.add_assoc, Nat.add_comm 1]

/-- The reader of numbers reads the numbers. -/
theorem reads_number {radix : ℕ} (hradix : 0 < radix) (maxDigits : Option ℕ)
    (allowZeroPrefix : Bool) (max : ℕ) :
    Reads (number radix maxDigits allowZeroPrefix max)
      (numbers radix maxDigits allowZeroPrefix max) (NoDigit radix) := by
  constructor
  · intro s n rest h
    unfold number at h
    split at h
    · simp at h
    · next result count rest' hdigits =>
        split_ifs at h with hcount hprefix hmax
        obtain ⟨rfl, rfl⟩ := Prod.mk.inj (Option.some.inj h)
        obtain ⟨ds, rfl, hds, rfl, hlength, hlast⟩ := digits_sound hdigits
        have hne : ds ≠ [] := by
          rintro rfl
          exact hcount hlength
        refine ⟨ds, ⟨hne, hds, ?_, ?_, not_lt.mp hmax⟩, rfl⟩
        · rintro m rfl
          simpa [withinLimit, hlength] using hlast hne
        · rw [List.head?_append_of_ne_nil _ hne] at hprefix
          have hpos := List.length_pos_iff.mpr hne
          by_cases hallow : allowZeroPrefix
          · exact Or.inl hallow
          · by_cases hzero : ds.head? = some '0'
            · refine Or.inr (Or.inr ?_)
              have := not_and.mp (not_and.mp hprefix hallow) hzero
              omega
            · exact Or.inr (Or.inl hzero)
  · rintro ds ⟨hne, hds, hlength, hprefix, hmax⟩ rest hrest
    have hok : ∀ ds₁ ds₂, ds₁ ++ ds₂ = ds → ds₁ ≠ [] →
        withinLimit maxDigits max (digitsValue radix 0 ds₁) (0 + ds₁.length) := by
      rintro ds₁ ds₂ rfl -
      cases maxDigits with
      | some m =>
          have := hlength m rfl
          rw [List.length_append] at this
          simp only [withinLimit, decide_eq_true_eq]
          omega
      | none =>
          rw [digitsValue_append] at hmax
          exact decide_eq_true ((le_digitsValue hradix _ ds₂).trans hmax)
    refine ⟨digitsValue radix 0 ds, ?_⟩
    rw [number, digits_complete hds hrest hok]
    have hpos := List.length_pos_iff.mpr hne
    simp only [Nat.zero_add, Nat.not_lt.mpr hmax, hpos.ne', if_false,
      List.head?_append_of_ne_nil _ hne]
    rw [if_neg]
    rintro ⟨hallow, hzero, hlong⟩
    rcases hprefix with h | h | h
    · exact hallow h
    · exact h hzero
    · omega

end Reader
