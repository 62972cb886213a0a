import HarbrRouter.Basic
import HarbrRouter.Lib.Reader

/-!
# Reading socket addresses

`str::parse::<SocketAddr>` of the standard library, reader by reader, and the language of the texts
that it takes. The library reads bytes; a character outside ASCII is several bytes there and none
that any reader takes, so that characters do as well.

**Theorem** (`SocketAddr.fromStr_ok_iff`): a text is parsed exactly when it is in `socketAddr`. Each
reader takes the texts of its language, in front of a rest at which it may stop (`Reads`), and so do
readers one behind the other where what the second takes begins as the first may stop. For the
groups of an IPv6 address that takes an argument: they are read until none follows
(`readGroups_sound`, `readGroups_complete`), and an IPv4 address in place of the last two is told
from a group by the first character behind its digits (`ipv4_append_ne`).
-/

set_option autoImplicit false

namespace HarbrRouter

open Reader

namespace AddrParser

/-! ## The readers -/

/-- A value with the separator before it, unless it is the first. -/
def readSeparator {α : Type} (sep : Char) (index : ℕ) (inner : Reader α) : Reader α :=
  if 0 < index then char sep >>= fun _ => inner else inner

/-- A decimal byte of an IPv4 address. -/
def readOctet : Reader UInt8 := Nat.toUInt8 <$> number 10 (some 3) false 255

/-- An IPv4 address. -/
def readIpv4Addr : Reader Ipv4Addr := do
  let a ← readSeparator '.' 0 readOctet
  let b ← readSeparator '.' 1 readOctet
  let c ← readSeparator '.' 2 readOctet
  let d ← readSeparator '.' 3 readOctet
  pure ⟨a, b, c, d⟩

/-- A hexadecimal group of an IPv6 address. -/
def readGroup : Reader UInt16 := Nat.toUInt16 <$> number 16 (some 4) true 65535

/-- The two groups that an IPv4 address stands for. -/
def ipv4Groups (ip : Ipv4Addr) : List UInt16 :=
  [(ip.a.toNat * 256 + ip.b.toNat).toUInt16, (ip.c.toNat * 256 + ip.d.toNat).toUInt16]

/-- Groups into so many slots from an index on, and whether they end in an IPv4 address, which needs
two slots. -/
def readGroups : ℕ → ℕ → Reader (List UInt16 × Bool)
  | 0, _ => pure ([], false)
  | slots + 1, i => fun s =>
      match if 0 < slots then readSeparator ':' i readIpv4Addr s else none with
      | some (ip, s) => some ((ipv4Groups ip, true), s)
      | none =>
          match readSeparator ':' i readGroup s with
          | none => some (([], false), s)
          | some (group, s) =>
              (readGroups slots (i + 1) s).map fun r => ((group :: r.1.1, r.1.2), r.2)

/-- An IPv6 address of its groups. -/
def ipv6OfGroups (groups : List UInt16) : Ipv6Addr := ⟨Vector.ofFn fun i => groups.getD i 0⟩

/-- The `::` of an IPv6 address behind its head, and the groups of the tail. -/
def readIpv6Tail (head : List UInt16) : Reader Ipv6Addr := do
  char ':'
  char ':'
  let tail ← readGroups (8 - (head.length + 1)) 0
  pure (ipv6OfGroups
    (head ++ List.replicate (8 - head.length - tail.1.length) 0 ++ tail.1))

/-- An IPv6 address: eight groups, or the groups up to a `::` and those behind it. -/
def readIpv6Addr : Reader Ipv6Addr := fun s =>
  match readGroups 8 0 s with
  | none => none
  | some ((head, headIpv4), s) =>
      if head.length = 8 then some (ipv6OfGroups head, s)
      else if headIpv4 then none
      else readIpv6Tail head s

/-- A port. -/
def readPort : Reader UInt16 := do
  char ':'
  Nat.toUInt16 <$> number 10 none true 65535

/-- A scope. -/
def readScopeId : Reader UInt32 := do
  char '%'
  Nat.toUInt32 <$> number 10 none true (2 ^ 32 - 1)

/-- An IPv4 address with a port. -/
def readSocketAddrV4 : Reader SocketAddr := do
  let ip ← readIpv4Addr
  let port ← readPort
  pure (.v4 ip port)

/-- An IPv6 address with a port. -/
def readSocketAddrV6 : Reader SocketAddr := do
  char '['
  let ip ← readIpv6Addr
  let scopeId ← readScopeId <|> pure 0
  char ']'
  let port ← readPort
  pure (.v6 ip port scopeId)

/-- An address with a port. -/
def readSocketAddr : Reader SocketAddr := readSocketAddrV4 <|> readSocketAddrV6

end AddrParser

/-- `str::parse::<SocketAddr>`, with the text of its error. -/
def SocketAddr.fromStr (address : String) : Except String SocketAddr :=
  match AddrParser.readSocketAddr address.toList with
  | some (addr, []) => .ok addr
  | _ => .error "invalid socket address syntax"

namespace AddrParser

/-! ## The languages -/

/-- The texts with the separator before them, unless they are the first. -/
def separated (sep : Char) (index : ℕ) (l : Language Char) : Language Char :=
  if 0 < index then {[sep]} * l else l

/-- A byte: up to three decimal digits without a leading zero, of a value up to 255. -/
def octet : Language Char := numbers 10 (some 3) false 255

/-- Four bytes with dots between them. -/
def ipv4 : Language Char :=
  octet * ({['.']} * octet * ({['.']} * octet * ({['.']} * octet)))

/-- A group: up to four hexadecimal digits. -/
def group : Language Char := numbers 16 (some 4) true 65535

/-- `Groups i n mixed t`: the text is `n` groups with colons between them and, when `i` groups come
before them, one in front; in a mixed one the last two have the form of an IPv4 address. -/
inductive Groups : ℕ → ℕ → Bool → List Char → Prop
  | nil {i : ℕ} : Groups i 0 false []
  | ipv4 {i : ℕ} {t : List Char} (h : t ∈ separated ':' i ipv4) : Groups i 2 true t
  | cons {i n : ℕ} {mixed : Bool} {t ts : List Char} (h : t ∈ separated ':' i group)
      (hs : Groups (i + 1) n mixed ts) : Groups i (n + 1) mixed (t ++ ts)

/-- Groups from the first on, up to so many. -/
def groupsUpTo (slots : ℕ) : Language Char := {t | ∃ n mixed, n ≤ slots ∧ Groups 0 n mixed t}

/-- Eight groups. -/
def ipv6Full : Language Char := {t | ∃ mixed, Groups 0 8 mixed t}

/-- Up to seven groups with a `::` for the missing ones, and an IPv4 address only behind it. -/
def ipv6Short : Language Char :=
  {t | ∃ n head tail, n ≤ 7 ∧ Groups 0 n false head ∧ tail ∈ groupsUpTo (7 - n) ∧
    t = head ++ [':', ':'] ++ tail}

/-- A colon and a decimal number up to 65535. -/
def port : Language Char := {[':']} * numbers 10 none true 65535

/-- A percent sign and a decimal number of 32 bits. -/
def scopeId : Language Char := {['%']} * numbers 10 none true (2 ^ 32 - 1)

/-- The texts of the socket addresses: `a.b.c.d:port` and `[ipv6]:port`, the latter with a scope or
without. -/
def socketAddr : Language Char :=
  ipv4 * port + {['[']} * ((ipv6Full + ipv6Short) * ((scopeId + 1) * ({[']']} * port)))

/-! ## What the readers read -/

section reads

variable {α : Type} {r : Reader α} {l : Language Char} {stop : List Char → Prop}

/-- A value with the separator before it, unless it is the first one, is read where the value is. -/
theorem reads_separated (h : Reads r l stop) (sep : Char) (index : ℕ) :
    Reads (readSeparator sep index r) (separated sep index l) stop := by
  unfold readSeparator separated
  split_ifs with hindex
  · exact (reads_char sep fun _ => True).bind (fun _ => h) fun _ _ _ _ => trivial
  · exact h

/-- `readOctet` reads the bytes, up to where there is no digit. -/
theorem reads_octet : Reads readOctet octet (NoDigit 10) :=
  (reads_number (by decide) (some 3) false 255).map _

/-- `readGroup` reads the groups, up to where there is no hexadecimal digit. -/
theorem reads_group : Reads readGroup group (NoDigit 16) :=
  (reads_number (by decide) (some 4) true 65535).map _

/-- `readIpv4Addr` reads the IPv4 addresses. -/
theorem reads_ipv4Addr : Reads readIpv4Addr ipv4 (NoDigit 10) := by
  have hdot := beginsWith_char_mul '.' octet
  have hread := reads_separated reads_octet '.'
  refine (hread 0).bind (fun a => (hread 1).bind (fun b => (hread 2).bind (fun c =>
    (hread 3).bind_pure _) ?_) ?_) ?_
  · exact fun t ht rest _ => .of_beginsWith (by decide) hdot ht rest
  · exact fun t ht rest _ => .of_beginsWith (by decide) (hdot.mul _) ht rest
  · exact fun t ht rest _ => .of_beginsWith (by decide) (hdot.mul _) ht rest

/-! ## The groups of an IPv6 address -/

/-- What may follow the groups: the end of the address, or a `::`. -/
def GroupsStop (rest : List Char) : Prop :=
  ∃ s, rest = ']' :: s ∨ rest = '%' :: s ∨ rest = ':' :: ':' :: s

/-- What may follow a group: a colon or the end of the address. -/
def GroupStop (rest : List Char) : Prop := ∃ c s, rest = c :: s ∧ (c = ']' ∨ c = '%' ∨ c = ':')

/-- Where the groups may stop, a group may. -/
theorem GroupsStop.groupStop {rest : List Char} (h : GroupsStop rest) : GroupStop rest := by
  obtain ⟨s, rfl | rfl | rfl⟩ := h
  · exact ⟨']', s, rfl, Or.inl rfl⟩
  · exact ⟨'%', s, rfl, Or.inr (Or.inl rfl)⟩
  · exact ⟨':', ':' :: s, rfl, Or.inr (Or.inr rfl)⟩

/-- Where a group may stop there is no digit. -/
theorem GroupStop.noDigit {rest : List Char} (h : GroupStop rest) : NoDigit 16 rest := by
  obtain ⟨c, s, rfl, hc⟩ := h
  rintro _ ⟨⟩
  rcases hc with rfl | rfl | rfl <;> decide

/-- Groups behind others begin with a colon. -/
theorem Groups.groupStop {i n : ℕ} {mixed : Bool} {t rest : List Char}
    (h : Groups (i + 1) n mixed t) (hrest : GroupStop rest) : GroupStop (t ++ rest) := by
  have hcolon : ∀ {l t' s}, t' ∈ separated ':' (i + 1) l → GroupStop (t' ++ s) := by
    intro l t' s ht'
    rw [separated, if_pos i.succ_pos] at ht'
    obtain ⟨_, rfl, u, -, rfl⟩ := Language.mem_mul.mp ht'
    exact ⟨':', u ++ s, rfl, Or.inr (Or.inr rfl)⟩
  cases h with
  | nil => exact hrest
  | ipv4 ht => exact hcolon ht
  | cons ht hs =>
      rw [List.append_assoc]
      exact hcolon ht

/-- Every text of the language begins with a hexadecimal digit. -/
def BeginsWithDigit (l : Language Char) : Prop := ∀ t ∈ l, ∃ c s, t = c :: s ∧ IsDigit 16 c

/-- A group begins with a digit. -/
theorem beginsWithDigit_group : BeginsWithDigit group := by
  rintro (_ | ⟨c, s⟩) ⟨hne, hdigits, -⟩
  · exact absurd rfl hne
  · exact ⟨c, s, rfl, hdigits c List.mem_cons_self⟩

/-- An IPv4 address begins with a byte, and that with a dot behind it. -/
theorem exists_octet_of_mem_ipv4 {t : List Char} (h : t ∈ ipv4) :
    ∃ o s, o ∈ octet ∧ t = o ++ '.' :: s := by
  obtain ⟨o, ho, _, hs, rfl⟩ := Language.mem_mul.mp h
  obtain ⟨_, hdot, s, -, rfl⟩ := Language.mem_mul.mp hs
  obtain ⟨_, rfl, o', -, rfl⟩ := Language.mem_mul.mp hdot
  exact ⟨o, o' ++ s, ho, rfl⟩

/-- An IPv4 address begins with a digit. -/
theorem beginsWithDigit_ipv4 : BeginsWithDigit ipv4 := by
  intro t ht
  obtain ⟨o, s, ⟨hne, hdigits, -⟩, rfl⟩ := exists_octet_of_mem_ipv4 ht
  cases o with
  | nil => exact absurd rfl hne
  | cons c o =>
      exact ⟨c, o ++ '.' :: s, rfl, (hdigits c List.mem_cons_self).mono (by decide)⟩

/-- What begins with a digit is not in front of where the groups stop. -/
theorem separated_append_ne {l : Language Char} (hl : BeginsWithDigit l) {i : ℕ}
    {t rest rest' : List Char} (ht : t ∈ separated ':' i l) (hrest : GroupsStop rest) :
    t ++ rest' ≠ rest := by
  rintro rfl
  unfold separated at ht
  split_ifs at ht with hi
  · -- the separator is the first colon of a `::`, and the digit the second
    obtain ⟨_, rfl, u, hu, rfl⟩ := Language.mem_mul.mp ht
    obtain ⟨c, v, rfl, hc⟩ := hl u hu
    obtain ⟨s, hs⟩ := hrest
    obtain ⟨rfl, -⟩ : c = ':' ∧ v ++ rest' = s := by simpa using hs
    exact absurd hc (by decide)
  · obtain ⟨c, v, rfl, hc⟩ := hl t ht
    exact hrest.groupStop.noDigit c rfl hc

/-- A group in front of where it may stop does not begin as an IPv4 address does: the first
character that is no digit would be a dot. -/
theorem ipv4_append_ne {t t' rest rest' : List Char} (ht' : t' ∈ ipv4) (ht : t ∈ group)
    (hrest : GroupStop rest) : t' ++ rest' ≠ t ++ rest := by
  intro heq
  obtain ⟨o, s, ⟨-, ho, -⟩, rfl⟩ := exists_octet_of_mem_ipv4 ht'
  obtain ⟨-, hdigits, -⟩ := ht
  obtain ⟨c, s', rfl, hc⟩ := hrest
  have hdrop := congrArg (List.dropWhile fun c => decide (IsDigit 16 c)) heq
  have hcdigit : ¬ IsDigit 16 c := by rcases hc with rfl | rfl | rfl <;> decide
  rw [List.append_assoc, List.dropWhile_append_of_pos
      fun c hc => decide_eq_true ((ho c hc).mono (by decide)),
    List.dropWhile_append_of_pos fun c hc => decide_eq_true (hdigits c hc), List.cons_append,
    List.dropWhile_cons_of_neg (by decide), List.dropWhile_cons_of_neg (by simpa using hcdigit)]
    at hdrop
  obtain ⟨rfl, -⟩ := List.cons.inj hdrop
  rcases hc with hc | hc | hc <;> exact absurd hc (by decide)

/-- No IPv4 address is read off a group. -/
theorem readIpv4Addr_group {i : ℕ} {t rest : List Char} (ht : t ∈ separated ':' i group)
    (hrest : GroupStop rest) : readSeparator ':' i readIpv4Addr (t ++ rest) = none := by
  refine Option.eq_none_iff_forall_not_mem.mpr fun p hp => ?_
  obtain ⟨t', ht', heq⟩ := (reads_separated reads_ipv4Addr ':' i).sound _ p.1 p.2 hp
  unfold separated at ht ht'
  split_ifs at ht ht' with hi
  · obtain ⟨_, rfl, u, hu, rfl⟩ := Language.mem_mul.mp ht
    obtain ⟨_, rfl, u', hu', rfl⟩ := Language.mem_mul.mp ht'
    exact ipv4_append_ne hu' hu hrest (List.cons.inj heq).2
  · exact ipv4_append_ne ht' ht hrest heq

/-- Nothing is read off where the groups stop. -/
theorem readSeparator_stop {β : Type} {read : Reader β} {l : Language Char}
    {may : List Char → Prop} (hread : Reads read l may) (hl : BeginsWithDigit l) (i : ℕ)
    {rest : List Char} (hrest : GroupsStop rest) : readSeparator ':' i read rest = none := by
  refine Option.eq_none_iff_forall_not_mem.mpr fun p hp => ?_
  obtain ⟨t, ht, heq⟩ := (reads_separated hread ':' i).sound _ p.1 p.2 hp
  exact separated_append_ne hl ht hrest heq

/-- What is taken as groups are as many groups as are given, and no more than the slots. -/
theorem readGroups_sound {slots i : ℕ} {s rest : List Char} {groups : List UInt16} {mixed : Bool}
    (h : readGroups slots i s = some ((groups, mixed), rest)) :
    groups.length ≤ slots ∧ ∃ t, Groups i groups.length mixed t ∧ t ++ rest = s := by
  induction slots generalizing i s groups with
  | zero =>
      rw [readGroups, pure_apply] at h
      simp only [Option.some.injEq, Prod.mk.injEq] at h
      obtain ⟨⟨rfl, rfl⟩, rfl⟩ := h
      exact ⟨le_rfl, [], .nil, rfl⟩
  | succ slots ih =>
      unfold readGroups at h
      split at h
      · next ip s' hip =>
          split_ifs at hip with hslots
          simp only [Option.some.injEq, Prod.mk.injEq] at h
          obtain ⟨⟨rfl, rfl⟩, rfl⟩ := h
          obtain ⟨t, ht, heq⟩ := (reads_separated reads_ipv4Addr ':' i).sound _ _ _ hip
          exact ⟨Nat.succ_le_succ hslots, t, .ipv4 ht, heq⟩
      · split at h
        · simp only [Option.some.injEq, Prod.mk.injEq] at h
          obtain ⟨⟨rfl, rfl⟩, rfl⟩ := h
          exact ⟨Nat.zero_le _, [], .nil, rfl⟩
        · next group s' hgroup =>
            obtain ⟨⟨⟨gs, v⟩, s''⟩, hmore, heq⟩ := Option.map_eq_some_iff.mp h
            simp only [Prod.mk.injEq] at heq
            obtain ⟨⟨rfl, rfl⟩, rfl⟩ := heq
            obtain ⟨hlength, ts, hts, rfl⟩ := ih hmore
            obtain ⟨t, ht, rfl⟩ := (reads_separated reads_group ':' i).sound _ _ _ hgroup
            exact ⟨Nat.succ_le_succ hlength, t ++ ts, .cons ht hts, List.append_assoc ..⟩

/-- All the groups are taken where there are slots for them. -/
theorem readGroups_complete {i n slots : ℕ} {mixed : Bool} {t rest : List Char}
    (h : Groups i n mixed t) (hslots : n ≤ slots) (hrest : GroupsStop rest) :
    ∃ groups, groups.length = n ∧
      readGroups slots i (t ++ rest) = some ((groups, mixed), rest) := by
  induction h generalizing slots with
  | nil =>
      refine ⟨[], rfl, ?_⟩
      cases slots with
      | zero => rfl
      | succ slots =>
          simp [readGroups, readSeparator_stop reads_ipv4Addr beginsWithDigit_ipv4 _ hrest,
            readSeparator_stop reads_group beginsWithDigit_group _ hrest]
  | @ipv4 i t ht =>
      obtain ⟨slots, rfl⟩ := Nat.exists_eq_add_of_le' hslots
      obtain ⟨ip, hip⟩ := (reads_separated reads_ipv4Addr ':' i).complete t ht rest
        fun c hc hdigit => hrest.groupStop.noDigit c hc (hdigit.mono (by decide))
      exact ⟨ipv4Groups ip, rfl, by simp [readGroups, hip]⟩
  | @cons i n mixed t ts ht hts ih =>
      obtain ⟨slots, rfl⟩ := Nat.exists_eq_add_of_le' (Nat.zero_lt_of_lt hslots)
      have hstop : GroupStop (ts ++ rest) := hts.groupStop hrest.groupStop
      obtain ⟨group, hgroup⟩ := (reads_separated reads_group ':' i).complete t ht _ hstop.noDigit
      obtain ⟨groups, rfl, hmore⟩ := ih (Nat.le_of_succ_le_succ hslots)
      refine ⟨group :: groups, rfl, ?_⟩
      rw [List.append_assoc]
      simp [readGroups, readIpv4Addr_group ht hstop, hgroup, hmore]

/-- Where an IPv6 address may stop: at its end. -/
def Ipv6Stop (rest : List Char) : Prop := ∃ s, rest = ']' :: s ∨ rest = '%' :: s

/-- Where an IPv6 address may stop, its groups may. -/
theorem Ipv6Stop.groupsStop {rest : List Char} (h : Ipv6Stop rest) : GroupsStop rest := by
  obtain ⟨s, h | h⟩ := h
  · exact ⟨s, Or.inl h⟩
  · exact ⟨s, Or.inr (Or.inl h)⟩

/-- `readGroups` reads groups from the first on, up to so many. -/
theorem reads_groups (slots : ℕ) : Reads (readGroups slots 0) (groupsUpTo slots) GroupsStop := by
  constructor
  · rintro s ⟨groups, mixed⟩ rest h
    obtain ⟨hlength, t, ht, rfl⟩ := readGroups_sound h
    exact ⟨t, ⟨groups.length, mixed, hlength, ht⟩, rfl⟩
  · rintro t ⟨n, mixed, hn, ht⟩ rest hrest
    obtain ⟨groups, -, hgroups⟩ := readGroups_complete ht hn hrest
    exact ⟨_, hgroups⟩

/-- `readIpv6Tail` reads what is behind the head of an IPv6 address: a `::` and more groups. -/
theorem reads_ipv6Tail (head : List UInt16) :
    Reads (readIpv6Tail head) ({[':']} * ({[':']} * groupsUpTo (8 - (head.length + 1))))
      GroupsStop := by
  have hcolon := reads_char ':' fun _ => True
  refine hcolon.bind (fun _ => hcolon.bind (fun _ => ?_) fun _ _ _ _ => trivial)
    fun _ _ _ _ => trivial
  exact (reads_groups _).bind_pure _

/-- `readIpv6Addr` reads the IPv6 addresses. -/
theorem reads_ipv6Addr : Reads readIpv6Addr (ipv6Full + ipv6Short) Ipv6Stop := by
  constructor
  · intro s ip rest h
    unfold readIpv6Addr at h
    split at h
    · simp at h
    · next head headIpv4 s₁ hhead =>
        obtain ⟨hle, t₁, ht₁, rfl⟩ := readGroups_sound hhead
        split_ifs at h with hfull hipv4
        · obtain ⟨-, rfl⟩ := Prod.mk.inj (Option.some.inj h)
          exact ⟨t₁, (Language.mem_add ..).mpr (Or.inl ⟨headIpv4, hfull ▸ ht₁⟩), rfl⟩
        · obtain ⟨t₂, ht₂, rfl⟩ := (reads_ipv6Tail head).sound _ _ _ h
          obtain ⟨_, rfl, t₃, ht₃, rfl⟩ := Language.mem_mul.mp ht₂
          obtain ⟨_, rfl, tail, htail, rfl⟩ := Language.mem_mul.mp ht₃
          rw [Bool.not_eq_true] at hipv4
          refine ⟨t₁ ++ [':', ':'] ++ tail, (Language.mem_add ..).mpr (Or.inr ?_), by simp⟩
          exact ⟨head.length, t₁, tail, by omega, hipv4 ▸ ht₁, by
            rwa [show 7 - head.length = 8 - (head.length + 1) by omega], rfl⟩
  · intro t ht rest hrest
    rcases (Language.mem_add ..).mp ht with ⟨mixed, hfull⟩ | ⟨n, head, tail, hn, hhead, htail, rfl⟩
    · obtain ⟨groups, hlength, hgroups⟩ := readGroups_complete hfull le_rfl hrest.groupsStop
      exact ⟨ipv6OfGroups groups, by rw [readIpv6Addr, hgroups]; exact if_pos hlength⟩
    · obtain ⟨groups, hlength, hgroups⟩ := readGroups_complete hhead (show n ≤ 8 by omega)
        (⟨tail ++ rest, Or.inr (Or.inr rfl)⟩ : GroupsStop ([':', ':'] ++ tail ++ rest))
      rw [show 7 - n = 8 - (groups.length + 1) by omega] at htail
      obtain ⟨ip, hip⟩ := (reads_ipv6Tail groups).complete _ (Language.append_mem_mul rfl
        (Language.append_mem_mul rfl htail)) rest hrest.groupsStop
      have hne : groups.length ≠ 8 := by omega
      refine ⟨ip, ?_⟩
      rw [List.append_assoc, List.append_assoc, ← List.append_assoc [':', ':'], readIpv6Addr,
        hgroups]
      simpa [hne] using hip

/-! ## Socket addresses -/

/-- `readPort` reads the ports, up to where there is no digit. -/
theorem reads_port : Reads readPort port (NoDigit 10) :=
  (reads_char ':' fun _ => True).bind
    (fun _ => (reads_number (by decide) none true 65535).map _) fun _ _ _ _ => trivial

/-- `readScopeId` reads the scopes, up to where there is no digit. -/
theorem reads_scopeId : Reads readScopeId scopeId (NoDigit 10) :=
  (reads_char '%' fun _ => True).bind
    (fun _ => (reads_number (by decide) none true (2 ^ 32 - 1)).map _) fun _ _ _ _ => trivial

/-- `readSocketAddrV4` reads the IPv4 addresses with a port. -/
theorem reads_socketAddrV4 : Reads readSocketAddrV4 (ipv4 * port) (NoDigit 10) :=
  reads_ipv4Addr.bind (fun _ => reads_port.bind_pure _)
    fun _ ht rest _ => .of_beginsWith (by decide) (beginsWith_char_mul ':' _) ht rest

/-- A scope in front of a closing bracket, or none. -/
theorem reads_optional_scopeId :
    Reads (readScopeId <|> pure 0) (scopeId + 1) fun rest => rest.head? = some ']' := by
  have hclosing : ∀ rest : List Char, rest.head? = some ']' → NoDigit 10 rest := by
    intro rest hrest c hc
    obtain rfl : ']' = c := Option.some.inj (hrest.symm.trans hc)
    decide
  apply (reads_scopeId.mono hclosing).optional 0
  rintro _ hrest t ht rest' rfl
  obtain ⟨_, rfl, u, -, rfl⟩ := Language.mem_mul.mp ht
  exact absurd hrest (by simp)

/-- `readSocketAddrV6` reads the IPv6 addresses in brackets, some with a scope, with a port. -/
theorem reads_socketAddrV6 :
    Reads readSocketAddrV6
      ({['[']} * ((ipv6Full + ipv6Short) * ((scopeId + 1) * ({[']']} * port)))) (NoDigit 10) := by
  have hclosing := beginsWith_char_mul ']' port
  refine (reads_char '[' fun _ => True).bind (fun _ => reads_ipv6Addr.bind (fun ip =>
    reads_optional_scopeId.bind (fun scopeId => (reads_char ']' fun _ => True).bind
      (fun _ => reads_port.bind_pure _) fun _ _ _ _ => trivial) ?_) ?_) fun _ _ _ _ => trivial
  · intro t ht rest _
    rw [List.head?_append, hclosing t ht, Option.some_or]
  · intro t ht rest _
    obtain ⟨s, hs, u, hu, rfl⟩ := Language.mem_mul.mp ht
    rcases (Language.mem_add ..).mp hs with hs | hs
    · obtain ⟨_, rfl, v, -, rfl⟩ := Language.mem_mul.mp hs
      exact ⟨v ++ u ++ rest, Or.inr (by simp)⟩
    · obtain rfl := (Language.mem_one s).mp hs
      obtain ⟨_, rfl, v, -, rfl⟩ := Language.mem_mul.mp hu
      exact ⟨v ++ rest, Or.inl rfl⟩

/-- `readSocketAddr` reads the socket addresses. -/
theorem reads_socketAddr : Reads readSocketAddr socketAddr (NoDigit 10) := by
  apply reads_socketAddrV4.orElse reads_socketAddrV6
  intro t ht rest _ t' ht' rest' heq
  obtain ⟨_, rfl, u, -, rfl⟩ := Language.mem_mul.mp ht
  obtain ⟨ip, hip, u', -, rfl⟩ := Language.mem_mul.mp ht'
  obtain ⟨c, s, rfl, hc⟩ := beginsWithDigit_ipv4 ip hip
  obtain rfl : c = '[' := (List.cons.inj heq).1
  exact absurd hc (by decide)

/-- There is a colon in every socket address, before its port. -/
theorem colon_mem_of_socketAddr {t : List Char} (h : t ∈ socketAddr) : ':' ∈ t := by
  have hport : ∀ t ∈ port, ':' ∈ t := fun t ht =>
    List.mem_of_mem_head? (beginsWith_char_mul ':' _ t ht)
  have hmul : ∀ {l m : Language Char}, (∀ t ∈ m, ':' ∈ t) → ∀ t ∈ l * m, ':' ∈ t := by
    intro l m hm t ht
    obtain ⟨a, -, b, hb, rfl⟩ := Language.mem_mul.mp ht
    exact List.mem_append_right a (hm b hb)
  rcases (Language.mem_add ..).mp h with h | h
  · exact hmul hport t h
  · exact hmul (hmul (hmul (hmul hport))) t h

end reads

end AddrParser

/-- **What is parsed as a socket address.** A text is exactly when it is one in the language. -/
theorem SocketAddr.fromStr_ok_iff (address : String) :
    (∃ addr, SocketAddr.fromStr address = .ok addr) ↔
      address.toList ∈ AddrParser.socketAddr := by
  rw [← AddrParser.reads_socketAddr.all_iff (by simp [NoDigit])]
  refine exists_congr fun addr => ?_
  unfold SocketAddr.fromStr
  split
  · next addr' h => simp [h]
  · next h => simpa using fun h' => h addr h'

end HarbrRouter
