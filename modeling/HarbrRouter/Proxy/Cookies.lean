import HarbrRouter.Proxy.Validation
import Mathlib.Data.List.Basic

/-!
# The session key of a list of cookies

`extract_session_key` reads the value of the cookie `session_id` from the header `Cookie` with a
small parser of its own: split at `;`, trim, split at the first `=`. A client writes its cookies as
pairs `name=value` joined by `; `, in one header field or, in HTTP/2, in several.

**Theorem** (`extractSessionKey_correct_iff`): when the key of a request is the value of the first
pair of the name `session_id`, or else the client's address.

The parser undoes the writing of one field (`findSome_cookieField`): a pair carries that its text
has no semicolon and no blank at its ends and that its name has no equals sign (`CookiePair`), so
splitting, trimming and splitting again give the pair back (`sessionIdOf_text`). Of a request the
code reads the first field only, then the client's address (`extractSessionKey_eq`), while the value
asked for is that of the first field or else that of the others (`sessionValue_flatten`); what is
left is which of the two there are.
-/

set_option autoImplicit false

namespace HarbrRouter.Proxy.Http

/-! ## Writing cookies -/

/-- A blank of a header value. -/
def isBlank (c : Char) : Bool := c = ' ' || c = '\t'

/-- Of the visible characters, `str::trim` removes the blanks. -/
theorem isWhitespace_of_isVisibleChar {c : Char} (h : isVisibleChar c = true) :
    isWhitespace c = isBlank c := by
  simp only [isVisibleChar, Bool.or_eq_true, Bool.and_eq_true, decide_eq_true_eq] at h
  have hspace : c = ' ' ↔ c.toNat = 32 := ⟨by rintro rfl; rfl, fun h => Char.toNat_inj.mp h⟩
  have htab : c = '\t' ↔ c.toNat = 9 := ⟨by rintro rfl; rfl, fun h => Char.toNat_inj.mp h⟩
  rw [htab] at h
  rw [Bool.eq_iff_iff]
  simp [isWhitespace, isBlank, hspace, htab]
  omega

/-- A cookie pair, as a client may send it. -/
structure CookiePair where
  name : String
  value : String
  visible : (name.toList ++ value.toList).all isVisibleChar
  name_ne : name ≠ ""
  name_plain : '=' ∉ name.toList ∧ ';' ∉ name.toList
  name_head : ¬ name.toList.head?.any isBlank
  name_last : ¬ name.toList.getLast?.any isBlank
  value_plain : ';' ∉ value.toList
  value_last : ¬ value.toList.getLast?.any isBlank

/-- The pair as it is written. -/
def CookiePair.text (pair : CookiePair) : String := pair.name ++ "=" ++ pair.value

/-- The text of a header field with a list of pairs. -/
def cookieField (pairs : List CookiePair) : String := "; ".intercalate (pairs.map CookiePair.text)

/-- The value of the first pair of the name `session_id`. -/
def sessionValue (pairs : List CookiePair) : Option String :=
  (pairs.find? fun pair => pair.name = "session_id").map CookiePair.value

namespace CookiePair

variable (pair : CookiePair)

/-- The characters of a pair are its name, an equals sign and its value. -/
theorem toList_text : pair.text.toList = pair.name.toList ++ '=' :: pair.value.toList := by
  simp [text]

/-- All characters of a pair are visible. -/
theorem text_visible : ∀ c ∈ pair.text.toList, isVisibleChar c = true := by
  have hvisible := List.all_eq_true.mp pair.visible
  intro c hc
  rw [toList_text, List.mem_append, List.mem_cons] at hc
  rcases hc with hc | rfl | hc
  · exact hvisible c (List.mem_append_left _ hc)
  · rfl
  · exact hvisible c (List.mem_append_right _ hc)

/-- No character of a pair is a semicolon, which would end it. -/
theorem semicolon_notMem_text : ';' ∉ pair.text.toList := by
  rw [toList_text, List.mem_append, List.mem_cons]
  rintro (h | h | h)
  · exact pair.name_plain.2 h
  · exact absurd h (by decide)
  · exact pair.value_plain h

/-- A pair does not begin with a blank. -/
theorem text_head : ∀ c ∈ pair.text.toList.head?, isWhitespace c = false := by
  intro c hc
  rw [isWhitespace_of_isVisibleChar (pair.text_visible c (List.mem_of_mem_head? hc))]
  cases hname : pair.name.toList with
  | nil => exact absurd (by simpa using hname) pair.name_ne
  | cons c' cs =>
      obtain rfl : c' = c := by simpa [toList_text, hname] using hc
      simpa [hname] using pair.name_head

/-- A pair does not end with a blank. -/
theorem text_last : ∀ c ∈ pair.text.toList.getLast?, isWhitespace c = false := by
  intro c hc
  rw [isWhitespace_of_isVisibleChar (pair.text_visible c (List.mem_of_mem_getLast? hc))]
  rw [toList_text, List.getLast?_append, List.getLast?_cons] at hc
  cases hvalue : pair.value.toList.getLast? with
  | none =>
      obtain rfl : '=' = c := by simpa [hvalue] using hc
      rfl
  | some c' =>
      obtain rfl : c' = c := by simpa [hvalue] using hc
      simpa [hvalue] using pair.value_last

end CookiePair

/-! ## Reading them back -/

/-- Trimming takes the blanks off both sides. -/
theorem trim_append {blanks cs : List Char} (hblanks : ∀ c ∈ blanks, isWhitespace c = true)
    (hhead : ∀ c ∈ cs.head?, isWhitespace c = false)
    (hlast : ∀ c ∈ cs.getLast?, isWhitespace c = false) : trim (blanks ++ cs) = cs := by
  have hdrop : ∀ {l : List Char}, (∀ c ∈ l.head?, isWhitespace c = false) →
      l.dropWhile isWhitespace = l := by
    intro l hl
    cases l with
    | nil => rfl
    | cons c l => exact List.dropWhile_cons_of_neg (by simp [hl c rfl])
  rw [trim, List.dropWhile_append_of_pos hblanks, hdrop hhead, hdrop, List.reverse_reverse]
  rwa [List.head?_reverse]

/-- Splitting at the first separator undoes writing it. -/
theorem splitOnce_append {sep : Char} {before : List Char} (h : sep ∉ before)
    (rest : List Char) : splitOnce sep (before ++ sep :: rest) = (before, some rest) := by
  have hne : ∀ c ∈ before, decide (c ≠ sep) = true := fun c hc =>
    decide_eq_true fun heq => h (heq ▸ hc)
  rw [splitOnce, List.dropWhile_append_of_pos hne, List.takeWhile_append_of_pos hne]
  simp

/-- A pair behind blanks is read as it was written. -/
theorem sessionIdOf_text {blanks : List Char} (hblanks : ∀ c ∈ blanks, isWhitespace c = true)
    (pair : CookiePair) : sessionIdOf (blanks ++ pair.text.toList) =
      if pair.name = "session_id" then some pair.value else none := by
  rw [sessionIdOf, trim_append hblanks pair.text_head pair.text_last, pair.toList_text,
    splitOnce_append pair.name_plain.1]
  show (if pair.name.toList = "session_id".toList then
    some (String.ofList pair.value.toList) else none) = _
  rw [String.ofList_toList]
  simp only [String.toList_inj]

/-- **The parser undoes the writing** of a header field: it finds the value of the first pair of the
name `session_id`. -/
theorem findSome_cookieField {blanks : List Char} (hblanks : ∀ c ∈ blanks, isWhitespace c = true)
    (pairs : List CookiePair) :
    ((blanks ++ (cookieField pairs).toList).splitOn ';').findSome? sessionIdOf =
      sessionValue pairs := by
  have hsemi : ∀ {bs : List Char}, (∀ c ∈ bs, isWhitespace c = true) → ';' ∉ bs :=
    fun h hmem => absurd (h _ hmem) (by decide)
  induction pairs generalizing blanks with
  | nil =>
      have htrim : trim (blanks ++ []) = [] := trim_append hblanks (by simp) (by simp)
      have hfield : blanks ++ (cookieField []).toList = blanks ++ [] := by simp [cookieField]
      rw [hfield, List.splitOn_eq_singleton (by simpa using hsemi hblanks),
        List.findSome?_singleton, sessionIdOf, htrim]
      rfl
  | cons pair pairs ih =>
      have hnot : ';' ∉ blanks ++ pair.text.toList := by
        rw [List.mem_append, not_or]
        exact ⟨hsemi hblanks, pair.semicolon_notMem_text⟩
      have hvalue : sessionValue (pair :: pairs) =
          (if pair.name = "session_id" then some pair.value else none).or
            (sessionValue pairs) := by
        by_cases h : pair.name = "session_id" <;> simp [sessionValue, h]
      rw [hvalue]
      cases pairs with
      | nil =>
          have hfield : (cookieField [pair]).toList = pair.text.toList := by simp [cookieField]
          rw [hfield, List.splitOn_eq_singleton hnot, List.findSome?_singleton,
            sessionIdOf_text hblanks]
          simp [sessionValue]
      | cons next pairs =>
          have hfield : blanks ++ (cookieField (pair :: next :: pairs)).toList =
              (blanks ++ pair.text.toList) ++
                ';' :: ([' '] ++ (cookieField (next :: pairs)).toList) := by
            simp [cookieField]
          rw [hfield, List.splitOn_append_cons_self_of_not_mem hnot, List.findSome?_cons,
            sessionIdOf_text hblanks, ih (List.forall_mem_singleton.mpr rfl)]
          split_ifs <;> rfl

/-- All characters of a field are visible. -/
theorem cookieField_visible (pairs : List CookiePair) :
    ∀ c ∈ (cookieField pairs).toList, isVisibleChar c = true := by
  induction pairs with
  | nil => simp [cookieField]
  | cons pair pairs ih =>
      intro c hc
      cases pairs with
      | nil => exact pair.text_visible c (by simpa [cookieField] using hc)
      | cons next pairs =>
          have hfield : (cookieField (pair :: next :: pairs)).toList =
              pair.text.toList ++ ';' :: ' ' :: (cookieField (next :: pairs)).toList := by
            simp [cookieField]
          rw [hfield, List.mem_append, List.mem_cons, List.mem_cons] at hc
          rcases hc with hc | rfl | rfl | hc
          · exact pair.text_visible c hc
          · rfl
          · rfl
          · exact ih c hc

/-! ## The key of a request -/

/-- `HeaderValue::to_str` reads visible text. -/
def ReadsVisible (H : HttpCrate) : Prop :=
  ∀ text : String, (∀ c ∈ text.toList, isVisibleChar c = true) → H.toStr (bytes text) = some text

/-- The client's address, where the session has no cookie: the header `x-forwarded-for` decides if
there is one, else `x-real-ip`. -/
def clientIp (H : HttpCrate) (headers : HeaderMap) : Option String :=
  match headers.get "x-forwarded-for" with
  | some value => H.toStr value
  | none => (headers.get "x-real-ip").bind H.toStr

/-- The client's address read in the other way: a header that is no text has no value. -/
def readableIp (H : HttpCrate) (headers : HeaderMap) : Option String :=
  ((headers.get "x-forwarded-for").bind H.toStr).or ((headers.get "x-real-ip").bind H.toStr)

/-- The address is hidden: a header `x-forwarded-for` that is no text stands before an `x-real-ip`
that is one. -/
def HiddenIp (H : HttpCrate) (headers : HeaderMap) : Prop :=
  ∃ value, headers.get "x-forwarded-for" = some value ∧ H.toStr value = none ∧
    ((headers.get "x-real-ip").bind H.toStr).isSome

/-- The two readings agree unless the address is hidden. -/
theorem clientIp_eq_readableIp_iff {H : HttpCrate} {headers : HeaderMap} :
    clientIp H headers = readableIp H headers ↔ ¬ HiddenIp H headers := by
  unfold clientIp readableIp HiddenIp
  cases headers.get "x-forwarded-for" with
  | none => simp
  | some value =>
      cases htext : H.toStr value with
      | some text => simp [htext]
      | none =>
          cases (headers.get "x-real-ip").bind H.toStr <;> simp [htext]

section

variable {H : HttpCrate} {req : Request} {fields : List (List CookiePair)}

/-- **What the code reads**: the first header field of the cookies, then the client's address. -/
theorem extractSessionKey_eq (hread : ReadsVisible H)
    (hfields : req.headers.getAll "cookie" = fields.map fun pairs => bytes (cookieField pairs)) :
    extractSessionKey H req =
      (sessionValue (fields.headD [])).or (clientIp H req.headers) := by
  have hip : (((req.headers.get "x-forwarded-for").or (req.headers.get "x-real-ip")).bind
      H.toStr) = clientIp H req.headers := by
    unfold clientIp
    cases req.headers.get "x-forwarded-for" <;> rfl
  rw [extractSessionKey, hip, HeaderMap.get_eq_head?, hfields]
  cases fields with
  | nil => rfl
  | cons pairs fields =>
      rw [List.map_cons, List.head?_cons, Option.bind_some,
        hread _ (cookieField_visible pairs), Option.bind_some, List.headD_cons]
      congr 1
      exact @findSome_cookieField [] (by simp) pairs

/-- A list has a value exactly when it has a pair of the name. -/
theorem sessionValue_ne_none_iff {pairs : List CookiePair} :
    sessionValue pairs ≠ none ↔ ∃ pair ∈ pairs, pair.name = "session_id" := by
  simp [sessionValue]

/-- The value of all fields is that of the first, or that of the others. -/
theorem sessionValue_flatten (fields : List (List CookiePair)) :
    sessionValue fields.flatten =
      (sessionValue (fields.headD [])).or (sessionValue fields.tail.flatten) := by
  cases fields with
  | nil => rfl
  | cons pairs fields => simp [sessionValue, List.find?_append, Option.map_or]

end

/-- **When the session key is right.** On cookies in any number of header fields, the key is the
value of the first pair of the name `session_id`, or else the client's address, if and only if such
a pair is in the first field, or in none, or has the client's address for its value. Where a header
`x-forwarded-for` that is no text is taken to have no value, the second case asks in addition that
it does not hide an `x-real-ip`. -/
theorem extractSessionKey_correct_iff (H : HttpCrate) (hread : ReadsVisible H)
    (fields : List (List CookiePair)) (req : Request)
    (hfields : req.headers.getAll "cookie" = fields.map fun pairs => bytes (cookieField pairs)) :
    (extractSessionKey H req = (sessionValue fields.flatten).or (clientIp H req.headers) ↔
      (∃ pair ∈ fields.headD [], pair.name = "session_id") ∨
        (∀ pair ∈ fields.flatten, pair.name ≠ "session_id") ∨
        sessionValue fields.flatten = clientIp H req.headers) ∧
    (extractSessionKey H req = (sessionValue fields.flatten).or (readableIp H req.headers) ↔
      (∃ pair ∈ fields.headD [], pair.name = "session_id") ∨
        ((∀ pair ∈ fields.flatten, pair.name ≠ "session_id") ∧ ¬ HiddenIp H req.headers) ∨
        ((∃ pair ∈ fields.flatten, pair.name = "session_id") ∧
          sessionValue fields.flatten = clientIp H req.headers)) := by
  have hnone : (∀ pair ∈ fields.flatten, pair.name ≠ "session_id") ↔
      sessionValue fields.flatten = none := by
    rw [← not_iff_not, ← Ne, sessionValue_ne_none_iff]
    push Not
    rfl
  rw [extractSessionKey_eq hread hfields, hnone, ← sessionValue_ne_none_iff,
    ← sessionValue_ne_none_iff, ← clientIp_eq_readableIp_iff, sessionValue_flatten]
  generalize sessionValue (fields.headD []) = first
  generalize sessionValue fields.tail.flatten = others
  generalize clientIp H req.headers = ip
  cases first with
  | some key => simp
  | none => cases others <;> simp [eq_comm]

/-! ### A crate that reads visible text -/

/-- The list of a byte array, from the loop that builds it. -/
theorem toList_loop (bs : ByteArray) (i : ℕ) (acc : List UInt8) :
    ByteArray.toList.loop bs i acc = acc.reverse ++ bs.data.toList.drop i := by
  induction i, acc using ByteArray.toList.loop.induct bs with
  | case1 i acc h ih =>
      have hi : i < bs.data.toList.length := h
      have hget : bs.get! i = bs.data.toList[i] := getElem!_pos bs.data i h
      rw [ByteArray.toList.loop, if_pos h, ih, List.drop_eq_getElem_cons hi, hget]
      simp
  | case2 i acc h =>
      rw [ByteArray.toList.loop, if_neg h, List.drop_eq_nil_of_le (not_lt.mp h), List.append_nil]

/-- The bytes of a text are those of its characters. -/
theorem bytes_eq (text : String) : bytes text = text.toList.flatMap String.utf8EncodeChar := by
  rw [bytes, ByteArray.toList, toList_loop, String.toUTF8_eq_toByteArray,
    ← String.utf8Encode_toList, List.utf8Encode, List.toList_data_toByteArray]
  rfl

/-- A visible character is one byte, its number. -/
theorem utf8EncodeChar_of_isVisibleChar {c : Char} (h : isVisibleChar c = true) :
    String.utf8EncodeChar c = [c.val.toUInt8] ∧ c.val.toUInt8.toNat = c.toNat := by
  have hlt : c.toNat < 128 := by
    simp only [isVisibleChar, Bool.or_eq_true, Bool.and_eq_true, decide_eq_true_eq] at h
    rcases h with h | rfl
    · omega
    · decide
  refine ⟨String.utf8EncodeChar_eq_singleton (Char.utf8Size_eq_one_iff.mpr ?_), ?_⟩
  · exact UInt32.le_iff_toNat_le.mpr (Nat.le_of_lt_succ hlt)
  · rw [UInt32.toNat_toUInt8]
    exact Nat.mod_eq_of_lt (Nat.lt_trans hlt (by decide))

/-- A byte of a visible character. -/
def isVisibleByte (b : UInt8) : Bool := isVisibleChar (Char.ofNat b.toNat)

/-- The crate with `to_str` as it is: the text of the bytes, if all of them are visible. -/
def readingCrate : HttpCrate :=
  { visibleCrate with
    toStr := fun value =>
      if value.all isVisibleByte then some (String.ofList (value.map fun b => Char.ofNat b.toNat))
      else none }

/-- The crate with `to_str` as it is reads visible text. -/
theorem readingCrate_readsVisible : ReadsVisible readingCrate := by
  intro text htext
  have hbytes : bytes text = text.toList.map fun c => c.val.toUInt8 := by
    rw [bytes_eq, List.map_eq_flatMap]
    exact List.flatMap_congr fun c hc => (utf8EncodeChar_of_isVisibleChar (htext c hc)).1
  have hchar : ∀ c ∈ text.toList, Char.ofNat c.val.toUInt8.toNat = c := fun c hc => by
    rw [(utf8EncodeChar_of_isVisibleChar (htext c hc)).2, Char.ofNat_toNat]
  have hall : (bytes text).all isVisibleByte = true := by
    rw [hbytes, List.all_map, List.all_eq_true]
    intro c hc
    rw [Function.comp, isVisibleByte, hchar c hc]
    exact htext c hc
  have hback : (bytes text).map (fun b => Char.ofNat b.toNat) = text.toList := by
    rw [hbytes, List.map_map]
    exact (List.map_congr_left hchar).trans (List.map_id _)
  show (if (bytes text).all isVisibleByte then _ else none) = _
  rw [if_pos hall, hback, String.ofList_toList]

/-! ### Sessions in one field and in two -/

/-- A preference of the client. -/
def themeCookie : CookiePair where
  name := "theme"
  value := "session_id=dark"
  visible := by decide
  name_ne := by decide
  name_plain := by decide
  name_head := by decide
  name_last := by decide
  value_plain := by decide
  value_last := by decide

/-- The session of the client. -/
def sessionCookie : CookiePair where
  name := "session_id"
  value := "a=b"
  visible := by decide
  name_ne := by decide
  name_plain := by decide
  name_head := by decide
  name_last := by decide
  value_plain := by decide
  value_last := by decide

/-- A request with cookies in header fields, through a proxy that names the client. -/
def cookieRequest (fields : List (List CookiePair)) : Request :=
  ⟨⟨none, none, some "/"⟩,
    ⟨("x-real-ip", bytes "10.1.0.1") ::
      fields.map fun pairs => ("cookie", bytes (cookieField pairs))⟩, []⟩

/-- The cookie fields of the request are the given ones. -/
theorem getAll_cookieRequest (fields : List (List CookiePair)) :
    (cookieRequest fields).headers.getAll "cookie" =
      fields.map fun pairs => bytes (cookieField pairs) := by
  simp [cookieRequest, HeaderMap.getAll, List.filter_map, Function.comp_def]

/-- The request is from the client that the proxy names. -/
theorem clientIp_cookieRequest (fields : List (List CookiePair)) :
    clientIp readingCrate (cookieRequest fields).headers = some "10.1.0.1" := by
  have hforwarded : (cookieRequest fields).headers.get "x-forwarded-for" = none := by
    simp [cookieRequest, HeaderMap.get_eq_head?, HeaderMap.getAll]
  have hreal : (cookieRequest fields).headers.get "x-real-ip" = some (bytes "10.1.0.1") := rfl
  rw [clientIp, hforwarded, hreal]
  exact readingCrate_readsVisible _ (List.all_eq_true.mp (by decide))

/-- The session in the first of two fields, behind a pair that mentions it in its value. -/
theorem extractSessionKey_correct_iff_firstField :
    extractSessionKey readingCrate (cookieRequest [[themeCookie, sessionCookie], [themeCookie]]) =
      some "a=b" :=
  ((extractSessionKey_correct_iff readingCrate readingCrate_readsVisible
    [[themeCookie, sessionCookie], [themeCookie]] _ (getAll_cookieRequest _)).1.mpr
      (Or.inl ⟨sessionCookie, by simp, rfl⟩)).trans rfl

/-- The session in the second of two fields: the key is the client's address. -/
theorem secondField_unread :
    sessionValue [[themeCookie], [sessionCookie]].flatten = some "a=b" ∧
      (cookieRequest [[themeCookie], [sessionCookie]]).headers.getAll "cookie" =
        [bytes "theme=session_id=dark", bytes "session_id=a=b"] ∧
      extractSessionKey readingCrate (cookieRequest [[themeCookie], [sessionCookie]]) =
        some "10.1.0.1" := by
  refine ⟨rfl, ?_, ?_⟩
  · rw [getAll_cookieRequest]
    rfl
  · rw [extractSessionKey_eq readingCrate_readsVisible (getAll_cookieRequest _),
      clientIp_cookieRequest]
    rfl

end HarbrRouter.Proxy.Http
