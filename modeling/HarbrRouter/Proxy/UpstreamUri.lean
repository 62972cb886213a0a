import HarbrRouter.Proxy.HttpMessage
import Mathlib.Data.List.TakeWhile
import Mathlib.Tactic.Common

/-!
# The URI sent upstream

`HttpProxy::build_upstream_uri` writes a scheme, the authority of the upstream and the path and
query of the request one after the other, and parses the text again. The authority then ends where
the path begins: at a slash or a question mark. The asterisk of `OPTIONS *` is neither.

**Theorem** (`buildUpstreamUri_keeps_iff`): the URI that is sent has the authority of the upstream
and the path and query of the request if and only if the target is not the asterisk, or the text
with it is too long for the parser. The second parse is given the text that is put together
(`buildUpstreamUri_ok_iff`). Every target but the asterisk begins with a character that ends an
authority (`pathAndQuery_cases`), so the text splits where it was put together
(`authorityOf_append`, `pathOf_append`); an asterisk becomes part of the authority
(`authorityOf_asterisk`).

What is used of the parser of the crate is `UriParsing`, and `splitCrate` is a parser that is so.
-/

set_option autoImplicit false

namespace HarbrRouter.Proxy.Http

/-! ## What is used of the parser -/

/-- The characters that end an authority. -/
def endsAuthority (c : Char) : Bool := c = '/' || c = '?' || c = '#'

/-- The authority at the beginning of what follows the scheme. -/
def authorityOf (rest : List Char) : List Char := rest.takeWhile fun c => !endsAuthority c

/-- The path and query of what follows the scheme: without the fragment, and a slash if it is empty.
-/
def pathOf (rest : List Char) : List Char :=
  match (rest.dropWhile fun c => !endsAuthority c).takeWhile (· ≠ '#') with
  | [] => ['/']
  | path => path

/-- `MAX_LEN` of `Uri`, in bytes. -/
def maxUriLen : ℕ := 65534

/-- The schemes that are written: the default, and those which the parser reports. -/
def HttpCrate.IsScheme (H : HttpCrate) (scheme : String) : Prop :=
  scheme = "http" ∨ ∃ text uri, H.parseUri text = .ok uri ∧ uri.scheme = some scheme

/-- What is documented of `str::parse::<Uri>`. -/
structure UriParsing (H : HttpCrate) : Prop where
  /-- An absolute URI is split after its scheme. -/
  absolute : ∀ scheme rest uri, H.IsScheme scheme → H.parseUri (scheme ++ "://" ++ rest) = .ok uri →
    uri.authority = some (String.ofList (authorityOf rest.toList)) ∧
      uri.pathAndQuery = some (String.ofList (pathOf rest.toList))
  /-- No character that ends an authority is in one. -/
  authority : ∀ text uri authority, H.parseUri text = .ok uri → uri.authority = some authority →
    ∀ c ∈ authority.toList, ¬ endsAuthority c
  /-- A path begins with a slash, or it is empty and the query with its mark follows. The fragment
  is not part of it. -/
  path : ∀ text uri path, text ≠ "*" → H.parseUri text = .ok uri → uri.pathAndQuery = some path →
    (∃ cs, path.toList = '/' :: cs ∨ path.toList = '?' :: cs) ∧ '#' ∉ path.toList
  /-- The form of the target which is no path. -/
  asterisk : ∃ uri, H.parseUri "*" = .ok uri ∧ uri.pathAndQuery = some "*"
  /-- An asterisk may stand in an authority. -/
  accepts : ∀ scheme text uri authority, H.IsScheme scheme → H.parseUri text = .ok uri →
    uri.authority = some authority →
    (scheme ++ "://" ++ authority ++ "*").utf8ByteSize ≤ maxUriLen →
    ∃ uri', H.parseUri (scheme ++ "://" ++ authority ++ "*") = .ok uri'
  /-- A text that is too long is refused. -/
  tooLong : ∀ text, maxUriLen < text.utf8ByteSize → ∃ e, H.parseUri text = .error e

/-! ## The text splits where it was put together -/

/-- What follows an authority does not change it, if a character that ends it comes first. -/
theorem authorityOf_append {authority : List Char} {c : Char} (cs : List Char)
    (hauthority : ∀ c ∈ authority, ¬ endsAuthority c) (hc : endsAuthority c = true) :
    authorityOf (authority ++ c :: cs) = authority := by
  unfold authorityOf
  rw [List.takeWhile_append_of_pos fun c hc => by simpa using hauthority c hc]
  simp [hc]

/-- The path begins where the authority ends. -/
theorem pathOf_append {authority : List Char} {c : Char} {cs : List Char}
    (hauthority : ∀ c ∈ authority, ¬ endsAuthority c) (hc : endsAuthority c = true)
    (hfragment : '#' ∉ c :: cs) : pathOf (authority ++ c :: cs) = c :: cs := by
  have hpath : ((authority ++ c :: cs).dropWhile fun c => !endsAuthority c) = c :: cs := by
    rw [List.dropWhile_append_of_pos fun c hc => by simpa using hauthority c hc]
    simp [hc]
  have hall : (c :: cs).takeWhile (· ≠ '#') = c :: cs := by
    rw [List.takeWhile_eq_self_iff]
    intro d hd
    simpa using fun h : d = '#' => hfragment (h ▸ hd)
  unfold pathOf
  rw [hpath, hall]

/-- An asterisk that follows an authority becomes part of it. -/
theorem authorityOf_asterisk {authority : List Char}
    (hauthority : ∀ c ∈ authority, ¬ endsAuthority c) :
    authorityOf (authority ++ ['*']) = authority ++ ['*'] := by
  unfold authorityOf
  rw [List.takeWhile_eq_self_iff]
  intro c hc
  rcases List.mem_append.mp hc with hc | hc
  · simpa using hauthority c hc
  · obtain rfl := List.mem_singleton.mp hc
    rfl

/-! ## The two parses -/

section build

variable {H : HttpCrate} {upstream : UpstreamConfig} {original base : Uri} {authority : String}

/-- Where the address of the upstream has an authority, the URI is what the parser reports of the
text that is made of it. -/
theorem buildUpstreamUri_ok_iff (hbase : H.parseUri upstream.address = .ok base)
    (hauthority : base.authority = some authority) {uri : Uri} :
    buildUpstreamUri H upstream original = .ok uri ↔
      H.parseUri (base.scheme.getD "http" ++ "://" ++
        (authority ++ original.pathAndQuery.getD "/")) = .ok uri := by
  unfold buildUpstreamUri
  rw [hbase]
  simp only [hauthority, Option.getD_some, String.append_assoc]
  split
  · next e he => simp [he]
  · next uri' huri' => simp [huri']

/-- The scheme that is written into the URI is one. -/
theorem isScheme_base (hbase : H.parseUri upstream.address = .ok base) :
    H.IsScheme (base.scheme.getD "http") := by
  rcases hscheme : base.scheme with _ | scheme
  · exact Or.inl rfl
  · exact Or.inr ⟨_, base, hbase, hscheme⟩

variable {target : String}

/-- Every target but the asterisk is appended as a path and query. -/
theorem pathAndQuery_cases (hH : UriParsing H) (htarget : H.parseUri target = .ok original)
    (hne : target ≠ "*") :
    ∃ c cs, (original.pathAndQuery.getD "/").toList = c :: cs ∧ endsAuthority c = true ∧
      '#' ∉ c :: cs := by
  rcases hpath : original.pathAndQuery with _ | path
  · exact ⟨'/', [], by decide, rfl, by decide⟩
  · obtain ⟨⟨cs, hcs | hcs⟩, hfragment⟩ := hH.path target original path hne htarget hpath
    · exact ⟨'/', cs, hcs, rfl, hcs ▸ hfragment⟩
    · exact ⟨'?', cs, hcs, rfl, hcs ▸ hfragment⟩

/-- The authority and the path of the URI are those it was put together of. -/
theorem buildUpstreamUri_keeps (hH : UriParsing H) (htarget : H.parseUri target = .ok original)
    (hbase : H.parseUri upstream.address = .ok base) (hauthority : base.authority = some authority)
    (hne : target ≠ "*") {uri : Uri} (h : buildUpstreamUri H upstream original = .ok uri) :
    uri.authority = some authority ∧
      uri.pathAndQuery = some (original.pathAndQuery.getD "/") := by
  rw [buildUpstreamUri_ok_iff hbase hauthority] at h
  obtain ⟨c, cs, hpath, hc, hfragment⟩ := pathAndQuery_cases hH htarget hne
  have hchars := hH.authority _ _ _ hbase hauthority
  obtain ⟨ha, hp⟩ := hH.absolute _ _ _ (isScheme_base hbase) h
  rw [String.toList_append, hpath] at ha hp
  rw [authorityOf_append cs hchars hc, String.ofList_toList] at ha
  rw [pathOf_append hchars hc hfragment, ← hpath, String.ofList_toList] at hp
  exact ⟨ha, hp⟩

/-- **The host of a request.** The URI that is sent upstream has the authority of the upstream and
the path and query of the request, if and only if the target is not the asterisk, or the text with
the asterisk after the authority is too long for the parser. -/
theorem buildUpstreamUri_keeps_iff (hH : UriParsing H)
    (htarget : H.parseUri target = .ok original) (hbase : H.parseUri upstream.address = .ok base)
    (hauthority : base.authority = some authority) :
    (∀ uri, buildUpstreamUri H upstream original = .ok uri → uri.authority = some authority ∧
      uri.pathAndQuery = some (original.pathAndQuery.getD "/")) ↔
      target ≠ "*" ∨
        maxUriLen < (base.scheme.getD "http" ++ "://" ++ authority ++ "*").utf8ByteSize := by
  constructor
  · intro h
    by_contra hcond
    push Not at hcond
    obtain ⟨rfl, hlen⟩ := hcond
    -- the asterisk follows the authority, and is read as part of it
    obtain ⟨uri, huri⟩ := hH.accepts _ _ _ _ (isScheme_base hbase) hbase hauthority hlen
    obtain ⟨original', horiginal', hstar⟩ := hH.asterisk
    obtain rfl : original' = original := by simpa [horiginal'] using htarget
    rw [String.append_assoc] at huri
    have hok : buildUpstreamUri H upstream original' = .ok uri := by
      rw [buildUpstreamUri_ok_iff hbase hauthority, hstar]
      exact huri
    obtain ⟨ha, -⟩ := hH.absolute _ _ _ (isScheme_base hbase) huri
    have hchars := hH.authority _ _ _ hbase hauthority
    rw [String.toList_append, show ("*" : String).toList = ['*'] from rfl,
      authorityOf_asterisk hchars, (h uri hok).1] at ha
    have hlength := congrArg String.length (Option.some.inj ha)
    simp at hlength
  · rintro (hne | hlen) uri huri
    · exact buildUpstreamUri_keeps hH htarget hbase hauthority hne huri
    · by_cases hne : target = "*"
      · subst hne
        obtain ⟨original', horiginal', hstar⟩ := hH.asterisk
        obtain rfl : original' = original := by simpa [horiginal'] using htarget
        obtain ⟨e, he⟩ := hH.tooLong _ hlen
        rw [buildUpstreamUri_ok_iff hbase hauthority, hstar, Option.getD_some,
          ← String.append_assoc, he] at huri
        exact absurd huri (by simp)
      · exact buildUpstreamUri_keeps hH htarget hbase hauthority hne huri

end build

/-! ## A parser that splits as the crate does -/

/-- The characters of a scheme. -/
def isSchemeChar (c : Char) : Bool := c.isAlphanum || ['+', '-', '.', '~'].contains c

/-- The parser without its tables: where the parts end, and not which characters are in them. -/
def splitUri (text : String) : Except String Uri :=
  if maxUriLen < text.utf8ByteSize then .error "uri too long"
  else if text = "*" then .ok ⟨none, none, some "*"⟩
  else
    match text.toList with
    | [] => .error "empty string"
    | '/' :: cs => .ok ⟨none, none, some (String.ofList (pathOf ('/' :: cs)))⟩
    | cs =>
        match cs.dropWhile isSchemeChar with
        | ':' :: '/' :: '/' :: rest =>
            if authorityOf rest = [] then .error "invalid format"
            else .ok ⟨some (String.ofList (cs.takeWhile isSchemeChar)),
              some (String.ofList (authorityOf rest)), some (String.ofList (pathOf rest))⟩
        | _ =>
            if authorityOf cs = cs then .ok ⟨none, some (String.ofList cs), none⟩
            else .error "invalid format"

/-- The functions of the crate, with this parser. -/
def splitCrate : HttpCrate where
  fromBytes := .ok
  fromStr value := .ok (bytes value)
  toStr _ := none
  parseUri := splitUri

/-- The four forms of a URI that is accepted. -/
inductive SplitUri : List Char → Uri → Prop
  | asterisk : SplitUri ['*'] ⟨none, none, some "*"⟩
  | origin (cs) :
      SplitUri ('/' :: cs) ⟨none, none, some (String.ofList (pathOf ('/' :: cs)))⟩
  | absolute {scheme} (rest) (hscheme : ∀ c ∈ scheme, isSchemeChar c)
      (hrest : authorityOf rest ≠ []) :
      SplitUri (scheme ++ ':' :: '/' :: '/' :: rest) ⟨some (String.ofList scheme),
        some (String.ofList (authorityOf rest)), some (String.ofList (pathOf rest))⟩
  | authority {cs} (hcs : authorityOf cs = cs) :
      SplitUri cs ⟨none, some (String.ofList cs), none⟩

/-- A text that is accepted has one of the four forms. -/
theorem splitUri_ok {text : String} {uri : Uri} (h : splitUri text = .ok uri) :
    SplitUri text.toList uri := by
  unfold splitUri at h
  split_ifs at h with hlen hstar
  · obtain rfl := Except.ok.inj h
    rw [hstar]
    exact .asterisk
  split at h
  · simp at h
  · next cs hcs =>
      obtain rfl := Except.ok.inj h
      rw [hcs]
      exact .origin cs
  · split at h
    · next rest hrest =>
        split_ifs at h with hempty
        obtain rfl := Except.ok.inj h
        have hsplit := List.takeWhile_append_dropWhile (p := isSchemeChar) (l := text.toList)
        rw [hrest] at hsplit
        have hscheme : ∀ c ∈ text.toList.takeWhile isSchemeChar, isSchemeChar c :=
          fun c hc => List.mem_takeWhile_imp hc
        have hform := SplitUri.absolute rest hscheme hempty
        rwa [hsplit] at hform
    · split_ifs at h with hcs
      obtain rfl := Except.ok.inj h
      exact .authority hcs

/-- The characters before the first colon of an absolute URI are its scheme. -/
theorem scheme_unique {scheme scheme' rest rest' : List Char}
    (hscheme : ∀ c ∈ scheme, isSchemeChar c) (hscheme' : ∀ c ∈ scheme', isSchemeChar c)
    (h : scheme ++ ':' :: rest = scheme' ++ ':' :: rest') : scheme = scheme' ∧ rest = rest' := by
  have hcolon : isSchemeChar ':' = false := by decide
  have htake := congrArg (List.takeWhile isSchemeChar) h
  have hdrop := congrArg (List.dropWhile isSchemeChar) h
  rw [List.takeWhile_append_of_pos hscheme, List.takeWhile_append_of_pos hscheme'] at htake
  rw [List.dropWhile_append_of_pos hscheme, List.dropWhile_append_of_pos hscheme'] at hdrop
  simp only [List.takeWhile_cons, List.dropWhile_cons, hcolon] at htake hdrop
  exact ⟨by simpa using htake, by simpa using hdrop⟩

/-- A text with a scheme is accepted in the absolute form only. -/
theorem SplitUri.of_scheme {scheme rest : List Char} {uri : Uri}
    (hscheme : ∀ c ∈ scheme, isSchemeChar c)
    (h : SplitUri (scheme ++ ':' :: '/' :: '/' :: rest) uri) :
    uri.authority = some (String.ofList (authorityOf rest)) ∧
      uri.pathAndQuery = some (String.ofList (pathOf rest)) := by
  generalize htext : scheme ++ ':' :: '/' :: '/' :: rest = text at h
  cases h with
  | asterisk =>
      have hlength := congrArg List.length htext
      simp only [List.length_append, List.length_cons, List.length_nil] at hlength
      omega
  | origin cs =>
      cases scheme with
      | nil => simp at htext
      | cons c scheme =>
          obtain ⟨rfl, -⟩ := List.cons.inj htext
          exact absurd (hscheme '/' List.mem_cons_self) (by decide)
  | absolute rest' hscheme' _ =>
      obtain ⟨-, hrest⟩ := scheme_unique hscheme hscheme' htext
      obtain rfl : rest = rest' := by simpa using hrest
      exact ⟨rfl, rfl⟩
  | authority hcs =>
      have hmem : '/' ∈ text := by simp [← htext]
      rw [← hcs] at hmem
      exact absurd (List.mem_takeWhile_imp hmem) (by decide)

/-- A text with a scheme and an authority is accepted if it is not too long. -/
theorem splitUri_absolute {text : String} {scheme rest : List Char}
    (htext : text.toList = scheme ++ ':' :: '/' :: '/' :: rest)
    (hscheme : ∀ c ∈ scheme, isSchemeChar c) (hrest : authorityOf rest ≠ [])
    (hlen : text.utf8ByteSize ≤ maxUriLen) : ∃ uri, splitUri text = .ok uri := by
  have hstar : text ≠ "*" := by
    rintro rfl
    have hlength := congrArg List.length htext
    simp at hlength
    omega
  unfold splitUri
  rw [if_neg (by omega), if_neg hstar]
  split
  · next hnil => simp [hnil] at htext
  · exact ⟨_, rfl⟩
  · have hdrop : text.toList.dropWhile isSchemeChar = ':' :: '/' :: '/' :: rest := by
      rw [htext, List.dropWhile_append_of_pos hscheme]
      rfl
    rw [hdrop]
    simp only [hrest, if_false]
    exact ⟨_, rfl⟩

/-- The schemes of this parser have its characters. -/
theorem isSchemeChar_of_isScheme {scheme : String} (h : splitCrate.IsScheme scheme) :
    ∀ c ∈ scheme.toList, isSchemeChar c := by
  rcases h with rfl | ⟨text, uri, hparse, hscheme⟩
  · exact List.all_eq_true.mp (by decide)
  · have hform := splitUri_ok hparse
    generalize text.toList = cs at hform
    cases hform with
    | asterisk | origin | authority => simp at hscheme
    | absolute rest hchars _ =>
        obtain rfl := Option.some.inj hscheme
        simpa using hchars

/-- No character that ends an authority is in one. -/
theorem not_endsAuthority {rest : List Char} {c : Char} (hc : c ∈ authorityOf rest) :
    ¬ endsAuthority c := by
  simpa using List.mem_takeWhile_imp hc

/-- The authorities of this parser have no character that ends one. -/
theorem SplitUri.not_endsAuthority {cs : List Char} {uri : Uri} {authority : String}
    (h : SplitUri cs uri) (hauthority : uri.authority = some authority) :
    ∀ c ∈ authority.toList, ¬ endsAuthority c := by
  cases h with
  | asterisk | origin => simp at hauthority
  | absolute rest _ _ =>
      obtain rfl := Option.some.inj hauthority
      intro c hc
      exact Http.not_endsAuthority (by simpa using hc)
  | authority hcs =>
      obtain rfl := Option.some.inj hauthority
      intro c hc
      rw [String.toList_ofList, ← hcs] at hc
      exact Http.not_endsAuthority hc

/-- A path is a slash, or it begins where the authority ends and has no fragment. -/
theorem pathOf_spec (rest : List Char) :
    (∃ cs, pathOf rest = '/' :: cs ∨ pathOf rest = '?' :: cs) ∧ '#' ∉ pathOf rest := by
  unfold pathOf
  split
  · exact ⟨⟨[], Or.inl rfl⟩, by decide⟩
  · next hne =>
      constructor
      · rcases hdrop : rest.dropWhile fun c => !endsAuthority c with _ | ⟨c, cs⟩
        · simp [hdrop] at hne
        · have hc : endsAuthority c = true := by
            have hhead := List.head_dropWhile_not (fun c => !endsAuthority c)
              (show rest.dropWhile (fun c => !endsAuthority c) ≠ [] by simp [hdrop])
            simpa [hdrop] using hhead
          rw [hdrop] at hne
          by_cases hfragment : c = '#'
          · simp [hfragment] at hne
          · refine ⟨cs.takeWhile (· ≠ '#'), ?_⟩
            simpa [endsAuthority, hfragment] using hc
      · intro hmem
        exact absurd (List.mem_takeWhile_imp hmem) (by decide)

/-- The parser that splits at the characters of the grammar does what is documented of the crate. -/
theorem splitCrate_uriParsing : UriParsing splitCrate where
  absolute scheme rest uri hscheme h := by
    have hform := splitUri_ok h
    rw [String.toList_append, String.toList_append, List.append_assoc] at hform
    exact hform.of_scheme (isSchemeChar_of_isScheme hscheme)
  authority text uri authority h hauthority := (splitUri_ok h).not_endsAuthority hauthority
  path text uri path hne h hpath := by
    have hform := splitUri_ok h
    generalize htext : text.toList = cs at hform
    cases hform with
    | asterisk => exact absurd (String.toList_injective htext) hne
    | origin | absolute =>
        obtain rfl := Option.some.inj hpath
        rw [String.toList_ofList]
        exact pathOf_spec _
    | authority => simp at hpath
  asterisk := ⟨⟨none, none, some "*"⟩, by decide +kernel, rfl⟩
  accepts scheme text uri authority hscheme h hauthority hlen := by
    have htext : (scheme ++ "://" ++ authority ++ "*").toList =
        scheme.toList ++ ':' :: '/' :: '/' :: (authority.toList ++ ['*']) := by simp
    refine splitUri_absolute htext (isSchemeChar_of_isScheme hscheme) ?_ hlen
    rw [authorityOf_asterisk ((splitUri_ok h).not_endsAuthority hauthority)]
    simp
  tooLong text hlen := ⟨"uri too long", by simp [splitCrate, splitUri, hlen]⟩

/-- An upstream with the address of a socket. -/
def uriUpstream : UpstreamConfig := ⟨"web", "10.0.0.1:8080", 1, 0, 1000⟩

/-- `OPTIONS *` is sent to a host that is not the upstream's. -/
theorem asterisk_joins_authority : UriParsing splitCrate ∧
    splitCrate.parseUri "*" = .ok ⟨none, none, some "*"⟩ ∧
    splitCrate.parseUri uriUpstream.address = .ok ⟨none, some "10.0.0.1:8080", none⟩ ∧
    buildUpstreamUri splitCrate uriUpstream ⟨none, none, some "*"⟩ =
      .ok ⟨some "http", some "10.0.0.1:8080*", some "/"⟩ :=
  ⟨splitCrate_uriParsing, by decide +kernel, by decide +kernel, by decide +kernel⟩

/-- A target with a query is sent to the upstream. -/
theorem buildUpstreamUri_keeps_query : ∃ uri,
    buildUpstreamUri splitCrate uriUpstream ⟨none, none, some "/orders?open=1"⟩ = .ok uri ∧
      uri.authority = some "10.0.0.1:8080" ∧ uri.pathAndQuery = some "/orders?open=1" := by
  have htarget : splitCrate.parseUri "/orders?open=1" =
      .ok ⟨none, none, some "/orders?open=1"⟩ := by decide +kernel
  have haddress : splitCrate.parseUri uriUpstream.address =
      .ok ⟨none, some "10.0.0.1:8080", none⟩ := by decide +kernel
  have hbuilt : buildUpstreamUri splitCrate uriUpstream ⟨none, none, some "/orders?open=1"⟩ =
      .ok ⟨some "http", some "10.0.0.1:8080", some "/orders?open=1"⟩ := by decide +kernel
  have hkeeps := buildUpstreamUri_keeps_iff splitCrate_uriParsing htarget haddress rfl
  exact ⟨_, hbuilt, hkeeps.mpr (Or.inl (by decide)) _ hbuilt⟩

end HarbrRouter.Proxy.Http
