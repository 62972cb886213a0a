import HarbrRouter.Config

/-!
# HTTP messages

`proxy/http.rs`, the functions on requests and responses: the session key, the upstream's URI, the
header transformations and the error response. What they use of the `http` crate stands as the
parameter `HttpCrate`; its `HeaderMap` is a list of entries with names in their normal form.
-/

set_option autoImplicit false

namespace HarbrRouter.Proxy.Http

/-! ## The types of the `http` crate -/

/-- The value of a header: any bytes. -/
abbrev HeaderValue := List UInt8

/-- The headers of a message. Several entries may have one name; they keep their order. -/
structure HeaderMap where
  entries : List (String × HeaderValue)
deriving DecidableEq, Repr

namespace HeaderMap

/-- `HeaderMap::get`: the first value of the name. -/
def get (self : HeaderMap) (name : String) : Option HeaderValue := self.entries.lookup name

/-- `HeaderMap::get_all`: the values of the name, in order. -/
def getAll (self : HeaderMap) (name : String) : List HeaderValue :=
  (self.entries.filter fun entry => entry.1 = name).map Prod.snd

/-- `HeaderMap::remove`: all values of the name go. -/
def remove (self : HeaderMap) (name : String) : HeaderMap :=
  ⟨self.entries.filter fun entry => entry.1 ≠ name⟩

/-- `HeaderMap::insert`: the value takes the place of all values of the name. -/
def insert (self : HeaderMap) (name : String) (value : HeaderValue) : HeaderMap :=
  ⟨(self.remove name).entries ++ [(name, value)]⟩

/-- The first value is the first of all. -/
theorem get_eq_head? (self : HeaderMap) (name : String) :
    self.get name = (self.getAll name).head? := by
  obtain ⟨entries⟩ := self
  simp only [get, getAll]
  induction entries with
  | nil => rfl
  | cons entry entries ih =>
      obtain ⟨entryName, value⟩ := entry
      rw [List.lookup_cons]
      by_cases h : entryName = name
      · subst h
        simp
      · have hne : (name == entryName) = false := by simpa using Ne.symm h
        rw [hne, List.filter_cons_of_neg (by simpa using h)]
        exact ih

/-- A removal takes the values of one name. -/
theorem getAll_remove (self : HeaderMap) (name name' : String) :
    (self.remove name).getAll name' = if name' = name then [] else self.getAll name' := by
  simp only [getAll, remove, List.filter_filter]
  split_ifs with h
  · subst h
    simp
  · congr 1
    refine List.filter_congr fun entry _ => ?_
    by_cases hentry : entry.1 = name' <;> simp [hentry, h]

/-- An insertion leaves one value of its name, and the other names alone. -/
theorem getAll_insert (self : HeaderMap) (name : String) (value : HeaderValue) (name' : String) :
    (self.insert name value).getAll name' =
      if name' = name then [value] else self.getAll name' := by
  have happend : (self.insert name value).getAll name' =
      (self.remove name).getAll name' ++ if name = name' then [value] else [] := by
    by_cases h : name = name' <;> simp [insert, getAll, h]
  rw [happend, getAll_remove]
  by_cases h : name' = name
  · simp [h]
  · simp [h, Ne.symm h]

end HeaderMap

/-- A parsed URI, as its parts. -/
structure Uri where
  scheme : Option String
  authority : Option String
  pathAndQuery : Option String
deriving DecidableEq, Repr

/-- The functions of the `http` crate; a failure is the text of its error. -/
structure HttpCrate where
  /-- `HeaderName::from_bytes`: the name in its normal form. -/
  fromBytes : String → Except String String
  /-- `HeaderValue::from_str` -/
  fromStr : String → Except String HeaderValue
  /-- `HeaderValue::to_str` -/
  toStr : HeaderValue → Option String
  /-- `str::parse::<Uri>` -/
  parseUri : String → Except String Uri

/-- A request. -/
structure Request where
  uri : Uri
  headers : HeaderMap
  body : List UInt8
deriving DecidableEq, Repr

/-- A response. -/
structure Response where
  status : ℕ
  headers : HeaderMap
  body : List UInt8
deriving DecidableEq, Repr

/-- The bytes of a text. -/
def bytes (text : String) : List UInt8 := text.toUTF8.toList

/-! ## The session key -/

/-- The property `White_Space`, which `str::trim` removes on both sides. -/
def isWhitespace (c : Char) : Bool :=
  let n := c.toNat
  (9 ≤ n && n ≤ 13) || (0x2000 ≤ n && n ≤ 0x200a) ||
    [0x20, 0x85, 0xa0, 0x1680, 0x2028, 0x2029, 0x202f, 0x205f, 0x3000].contains n

/-- `str::trim` -/
def trim (cs : List Char) : List Char :=
  ((cs.dropWhile isWhitespace).reverse.dropWhile isWhitespace).reverse

/-- `splitn(2, sep)`: the part before the first separator and the part after it, if there is one. -/
def splitOnce (sep : Char) (cs : List Char) : List Char × Option (List Char) :=
  match cs.dropWhile (· ≠ sep) with
  | [] => (cs, none)
  | _ :: rest => (cs.takeWhile (· ≠ sep), some rest)

/-- The value of a cookie with the name `session_id`.
Source: `proxy/http.rs`, `HttpProxy::extract_session_key` -/
def sessionIdOf (cookie : List Char) : Option String :=
  match splitOnce '=' (trim cookie) with
  | (name, some value) => if name = "session_id".toList then some (String.ofList value) else none
  | (_, none) => none

section messages

variable (H : HttpCrate)

/-- Source: `proxy/http.rs`, `HttpProxy::extract_session_key` -/
def extractSessionKey (req : Request) : Option String :=
  (((req.headers.get "cookie").bind H.toStr).bind fun cookies =>
    (cookies.toList.splitOn ';').findSome? sessionIdOf).or
  (((req.headers.get "x-forwarded-for").or (req.headers.get "x-real-ip")).bind H.toStr)

/-! ## The upstream's URI -/

/-- Source: `proxy/http.rs`, `HttpProxy::build_upstream_uri` -/
def buildUpstreamUri (upstream : UpstreamConfig) (originalUri : Uri) : Result Uri :=
  match H.parseUri upstream.address with
  | .error e => .error (.config ("Invalid upstream address: " ++ e))
  | .ok upstreamBase =>
      let pathAndQuery := originalUri.pathAndQuery.getD "/"
      let upstreamUri := upstreamBase.scheme.getD "http" ++ "://" ++
        upstreamBase.authority.getD upstream.address ++ pathAndQuery
      match H.parseUri upstreamUri with
      | .error e => .error (.internal ("Failed to build upstream URI: " ++ e))
      | .ok uri => .ok uri

/-! ## Transformations -/

/-- The first loop. Source: `proxy/http.rs`, `HttpProxy::transform_request` -/
def addHeaders (headers : HeaderMap) : List (String × String) → Result HeaderMap
  | [] => .ok headers
  | (name, value) :: rest =>
      match H.fromBytes name with
      | .error e => .error (.config ("Invalid header name '" ++ name ++ "': " ++ e))
      | .ok headerName =>
          match H.fromStr value with
          | .error e => .error (.config ("Invalid header value '" ++ value ++ "': " ++ e))
          | .ok headerValue => addHeaders (headers.insert headerName headerValue) rest

/-- The second loop. Source: `proxy/http.rs`, `HttpProxy::transform_request` -/
def removeHeaders (headers : HeaderMap) : List String → Result HeaderMap
  | [] => .ok headers
  | name :: rest =>
      match H.fromBytes name with
      | .error e => .error (.config ("Invalid header name '" ++ name ++ "': " ++ e))
      | .ok headerName => removeHeaders (headers.remove headerName) rest

/-- Source: `proxy/http.rs`, `HttpProxy::transform_request` -/
def transformRequest (req : Request) (config : HttpProxyConfig) : Result Request :=
  match addHeaders H req.headers config.addHeaders with
  | .error e => .error e
  | .ok headers =>
      match removeHeaders H headers config.removeHeaders with
      | .error e => .error e
      | .ok headers => .ok { req with headers }

end messages

/-- Source: `proxy/http.rs`, `HttpProxy::transform_response` -/
def transformResponse (response : Response) : Response :=
  { response with headers := response.headers.insert "x-proxy-server" (bytes "Harbr-Router") }

/-- Source: `proxy/http.rs`, `HttpProxy::estimate_body_size` -/
def estimateBodySize (_body : List UInt8) : ℕ := 0

/-- Source: `proxy/http.rs`, `HttpProxy::create_error_response` -/
def createErrorResponse (status : ℕ) (message : String) : Response :=
  ⟨status, ⟨[("content-type", bytes "text/plain")]⟩, bytes message⟩

end HarbrRouter.Proxy.Http
