import Mathlib.Algebra.Ring.Nat
import Mathlib.Data.Int.Notation
import Mathlib.Data.Nat.Notation
import Mathlib.Tactic.Common

/-!
# Errors, machine words and socket addresses

`Error` is `error.rs`: the five families with their texts, and the constructors the code uses
(`Error.config`, `Error.network`, …). `Result` is its `Result` alias.

`wrappingAdd` and `wrappingSub` are the `u64`/`usize` operations of the atomics (`fetch_add` and
`fetch_sub` wrap around; the release profile wraps elsewhere too). Counters are naturals below `2 ^
64`. `SocketAddr` is the standard library's address, with the text its `Display` prints.
-/

set_option autoImplicit false

namespace HarbrRouter

/-! ## Errors -/

/-- Network error categories. Source: `error.rs`, `NetworkErrorKind` -/
inductive NetworkErrorKind where
  | connectionFailed
  | timeout
  | dnsResolution
  | tls
  | protocol
deriving DecidableEq, Repr

/-- The error type of the crate. Source: `error.rs`, `Error` -/
inductive Error where
  | Config (message : String) (source : Option String)
  | Network (message : String) (kind : NetworkErrorKind)
  | Proxy (message proxyType instanceName : String)
  | Resource (message resourceType : String)
  | Internal (message : String) (context : Option String)
deriving DecidableEq, Repr

namespace Error

/-- A configuration error without a source. Source: `error.rs`, `Error::config` -/
def config (message : String) : Error := .Config message none

/-- A configuration error with its source. Source: `error.rs`, `Error::config_with_source` -/
def configWithSource (message source : String) : Error := .Config message (some source)

/-- A network error. Source: `error.rs`, `Error::network` -/
def network (message : String) (kind : NetworkErrorKind) : Error := .Network message kind

/-- A proxy error. Source: `error.rs`, `Error::proxy` -/
def proxy (message proxyType instanceName : String) : Error :=
  .Proxy message proxyType instanceName

/-- An internal error without a context. Source: `error.rs`, `Error::internal` -/
def internal (message : String) : Error := .Internal message none

end Error

/-- `Result<T>`. Source: `error.rs`, `Result` -/
abbrev Result (α : Type) := Except Error α

/-! ## Machine words -/

/-- A `u64` hash value. -/
abbrev U64 := Fin (2 ^ 64)

/-- `fetch_add` on an `AtomicU64`/`AtomicUsize`, and `+` on `u64` in the release profile. -/
def wrappingAdd (x y : ℕ) : ℕ := (x + y) % 2 ^ 64

/-- `fetch_sub` on an `AtomicU64`/`AtomicUsize`. -/
def wrappingSub (x y : ℕ) : ℕ := (x + (2 ^ 64 - y % 2 ^ 64)) % 2 ^ 64

/-- Without overflow the wrapping sum is the sum. -/
theorem wrappingAdd_eq {x y : ℕ} (h : x + y < 2 ^ 64) : wrappingAdd x y = x + y :=
  Nat.mod_eq_of_lt h

/-- Without underflow the wrapping difference is the difference. -/
theorem wrappingSub_eq {x y : ℕ} (hx : x < 2 ^ 64) (hyx : y ≤ x) : wrappingSub x y = x - y := by
  unfold wrappingSub
  omega

/-! ## Socket addresses -/

/-- An IPv4 address. -/
structure Ipv4Addr where
  a : UInt8
  b : UInt8
  c : UInt8
  d : UInt8
deriving DecidableEq, Repr

/-- An IPv6 address, as its eight segments. -/
structure Ipv6Addr where
  segments : Vector UInt16 8
deriving DecidableEq, Repr

/-- `std::net::SocketAddr`; the flow label, which no parsed address carries, is left out. -/
inductive SocketAddr where
  | v4 (ip : Ipv4Addr) (port : UInt16)
  | v6 (ip : Ipv6Addr) (port : UInt16) (scopeId : UInt32)
deriving DecidableEq, Repr

/-- `Display` of an IPv4 address. -/
def Ipv4Addr.display (ip : Ipv4Addr) : String :=
  toString ip.a ++ "." ++ toString ip.b ++ "." ++ toString ip.c ++ "." ++ toString ip.d

/-- One IPv6 segment in lower-case hexadecimal without leading zeros. -/
def hexSegment (s : UInt16) : String := String.ofList (Nat.toDigits 16 s.toNat)

/-- Segments joined by colons. -/
def joinSegments (segs : List UInt16) : String := ":".intercalate (segs.map hexSegment)

/-- The first longest run of zero segments, as its start and length; the scan keeps the run it is
in (`cur`) and the longest so far (`best`). -/
def longestZeroRun : List UInt16 → ℕ → ℕ × ℕ → ℕ × ℕ → ℕ × ℕ
  | [], _, _, best => best
  | s :: segs, i, cur, best =>
      if s = 0 then
        let cur := if cur.2 = 0 then (i, 1) else (cur.1, cur.2 + 1)
        longestZeroRun segs (i + 1) cur (if best.2 < cur.2 then cur else best)
      else longestZeroRun segs (i + 1) (0, 0) best

/-- `Display` of an IPv6 address: IPv4-mapped addresses keep the dotted form, and the first
longest run of at least two zero segments is compressed. -/
def Ipv6Addr.display (ip : Ipv6Addr) : String :=
  let segs := ip.segments.toList
  if segs.take 6 = [0, 0, 0, 0, 0, 0xffff] then
    let hi := segs.getD 6 0
    let lo := segs.getD 7 0
    "::ffff:" ++ Ipv4Addr.display
      ⟨(hi.toNat / 256).toUInt8, hi.toUInt8, (lo.toNat / 256).toUInt8, lo.toUInt8⟩
  else
    let run := longestZeroRun segs 0 (0, 0) (0, 0)
    if 1 < run.2 then
      joinSegments (segs.take run.1) ++ "::" ++ joinSegments (segs.drop (run.1 + run.2))
    else joinSegments segs

/-- `Display` of a socket address. -/
def SocketAddr.display : SocketAddr → String
  | .v4 ip port => ip.display ++ ":" ++ toString port
  | .v6 ip port scopeId =>
      if scopeId = 0 then "[" ++ ip.display ++ "]:" ++ toString port
      else "[" ++ ip.display ++ "%" ++ toString scopeId ++ "]:" ++ toString port

end HarbrRouter
