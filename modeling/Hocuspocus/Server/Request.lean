import Mathlib.Data.List.DropRight

/-!
# The request of a connection (`context.rs`)

`RequestMeta` is what the hooks read of the HTTP request, and `client_ip` the
address the throttle counts by: that of a proxy header, which is whatever stands
before its first comma, or else the remote one. A header of blanks gives an empty
address, and not the remote one (`RequestMeta.clientIp_eq_empty`).
-/

namespace Hocuspocus

/-- `char::is_whitespace`. -/
def isWhitespace (c : Char) : Bool :=
  let n := c.toNat
  9 ≤ n && n ≤ 13 || n == 0x20 || n == 0x85 || n == 0xA0 || n == 0x1680 ||
    0x2000 ≤ n && n ≤ 0x200A || n == 0x2028 || n == 0x2029 || n == 0x202F || n == 0x205F ||
    n == 0x3000

/-- `str::trim`. -/
def trim (cs : List Char) : List Char := (cs.dropWhile isWhitespace).rdropWhile isWhitespace

/-- Immutable metadata about the HTTP request that opened a connection; the names of
the headers are in lower case. -/
structure RequestMeta where
  headers : String → Option String
  parameters : String → Option String
  remoteIp : Option String

namespace RequestMeta

/-- `RequestMeta::default`. -/
def empty : RequestMeta := ⟨fun _ => none, fun _ => none, none⟩

/-- The header of a proxy. -/
def proxyHeader (m : RequestMeta) : Option String :=
  (m.headers "x-real-ip").or (m.headers "x-forwarded-for")

/-- Resolve the client IP preferring proxy headers. -/
def clientIp (m : RequestMeta) : Option String :=
  (m.proxyHeader.map fun s => String.ofList (trim (s.toList.takeWhile fun c => c ≠ ','))).or
    m.remoteIp

/-- There is no proxy header, or it is not blank before its first comma. -/
def Addressed (m : RequestMeta) : Prop :=
  ∀ s, m.proxyHeader = some s →
    ∃ c ∈ s.toList.takeWhile fun c => c ≠ ',', isWhitespace c = false

end RequestMeta

/-- Nothing is left of blanks alone. -/
theorem trim_eq_nil {cs : List Char} : trim cs = [] ↔ ∀ c ∈ cs, isWhitespace c = true := by
  unfold trim
  rw [List.rdropWhile_eq_nil_iff]
  constructor
  · intro h c hc
    rw [← List.takeWhile_append_dropWhile (p := isWhitespace) (l := cs), List.mem_append] at hc
    rcases hc with hblank | hrest
    · exact List.mem_takeWhile_imp hblank
    · exact h c hrest
  · intro h c hc
    exact h c ((List.dropWhile_sublist _).mem hc)

/-- Whom the throttle takes for a client with no address. -/
theorem RequestMeta.clientIp_eq_empty {m : RequestMeta} {remote : String}
    (hremote : m.remoteIp = some remote) (hne : remote ≠ "") :
    m.clientIp.getD "" ≠ "" ↔ m.Addressed := by
  unfold clientIp Addressed
  cases hproxy : m.proxyHeader with
  | none => simpa [hremote] using hne
  | some s =>
    rw [Option.map_some, Option.some_or, Option.getD_some]
    have hblank : String.ofList (trim (s.toList.takeWhile fun c => c ≠ ',')) = "" ↔
        ∀ c ∈ s.toList.takeWhile fun c => c ≠ ',', isWhitespace c = true := by
      rw [← trim_eq_nil]
      constructor
      · intro h
        have hlist := congrArg String.toList h
        simpa using hlist
      · intro h
        rw [h]
    rw [ne_eq, hblank]
    simp

end Hocuspocus
