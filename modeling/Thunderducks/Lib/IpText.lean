import Thunderducks.Lib.Text

/-!
# IpText — socket addresses as text (`core::net`)

`SocketAddr.text` is what `Display` writes and `SocketAddr.parse` what `FromStr` reads.  A reader takes what it
can off the front of the text; where it fails, the text is as before.  The text of an IPv6 address leaves out
its longest run of zero groups, which the reader fills in again.
-/

namespace Thunderducks
namespace Lib
namespace IpText

/-! ## Addresses -/

structure Ipv4Addr where
  a : UInt8
  b : UInt8
  c : UInt8
  d : UInt8
  deriving DecidableEq

structure Ipv6Addr where
  segments : List UInt16
  eight : segments.length = 8
  deriving DecidableEq

inductive SocketAddr
  | v4 (ip : Ipv4Addr) (port : UInt16)
  | v6 (ip : Ipv6Addr) (port : UInt16) (flowinfo scopeId : UInt32)
  deriving DecidableEq

namespace SocketAddr

def port : SocketAddr → UInt16
  | .v4 _ port => port
  | .v6 _ port _ _ => port

def isIpv4 : SocketAddr → Bool
  | .v4 _ _ => true
  | .v6 _ _ _ _ => false

/-- What no text shows: the flow information of an IPv6 address. -/
def flowinfo : SocketAddr → UInt32
  | .v4 _ _ => 0
  | .v6 _ _ flowinfo _ => flowinfo

end SocketAddr

/-! ## Writing -/

def decimal (n : Nat) : List Char :=
  Nat.toDigits 10 n

/-- `{:x}` -/
def hex (n : UInt16) : List Char :=
  Nat.toDigits 16 n.toNat

def Ipv4Addr.text (ip : Ipv4Addr) : List Char :=
  decimal ip.a.toNat ++ '.' :: (decimal ip.b.toNat ++ '.' :: (decimal ip.c.toNat ++ '.' :: decimal ip.d.toNat))

/-- Groups that follow a group. -/
def moreGroups (segments : List UInt16) : List Char :=
  segments.flatMap fun segment => ':' :: hex segment

/-- `fmt_subslice` -/
def groups : List UInt16 → List Char
  | [] => []
  | first :: tail => hex first ++ moreGroups tail

def highByte (segment : UInt16) : UInt8 :=
  UInt8.ofNat (segment.toNat / 256)

def lowByte (segment : UInt16) : UInt8 :=
  UInt8.ofNat (segment.toNat % 256)

/-- `to_ipv4_mapped` -/
def Ipv6Addr.toIpv4Mapped (ip : Ipv6Addr) : Option Ipv4Addr :=
  match ip.segments.drop 6 with
  | [x, y] =>
      if ip.segments.take 6 = [0, 0, 0, 0, 0, 0xffff] then
        some { a := highByte x, b := lowByte x, c := highByte y, d := lowByte y }
      else
        none
  | _ => none

structure Span where
  start : Nat
  len : Nat

/-- The loop that looks for the longest run of zeros, at index `i`. -/
def findZeroes (longest current : Span) (i : Nat) : List UInt16 → Span
  | [] => longest
  | segment :: segments =>
      if segment = 0 then
        let current : Span :=
          { start := if current.len = 0 then i else current.start
            len := current.len + 1 }
        findZeroes (if current.len > longest.len then current else longest) current (i + 1) segments
      else
        findZeroes longest { start := 0, len := 0 } (i + 1) segments

def Ipv6Addr.zeroes (ip : Ipv6Addr) : Span :=
  findZeroes { start := 0, len := 0 } { start := 0, len := 0 } 0 ip.segments

def Ipv6Addr.text (ip : Ipv6Addr) : List Char :=
  match ip.toIpv4Mapped with
  | some ipv4 => "::ffff:".toList ++ ipv4.text
  | none =>
      let zeroes := ip.zeroes
      if zeroes.len > 1 then
        groups (ip.segments.take zeroes.start) ++ ':' :: ':' ::
          groups (ip.segments.drop (zeroes.start + zeroes.len))
      else
        groups ip.segments

namespace SocketAddr

/-- `addr.ip().to_string()` -/
def ipText : SocketAddr → List Char
  | .v4 ip _ => ip.text
  | .v6 ip _ _ _ => ip.text

/-- What stands before the colon of the port. -/
def hostText : SocketAddr → List Char
  | .v4 ip _ => ip.text
  | .v6 ip _ _ scopeId =>
      '[' :: (ip.text ++ ((if scopeId = 0 then [] else '%' :: decimal scopeId.toNat) ++ [']']))

def text (addr : SocketAddr) : List Char :=
  addr.hostText ++ ':' :: decimal addr.port.toNat

end SocketAddr

/-! ## Reading -/

def readGivenChar (target : Char) : List Char → Option (List Char)
  | [] => none
  | c :: s => if c = target then some s else none

/-- `to_digit` -/
def digitValue (radix : Nat) (c : Char) : Option Nat :=
  (Text.hexValue c).filter (· < radix)

def isDigit (radix : Nat) (c : Char) : Bool :=
  (digitValue radix c).isSome

/-- The value of a run of digits. -/
def digitsValue (radix : Nat) (ds : List Char) : Nat :=
  ds.foldl (fun n c => n * radix + (digitValue radix c).getD 0) 0

/-- `read_number`: the digits at the front, as a number below `bound`. -/
def readNumber (radix : Nat) (maxDigits : Option Nat) (allowZeroPrefix : Bool) (bound : Nat) (s : List Char) :
    Option (Nat × List Char) :=
  let ds := s.takeWhile (isDigit radix)
  if ds = [] then
    none
  else if maxDigits.any (· < ds.length) then
    none
  else if allowZeroPrefix = false ∧ s.head? = some '0' ∧ 1 < ds.length then
    none
  else if digitsValue radix ds < bound then
    some (digitsValue radix ds, s.dropWhile (isDigit radix))
  else
    none

def readOctet (s : List Char) : Option (UInt8 × List Char) := do
  let (n, s) ← readNumber 10 (some 3) false 256 s
  some (UInt8.ofNat n, s)

def readIpv4Addr (s : List Char) : Option (Ipv4Addr × List Char) := do
  let (a, s) ← readOctet s
  let s ← readGivenChar '.' s
  let (b, s) ← readOctet s
  let s ← readGivenChar '.' s
  let (c, s) ← readOctet s
  let s ← readGivenChar '.' s
  let (d, s) ← readOctet s
  some ({ a := a, b := b, c := c, d := d }, s)

/-- `read_separator`: the first item has none. -/
def readSeparator {α : Type} (separator : Char) (first : Bool) (inner : List Char → Option (α × List Char))
    (s : List Char) : Option (α × List Char) :=
  if first then
    inner s
  else do
    let s ← readGivenChar separator s
    inner s

def readGroup (s : List Char) : Option (UInt16 × List Char) := do
  let (n, s) ← readNumber 16 (some 4) true 65536 s
  some (UInt16.ofNat n, s)

/-- `u16::from_be_bytes` -/
def fromBeBytes (high low : UInt8) : UInt16 :=
  UInt16.ofNat (high.toNat * 256 + low.toNat)

/-- `read_groups`: at most `left` groups, and whether the last two were written as an IPv4 address. -/
def readGroups : (left : Nat) → (first : Bool) → List Char → List UInt16 × Bool × List Char
  | 0, _, s => ([], false, s)
  | left + 1, first, s =>
      -- an IPv4 address takes the room of two groups
      match if 1 ≤ left then readSeparator ':' first readIpv4Addr s else none with
      | some (ip, s) => ([fromBeBytes ip.a ip.b, fromBeBytes ip.c ip.d], true, s)
      | none =>
          match readSeparator ':' first readGroup s with
          | none => ([], false, s)
          | some (group, s) =>
              let (more, ipv4, s) := readGroups left false s
              (group :: more, ipv4, s)

theorem length_readGroups (left : Nat) : ∀ (first : Bool) (s : List Char),
    (readGroups left first s).1.length ≤ left := by
  induction left with
  | zero =>
      intro first s
      exact Nat.le_refl 0
  | succ left ih =>
      intro first s
      unfold readGroups
      split
      next ip s' heq =>
        -- there were at least two groups left
        have hroom : 1 ≤ left := by
          by_contra hroom
          rw [if_neg hroom] at heq
          cases heq
        exact Nat.succ_le_succ hroom
      · split
        · exact Nat.zero_le _
        · exact Nat.succ_le_succ (ih false _)

/-- The groups before and after `::`, with zeros between them. -/
def filled (front tail : List UInt16) : List UInt16 :=
  front ++ (List.replicate (8 - front.length - tail.length) 0 ++ tail)

theorem length_filled {front tail : List UInt16} (h : front.length + tail.length ≤ 8) :
    (filled front tail).length = 8 := by
  unfold filled
  simp only [List.length_append, List.length_replicate]
  omega

/-- What follows `::` is shorter than what it stands for. -/
theorem length_readGroups_both (s s' : List Char) :
    (readGroups 8 true s).1.length +
      (readGroups (8 - ((readGroups 8 true s).1.length + 1)) true s').1.length ≤ 8 := by
  have hhead := length_readGroups 8 true s
  have htail := length_readGroups (8 - ((readGroups 8 true s).1.length + 1)) true s'
  omega

def readIpv6Addr (s : List Char) : Option (Ipv6Addr × List Char) :=
  let head := readGroups 8 true s
  if hfull : head.1.length = 8 then
    some ({ segments := head.1, eight := hfull }, head.2.2)
  else if head.2.1 then
    -- an IPv4 part is not allowed before `::`
    none
  else do
    let s' ← readGivenChar ':' head.2.2
    let s' ← readGivenChar ':' s'
    let tail := readGroups (8 - (head.1.length + 1)) true s'
    some ({ segments := filled head.1 tail.1, eight := length_filled (length_readGroups_both s s') }, tail.2.2)

def readPort (s : List Char) : Option (UInt16 × List Char) := do
  let s ← readGivenChar ':' s
  let (n, s) ← readNumber 10 none true 65536 s
  some (UInt16.ofNat n, s)

def readScopeId (s : List Char) : Option (UInt32 × List Char) := do
  let s ← readGivenChar '%' s
  let (n, s) ← readNumber 10 none true 4294967296 s
  some (UInt32.ofNat n, s)

def readSocketAddrV4 (s : List Char) : Option (SocketAddr × List Char) := do
  let (ip, s) ← readIpv4Addr s
  let (port, s) ← readPort s
  some (.v4 ip port, s)

def readSocketAddrV6 (s : List Char) : Option (SocketAddr × List Char) := do
  let s ← readGivenChar '[' s
  let (ip, s) ← readIpv6Addr s
  let (scopeId, s) := (readScopeId s).getD (0, s)
  let s ← readGivenChar ']' s
  let (port, s) ← readPort s
  some (.v6 ip port 0 scopeId, s)

/-- `str::parse::<SocketAddr>`: the whole text is one address. -/
def SocketAddr.parse (s : List Char) : Option SocketAddr :=
  match (readSocketAddrV4 s).or (readSocketAddrV6 s) with
  | some (addr, []) => some addr
  | _ => none

end IpText
end Lib
end Thunderducks
