import Thunderducks.Lib.IpRead

/-!
# IpAddr — the host in the text of a socket address (`core::net`)

A reader takes what it can off the front of a text.  Where the text goes on with a character that no reader of
the kind takes, it makes no difference what stands behind it (`Local`).  So the address that `SocketAddr.parse`
reads before a port is the address that `IpAddr.parse` reads in that part of the text alone (`parse_split`).
-/

namespace Thunderducks
namespace Lib
namespace IpText

/-! ## Readers that look no further -/

section Local

variable {α β : Type} {ok : Char → Bool}

/-- The reader takes `ok` characters only, and any other hides from it what follows. -/
structure Local (ok : Char → Bool) (read : List Char → Option (α × List Char)) : Prop where
  blind : ∀ (u : List Char) {stop : Char} (t : List Char), ok stop = false →
    read (u ++ stop :: t) = (read u).map fun r => (r.1, r.2 ++ stop :: t)
  takes : ∀ {s rest : List Char} {x : α}, read s = some (x, rest) →
    ∃ used, s = used ++ rest ∧ ∀ c ∈ used, ok c = true

namespace Local

variable {read : List Char → Option (α × List Char)}

/-- What a reader has taken it reads on its own. -/
theorem alone (h : Local ok read) {s t : List Char} {stop : Char} {x : α} (hstop : ok stop = false)
    (hread : read s = some (x, stop :: t)) :
    ∃ used, s = used ++ stop :: t ∧ read used = some (x, []) ∧ ∀ c ∈ used, ok c = true := by
  rcases h.takes hread with ⟨used, rfl, hused⟩
  refine ⟨used, rfl, ?_, hused⟩
  rw [h.blind used t hstop] at hread
  rcases Option.map_eq_some_iff.1 hread with ⟨⟨y, rest⟩, hy, heq⟩
  rcases Prod.mk.inj heq with ⟨hxy, hrest⟩
  have hnil : rest = [] := List.append_left_eq_self.1 hrest
  subst hnil hxy
  exact hy

theorem none : Local ok fun _ => (Option.none : Option (α × List Char)) :=
  ⟨fun _ _ _ _ => rfl, fun h => by cases h⟩

/-- A reader that takes nothing. -/
theorem pure (x : α) : Local ok fun s => some (x, s) :=
  ⟨fun _ _ _ _ => rfl, fun h => ⟨[], by cases h; rfl, fun _ hc => by cases hc⟩⟩

theorem bind {next : α → List Char → Option (β × List Char)} (h : Local ok read) (hnext : ∀ x, Local ok (next x)) :
    Local ok fun s => (read s).bind fun r => next r.1 r.2 := by
  refine ⟨?_, ?_⟩
  · intro u stop t hstop
    rw [h.blind u t hstop]
    cases read u with
    | none => rfl
    | some r => exact (hnext r.1).blind r.2 t hstop
  · intro s rest y hy
    rcases Option.bind_eq_some_iff.1 hy with ⟨⟨x, s'⟩, hx, hlater⟩
    rcases h.takes hx with ⟨used, rfl, hused⟩
    rcases (hnext x).takes hlater with ⟨more, rfl, hmore⟩
    refine ⟨used ++ more, (List.append_assoc _ _ _).symm, ?_⟩
    intro c hc
    rcases List.mem_append.1 hc with hc | hc
    · exact hused c hc
    · exact hmore c hc

/-- One reader where the other fails. -/
theorem orElse {next : α → List Char → Option (β × List Char)} {other : List Char → Option (β × List Char)}
    (h : Local ok read) (hnext : ∀ x, Local ok (next x)) (hother : Local ok other) :
    Local ok fun s => (read s).elim (other s) fun r => next r.1 r.2 := by
  have hboth := h.bind hnext
  refine ⟨?_, ?_⟩
  · intro u stop t hstop
    rw [h.blind u t hstop]
    cases read u with
    | none => exact hother.blind u t hstop
    | some r => exact (hnext r.1).blind r.2 t hstop
  · intro s rest y hy
    cases hread : read s with
    | none =>
        rw [hread] at hy
        exact hother.takes hy
    | some r =>
        rw [hread] at hy
        exact hboth.takes (by rw [hread]; exact hy)

theorem char {c : Char} (hc : ok c = true) : Local ok fun s => (readGivenChar c s).map fun s => ((), s) := by
  refine ⟨?_, ?_⟩
  · intro u stop t hstop
    cases u with
    | nil =>
        have hne : stop ≠ c := fun heq => by rw [heq, hc] at hstop; cases hstop
        simp [readGivenChar, hne]
    | cons a u =>
        by_cases ha : a = c
        · simp [readGivenChar, ha]
        · simp [readGivenChar, ha]
  · intro s rest x h
    cases s with
    | nil => cases h
    | cons a s =>
        by_cases ha : a = c
        · subst ha
          simp only [readGivenChar_self, Option.map_some] at h
          cases h
          exact ⟨[a], rfl, fun b hb => by rw [List.mem_singleton.1 hb]; exact hc⟩
        · simp [readGivenChar, ha] at h

theorem skip {c : Char} (hc : ok c = true) {next : List Char → Option (β × List Char)} (h : Local ok next) :
    Local ok fun s => (readGivenChar c s).bind next := by
  have hboth := (char hc).bind fun _ => h
  have heq : (fun s => ((readGivenChar c s).map fun s => ((), s)).bind fun r => next r.2) =
      fun s => (readGivenChar c s).bind next := by
    funext s
    cases readGivenChar c s with
    | none => rfl
    | some s => rfl
  rw [heq] at hboth
  exact hboth

/-- What a reader makes of what it reads does not matter. -/
theorem of_map {f : α → β} (hf : Function.Injective f)
    (h : Local ok fun s => (read s).map fun r => (f r.1, r.2)) : Local ok read := by
  have hinj : Function.Injective fun r : α × List Char => (f r.1, r.2) := by
    rintro ⟨x, s⟩ ⟨y, t⟩ heq
    rcases Prod.mk.inj heq with ⟨hxy, hst⟩
    exact Prod.ext (hf hxy) hst
  refine ⟨?_, ?_⟩
  · intro u stop t hstop
    refine Option.map_injective hinj ?_
    rw [h.blind u t hstop, Option.map_map, Option.map_map]
    rfl
  · intro s rest x hx
    exact h.takes (x := f x) (by simp [hx])

end Local

end Local

/-! ## The readers of addresses -/

/-- What an address is written with: hexadecimal digits, dots and colons. -/
def isAddrChar (c : Char) : Bool :=
  isDigit 16 c || c = '.' || c = ':'

theorem isDigit_decimal {c : Char} (h : isDigit 10 c = true) : isDigit 16 c = true := by
  by_contra hno
  have hten := (ends_cons (s := []) (eq_false_of_ne_true hno)).decimal c rfl
  rw [h] at hten
  cases hten

theorem hexDigit_range {c : Char} (h : isDigit 16 c = true) : 48 ≤ c.toNat ∧ c.toNat ≤ 102 := by
  unfold isDigit digitValue Text.hexValue at h
  simp only [Char.le_def, UInt32.le_iff_toNat_le] at h
  split at h
  next hrange => exact ⟨hrange.1, Nat.le_trans hrange.2 (by decide)⟩
  split at h
  next hrange => exact ⟨Nat.le_trans (by decide) hrange.1, hrange.2⟩
  split at h
  next hrange => exact ⟨Nat.le_trans (by decide) hrange.1, Nat.le_trans hrange.2 (by decide)⟩
  · cases h

section Readers

variable {ok : Char → Bool}

theorem local_readNumber {radix : Nat} (hok : ∀ c, isDigit radix c = true → ok c = true) (maxDigits : Option Nat)
    (allowZeroPrefix : Bool) (bound : Nat) : Local ok (readNumber radix maxDigits allowZeroPrefix bound) := by
  refine ⟨?_, ?_⟩
  · intro u stop t hstop
    have hno : isDigit radix stop = false := by
      by_contra hdigit
      rw [hok stop (eq_true_of_ne_false hdigit)] at hstop
      cases hstop
    have hruns : (u ++ stop :: t).takeWhile (isDigit radix) = u.takeWhile (isDigit radix) ∧
        (u ++ stop :: t).dropWhile (isDigit radix) = u.dropWhile (isDigit radix) ++ stop :: t := by
      induction u with
      | nil => simp [hno]
      | cons a u ih =>
          by_cases ha : isDigit radix a = true
          · simpa [ha] using ih
          · simp [ha]
    unfold readNumber
    dsimp only
    rw [hruns.1, hruns.2]
    by_cases hnone : u.takeWhile (isDigit radix) = []
    · rw [if_pos hnone, if_pos hnone]
      rfl
    · have hhead : (u ++ stop :: t).head? = u.head? := by
        refine List.head?_append_of_ne_nil u ?_
        rintro rfl
        exact hnone rfl
      rw [if_neg hnone, if_neg hnone, hhead]
      split
      · rfl
      split
      · rfl
      split
      · rfl
      · rfl
  · intro s rest x h
    refine ⟨s.takeWhile (isDigit radix), ?_, fun c hc => hok c (List.mem_takeWhile_imp hc)⟩
    rw [readNumber_rest h, List.takeWhile_append_dropWhile]

theorem local_readOctet (hok : ∀ c, isDigit 10 c = true → ok c = true) : Local ok readOctet :=
  (local_readNumber hok (some 3) false 256).bind fun n => Local.pure (UInt8.ofNat n)

theorem local_readIpv4Addr (hok : ∀ c, isDigit 10 c = true → ok c = true) (hdot : ok '.' = true) :
    Local ok readIpv4Addr := by
  have hoctet := local_readOctet hok
  exact hoctet.bind fun a => Local.skip hdot <| hoctet.bind fun b => Local.skip hdot <|
    hoctet.bind fun c => Local.skip hdot <| hoctet.bind fun d => Local.pure (Ipv4Addr.mk a b c d)

theorem local_readSeparator {α : Type} {separator : Char} (hok : ok separator = true) (first : Bool)
    {inner : List Char → Option (α × List Char)} (h : Local ok inner) :
    Local ok (readSeparator separator first inner) := by
  cases first with
  | true => exact h
  | false => exact Local.skip hok h

/-- `readGroups` as a reader. -/
def groupsRead (left : Nat) (first : Bool) (s : List Char) : Option ((List UInt16 × Bool) × List Char) :=
  let groups := readGroups left first s
  some ((groups.1, groups.2.1), groups.2.2)

theorem local_groupsRead (left : Nat) : ∀ first, Local isAddrChar (groupsRead left first) := by
  induction left with
  | zero => exact fun _ => Local.pure ([], false)
  | succ left ih =>
      intro first
      have hipv4 : Local isAddrChar fun s => if 1 ≤ left then readSeparator ':' first readIpv4Addr s else none := by
        by_cases hroom : 1 ≤ left
        · simp only [if_pos hroom]
          refine local_readSeparator (by decide) first (local_readIpv4Addr ?_ (by decide))
          intro c hc
          simp [isAddrChar, isDigit_decimal hc]
        · simp only [if_neg hroom]
          exact Local.none
      have hgroup : Local isAddrChar (readSeparator ':' first readGroup) := by
        refine local_readSeparator (by decide) first ?_
        refine (local_readNumber ?_ (some 4) true 65536).bind fun n => Local.pure (UInt16.ofNat n)
        intro c hc
        simp [isAddrChar, hc]
      -- an IPv4 address, or else a group and those behind it, or else nothing
      have hmore := hgroup.orElse (fun g => (ih false).bind fun more => Local.pure (g :: more.1, more.2))
        (Local.pure ([], false))
      have hall := hipv4.orElse
        (fun ip => Local.pure ([fromBeBytes ip.a ip.b, fromBeBytes ip.c ip.d], true)) hmore
      refine Eq.mp (congrArg (Local isAddrChar) (funext fun s => ?_)) hall
      unfold groupsRead
      rw [readGroups]
      cases if 1 ≤ left then readSeparator ':' first readIpv4Addr s else none with
      | some r => rfl
      | none =>
          cases readSeparator ':' first readGroup s with
          | none => rfl
          | some r => rfl

/-- What comes after the first groups of an IPv6 address. -/
def readFilled (head : List UInt16 × Bool) (s : List Char) : Option (List UInt16 × List Char) :=
  if head.1.length = 8 then
    some (head.1, s)
  else if head.2 then
    none
  else
    (readGivenChar ':' s).bind fun s => (readGivenChar ':' s).bind fun s =>
      (groupsRead (8 - (head.1.length + 1)) true s).bind fun tail => some (filled head.1 tail.1.1, tail.2)

/-- The groups of an IPv6 address. -/
def readSegments (s : List Char) : Option (List UInt16 × List Char) :=
  (groupsRead 8 true s).bind fun head => readFilled head.1 head.2

theorem readIpv6Addr_segments (s : List Char) :
    (readIpv6Addr s).map (fun r => (r.1.segments, r.2)) = readSegments s := by
  unfold readIpv6Addr readSegments readFilled groupsRead
  dsimp only [Option.bind_some]
  split
  · rfl
  split
  · rfl
  cases readGivenChar ':' (readGroups 8 true s).2.2 with
  | none => rfl
  | some s' =>
      cases hcolon : readGivenChar ':' s' with
      | none => simp [hcolon]
      | some t => simp [hcolon]

theorem local_readIpv6Addr : Local isAddrChar readIpv6Addr := by
  have hsegments : Local isAddrChar readSegments := by
    refine (local_groupsRead 8 true).bind fun head => ?_
    unfold readFilled
    by_cases hfull : head.1.length = 8
    · simp only [if_pos hfull]
      exact Local.pure head.1
    simp only [if_neg hfull]
    cases head.2 with
    | true => exact Local.none
    | false =>
        exact Local.skip (by decide) <| Local.skip (by decide) <|
          (local_groupsRead _ true).bind fun tail => Local.pure (filled head.1 tail.1)
  have hinj : Function.Injective Ipv6Addr.segments := by
    rintro ⟨a, ha⟩ ⟨b, hb⟩ rfl
    rfl
  refine Local.of_map hinj ?_
  simp only [readIpv6Addr_segments]
  exact hsegments

end Readers

/-! ## Addresses without a port -/

inductive IpAddr
  | v4 (ip : Ipv4Addr)
  | v6 (ip : Ipv6Addr)
  deriving DecidableEq

/-- `is_loopback` -/
def IpAddr.isLoopback : IpAddr → Bool
  | .v4 ip => ip.a = 127
  | .v6 ip => ip.segments = [0, 0, 0, 0, 0, 0, 0, 1]

def readIpAddr (s : List Char) : Option (IpAddr × List Char) :=
  ((readIpv4Addr s).map fun r => (.v4 r.1, r.2)).or ((readIpv6Addr s).map fun r => (.v6 r.1, r.2))

/-- `str::parse::<IpAddr>` -/
def IpAddr.parse (s : List Char) : Option IpAddr :=
  match readIpAddr s with
  | some (ip, []) => some ip
  | _ => none

def SocketAddr.ip : SocketAddr → IpAddr
  | .v4 ip _ => .v4 ip
  | .v6 ip _ _ _ => .v6 ip

/-- No text begins with an IPv4 address and with an IPv6 address. -/
theorem readIpv4Addr_of_readIpv6Addr {s : List Char} {r : Ipv6Addr × List Char} (h : readIpv6Addr s = some r) :
    readIpv4Addr s = none := by
  cases hread : readIpv4Addr s with
  | none => rfl
  | some q =>
      have hgroups : readGroups 8 true s = ([fromBeBytes q.1.a q.1.b, fromBeBytes q.1.c q.1.d], true, q.2) := by
        rw [readGroups]
        simp [readSeparator, hread]
      have hnone : readSegments s = none := by
        simp [readSegments, readFilled, groupsRead, hgroups]
      rw [← readIpv6Addr_segments, h] at hnone
      cases hnone

theorem IpAddr.parse_ipv4 {s : List Char} {ip : Ipv4Addr} (h : readIpv4Addr s = some (ip, [])) :
    IpAddr.parse s = some (.v4 ip) := by
  simp [IpAddr.parse, readIpAddr, h]

/-- What is left of the text must be nothing. -/
theorem IpAddr.parse_ipv6 {s rest : List Char} {ip : Ipv6Addr} (h : readIpv6Addr s = some (ip, rest)) :
    IpAddr.parse s = if rest = [] then some (.v6 ip) else none := by
  cases rest with
  | nil => simp [IpAddr.parse, readIpAddr, readIpv4Addr_of_readIpv6Addr h, h]
  | cons c rest => simp [IpAddr.parse, readIpAddr, readIpv4Addr_of_readIpv6Addr h, h]

/-! ## The host of a socket address -/

/-- What stands before the port: an IPv4 address, or in brackets an IPv6 address, with a scope or without. -/
inductive Host (addr : SocketAddr) : List Char → Prop
  | plain {host : List Char} (hchars : ∀ c ∈ host, isAddrChar c = true)
      (hparse : IpAddr.parse host = some addr.ip) : Host addr host
  | bracketed {inner : List Char} (hchars : ∀ c ∈ inner, isAddrChar c = true)
      (hparse : IpAddr.parse inner = some addr.ip) : Host addr ('[' :: (inner ++ [']']))
  | withScope {inner scope : List Char} (hchars : ∀ c ∈ inner, isAddrChar c = true)
      (hscope : ∀ c ∈ scope, isDigit 10 c = true) (hparse : IpAddr.parse (inner ++ '%' :: scope) = none) :
      Host addr ('[' :: (inner ++ '%' :: scope ++ [']']))

theorem readGivenChar_eq {c : Char} {s rest : List Char} (h : readGivenChar c s = some rest) : s = c :: rest := by
  cases s with
  | nil => cases h
  | cons a s =>
      by_cases ha : a = c
      · subst ha
        rw [readGivenChar_self] at h
        cases h
        rfl
      · simp [readGivenChar, ha] at h

theorem readPort_split {s : List Char} {port : UInt16} (h : readPort s = some (port, [])) :
    ∃ digits, s = ':' :: digits ∧ ∀ c ∈ digits, isDigit 10 c = true := by
  rcases Option.bind_eq_some_iff.1 h with ⟨s', hcolon, hrest⟩
  rcases Option.bind_eq_some_iff.1 hrest with ⟨⟨n, rest⟩, hnumber, heq⟩
  cases heq
  have hlocal : Local (isDigit 10) (readNumber 10 none true 65536) := local_readNumber (fun _ hc => hc) _ _ _
  rcases hlocal.takes hnumber with ⟨digits, rfl, hdigits⟩
  exact ⟨digits, by rw [readGivenChar_eq hcolon, List.append_nil], hdigits⟩

/-- The text of a socket address is that of its host, a colon, and the port. -/
theorem SocketAddr.parse_split {s : List Char} {addr : SocketAddr} (h : SocketAddr.parse s = some addr) :
    ∃ host digits, s = host ++ ':' :: digits ∧ (∀ c ∈ digits, isDigit 10 c = true) ∧ Host addr host := by
  have hread : readSocketAddrV4 s = some (addr, []) ∨ readSocketAddrV6 s = some (addr, []) := by
    unfold SocketAddr.parse at h
    cases hv4 : readSocketAddrV4 s with
    | some r =>
        rcases r with ⟨addr', rest⟩
        cases rest with
        | nil =>
            rw [hv4] at h
            cases h
            exact Or.inl rfl
        | cons c rest =>
            rw [hv4] at h
            cases h
    | none =>
        refine Or.inr ?_
        rw [hv4, Option.none_or] at h
        split at h
        next addr' heq =>
          cases h
          exact heq
        · cases h
  rcases hread with hv4 | hv6
  · rcases Option.bind_eq_some_iff.1 hv4 with ⟨⟨ip, s'⟩, hip, hrest⟩
    rcases Option.bind_eq_some_iff.1 hrest with ⟨⟨port, rest⟩, hport, heq⟩
    cases heq
    rcases readPort_split hport with ⟨digits, rfl, hdigits⟩
    -- the address is decimal, so the colon ends it
    let ok : Char → Bool := fun c => isDigit 10 c || c = '.'
    have hlocal : Local ok readIpv4Addr :=
      local_readIpv4Addr (fun c hc => by simp [ok, hc]) (by decide)
    rcases hlocal.alone (by decide) hip with ⟨host, rfl, hhost, hchars⟩
    refine ⟨host, digits, rfl, hdigits, .plain ?_ (IpAddr.parse_ipv4 hhost)⟩
    intro c hc
    have hkind : isDigit 10 c = true ∨ c = '.' := by
      simpa [ok] using hchars c hc
    rcases hkind with hdigit | rfl
    · simp [isAddrChar, isDigit_decimal hdigit]
    · decide
  · rcases Option.bind_eq_some_iff.1 hv6 with ⟨s₁, hopen, hrest⟩
    rcases Option.bind_eq_some_iff.1 hrest with ⟨⟨ip, s₂⟩, hip, hrest⟩
    rcases hscope : (readScopeId s₂).getD (0, s₂) with ⟨scopeId, s₃⟩
    dsimp only at hrest
    rw [hscope] at hrest
    rcases Option.bind_eq_some_iff.1 hrest with ⟨s₄, hclose, hrest⟩
    rcases Option.bind_eq_some_iff.1 hrest with ⟨⟨port, rest⟩, hport, heq⟩
    cases heq
    rcases readPort_split hport with ⟨digits, rfl, hdigits⟩
    have hclosed := readGivenChar_eq hclose
    subst hclosed
    have hopened := readGivenChar_eq hopen
    subst hopened
    cases hread : readScopeId s₂ with
    | none =>
        rw [hread] at hscope
        cases hscope
        rcases local_readIpv6Addr.alone (by decide) hip with ⟨inner, rfl, hinner, hchars⟩
        refine ⟨'[' :: (inner ++ [']']), digits, by simp, hdigits, .bracketed hchars ?_⟩
        exact (IpAddr.parse_ipv6 hinner).trans (if_pos rfl)
    | some r =>
        rw [hread] at hscope
        cases hscope
        rcases Option.bind_eq_some_iff.1 hread with ⟨s₅, hpercent, hrest⟩
        rcases Option.bind_eq_some_iff.1 hrest with ⟨⟨n, rest⟩, hnumber, heq⟩
        cases heq
        have hlocal : Local (isDigit 10) (readNumber 10 none true 4294967296) :=
          local_readNumber (fun _ hc => hc) _ _ _
        rcases hlocal.takes hnumber with ⟨scope, rfl, hdigit⟩
        have hpercent := readGivenChar_eq hpercent
        subst hpercent
        rcases local_readIpv6Addr.alone (by decide) hip with ⟨inner, rfl, hinner, hchars⟩
        refine ⟨'[' :: (inner ++ '%' :: scope ++ [']']), digits, by simp, hdigits, .withScope hchars hdigit ?_⟩
        -- an address has no scope
        have hwhole : readIpv6Addr (inner ++ '%' :: scope) = some (ip, '%' :: scope) := by
          rw [local_readIpv6Addr.blind inner scope (by decide), hinner]
          rfl
        exact (IpAddr.parse_ipv6 hwhole).trans (if_neg (List.cons_ne_nil _ _))

end IpText
end Lib
end Thunderducks
