import Thunderducks.Lib.Checked
import Thunderducks.Lib.Json
import Thunderducks.Lib.Panic

/-!
# Base64 — the codec of `td-crypto/src/passkey.rs`

The decoder takes both alphabets at once when it is asked for the URL one, pads what is short, and stops at
a quadruple that begins with `=`.  Elsewhere an `=` counts as zero in the third and fourth place.
`decodeQuads` takes the bytes by fours; `readQuads` is the loop with the indices of the source, and
`readQuads_eq` says that these are in range.
-/

namespace Thunderducks
namespace Crypto
namespace Base64

open Lib

/-! ## Encoding -/

def tableStd : Vector Char 64 :=
  #v['A', 'B', 'C', 'D', 'E', 'F', 'G', 'H', 'I', 'J', 'K', 'L', 'M', 'N', 'O', 'P',
    'Q', 'R', 'S', 'T', 'U', 'V', 'W', 'X', 'Y', 'Z', 'a', 'b', 'c', 'd', 'e', 'f',
    'g', 'h', 'i', 'j', 'k', 'l', 'm', 'n', 'o', 'p', 'q', 'r', 's', 't', 'u', 'v',
    'w', 'x', 'y', 'z', '0', '1', '2', '3', '4', '5', '6', '7', '8', '9', '+', '/']

def tableUrl : Vector Char 64 :=
  #v['A', 'B', 'C', 'D', 'E', 'F', 'G', 'H', 'I', 'J', 'K', 'L', 'M', 'N', 'O', 'P',
    'Q', 'R', 'S', 'T', 'U', 'V', 'W', 'X', 'Y', 'Z', 'a', 'b', 'c', 'd', 'e', 'f',
    'g', 'h', 'i', 'j', 'k', 'l', 'm', 'n', 'o', 'p', 'q', 'r', 's', 't', 'u', 'v',
    'w', 'x', 'y', 'z', '0', '1', '2', '3', '4', '5', '6', '7', '8', '9', '-', '_']

theorem and_63_lt (n : UInt32) : (n &&& 63).toNat < 64 := by
  rw [UInt32.toNat_and]
  exact Nat.lt_succ_of_le Nat.and_le_right

/-- `table[(n & 63) as usize]` -/
def symbol (url : Bool) (n : UInt32) : Char :=
  (if url then tableUrl else tableStd).get ⟨(n &&& 63).toNat, and_63_lt n⟩

def triple (b0 b1 b2 : UInt8) : UInt32 :=
  b0.toUInt32 <<< 16 ||| b1.toUInt32 <<< 8 ||| b2.toUInt32

/-- The padding, which the URL form leaves out. -/
def pad (url : Bool) (n : Nat) : List Char :=
  if url then [] else List.replicate n '='

def encodeChunks (url : Bool) : Bytes → List Char
  | [] => []
  | [b0] =>
      let t := triple b0 0 0
      symbol url (t >>> 18) :: symbol url (t >>> 12) :: pad url 2
  | [b0, b1] =>
      let t := triple b0 b1 0
      symbol url (t >>> 18) :: symbol url (t >>> 12) :: symbol url (t >>> 6) :: pad url 1
  | b0 :: b1 :: b2 :: data =>
      let t := triple b0 b1 b2
      symbol url (t >>> 18) :: symbol url (t >>> 12) :: symbol url (t >>> 6) :: symbol url t ::
        encodeChunks url data

def base64EncodeConfig (data : Bytes) (url : Bool) : String :=
  String.ofList (encodeChunks url data)

def b64url (data : Bytes) : String :=
  base64EncodeConfig data true

/-! ## Decoding -/

/-- `val` of `base64_decode_config`. -/
def symbolValue (c : UInt8) : Except String UInt8 :=
  if 65 ≤ c ∧ c ≤ 90 then
    .ok (c - 65)
  else if 97 ≤ c ∧ c ≤ 122 then
    .ok (c - 97 + 26)
  else if 48 ≤ c ∧ c ≤ 57 then
    .ok (c - 48 + 52)
  else if c = 43 then
    .ok 62
  else if c = 47 then
    .ok 63
  else
    .error ("bad b64 char " ++ toString c)

/-- The third or fourth symbol of a quadruple: `=` is 61. -/
def symbolOrZero (c : UInt8) : Except String UInt8 :=
  if c = 61 then .ok 0 else symbolValue c

/-- The loop. -/
def decodeQuads : Bytes → Except String Bytes
  | b0 :: b1 :: b2 :: b3 :: rest =>
      if b0 = 61 then
        -- `break`: the rest is not read
        .ok []
      else do
        let a ← symbolValue b0
        let b ← symbolValue b1
        let c ← symbolOrZero b2
        let d ← symbolOrZero b3
        let more ← decodeQuads rest
        .ok ((a <<< 2 ||| b >>> 4) :: (if b2 = 61 then [] else [b <<< 4 ||| c >>> 2]) ++
          (if b3 = 61 then [] else [c <<< 6 ||| d]) ++ more)
  | _ => .ok []

/-- The loop as it reads, from index `i` on. -/
def readQuads (bytes : Bytes) (i : Nat) (out : Bytes) : Panics String Bytes :=
  if i + 3 < bytes.length then do
    let b0 ← Panics.index bytes i
    if b0 = 61 then
      pure out
    else do
      let a ← Panics.returns (symbolValue b0)
      let b ← Panics.returns (symbolValue (← Panics.index bytes (i + 1)))
      let b2 ← Panics.index bytes (i + 2)
      let c ← Panics.returns (symbolOrZero b2)
      let b3 ← Panics.index bytes (i + 3)
      let d ← Panics.returns (symbolOrZero b3)
      let out := out ++ [a <<< 2 ||| b >>> 4]
      let out := if b2 = 61 then out else out ++ [b <<< 4 ||| c >>> 2]
      let out := if b3 = 61 then out else out ++ [c <<< 6 ||| d]
      readQuads bytes (i + 4) out
  else
    pure out
termination_by bytes.length - i

/-- `while !s.len().is_multiple_of(4) { s.push('=') }` -/
def padded (bs : Bytes) : Bytes :=
  bs ++ List.replicate ((4 - bs.length % 4) % 4) 61

/-- `s.replace('-', "+").replace('_', "/")` -/
def toStandard (c : Char) : Char :=
  if c = '-' then '+' else if c = '_' then '/' else c

def base64DecodeConfig (s : String) (url : Bool) : Except String Bytes :=
  let s := s.toList.filter fun c => c ≠ '\n'
  let s := if url then s.map toStandard else s
  decodeQuads (padded (s.flatMap String.utf8EncodeChar))

/-- `base64_decode_config` with every read by its index. -/
def base64DecodeConfigIndexed (s : String) (url : Bool) : Panics String Bytes :=
  let s := s.toList.filter fun c => c ≠ '\n'
  let s := if url then s.map toStandard else s
  readQuads (padded (s.flatMap String.utf8EncodeChar)) 0 []

/-! ## Symbols -/

/-- The symbol of a number below 64. -/
theorem symbol_eq (url : Bool) (n : UInt32) :
    symbol url n = (if url then tableUrl else tableStd).get ⟨n.toNat % 64, Nat.mod_lt _ (by decide)⟩ := by
  unfold symbol
  have hmod : (n &&& 63).toNat = n.toNat % 64 := by
    rw [UInt32.toNat_and]
    exact Nat.and_two_pow_sub_one_eq_mod n.toNat 6
  simp only [hmod]

/-- What both tables say of one number. -/
structure TableEntry (i : Fin 64) : Prop where
  standard : toStandard (tableUrl.get i) = tableStd.get i
  newline : tableUrl.get i ≠ '\n'
  byte : String.utf8EncodeChar (tableStd.get i) = [UInt8.ofNat (tableStd.get i).toNat]
  value : symbolValue (UInt8.ofNat (tableStd.get i).toNat) = .ok (UInt8.ofNat i)
  pad : UInt8.ofNat (tableStd.get i).toNat ≠ 61

theorem tableEntry (i : Fin 64) : TableEntry i := by
  have hall : ∀ i : Fin 64, toStandard (tableUrl.get i) = tableStd.get i ∧ tableUrl.get i ≠ '\n' ∧
      String.utf8EncodeChar (tableStd.get i) = [UInt8.ofNat (tableStd.get i).toNat] ∧
        symbolValue (UInt8.ofNat (tableStd.get i).toNat) = .ok (UInt8.ofNat i) ∧
          UInt8.ofNat (tableStd.get i).toNat ≠ 61 := by
    decide
  rcases hall i with ⟨hstd, hnl, hbyte, hvalue, hpad⟩
  exact ⟨hstd, hnl, hbyte, hvalue, hpad⟩

/-- The byte of a symbol of the standard table. -/
def symbolByte (n : UInt32) : UInt8 :=
  UInt8.ofNat (symbol false n).toNat

theorem toStandard_symbol (n : UInt32) : toStandard (symbol true n) = symbol false n := by
  rw [symbol_eq, symbol_eq]
  exact (tableEntry _).standard

theorem symbol_ne_newline (n : UInt32) : symbol true n ≠ '\n' := by
  rw [symbol_eq]
  exact (tableEntry _).newline

theorem utf8EncodeChar_symbol (n : UInt32) : String.utf8EncodeChar (symbol false n) = [symbolByte n] := by
  unfold symbolByte
  rw [symbol_eq]
  exact (tableEntry _).byte

theorem symbolValue_symbolByte (n : UInt32) :
    symbolValue (symbolByte n) = .ok (UInt8.ofNat (n.toNat % 64)) := by
  unfold symbolByte
  rw [symbol_eq]
  exact (tableEntry _).value

theorem symbolByte_ne_pad (n : UInt32) : symbolByte n ≠ 61 := by
  unfold symbolByte
  rw [symbol_eq]
  exact (tableEntry _).pad

theorem symbolOrZero_symbolByte (n : UInt32) : symbolOrZero (symbolByte n) = symbolValue (symbolByte n) := by
  unfold symbolOrZero
  rw [if_neg (symbolByte_ne_pad n)]

/-! ## Bits -/

theorem triple_toNat (b0 b1 b2 : UInt8) :
    (triple b0 b1 b2).toNat = b0.toNat * 65536 + b1.toNat * 256 + b2.toNat := by
  have h0 := b0.toNat_lt
  have h1 := b1.toNat_lt
  have h2 := b2.toNat_lt
  have hhigh : b0.toNat <<< (UInt32.toNat 16 % 32) % 2 ^ 32 = 2 ^ 16 * b0.toNat := by
    simp only [Nat.shiftLeft_eq, UInt32.reduceToNat, Nat.reduceMod]
    omega
  have hmid : b1.toNat <<< (UInt32.toNat 8 % 32) % 2 ^ 32 = 2 ^ 8 * b1.toNat := by
    simp only [Nat.shiftLeft_eq, UInt32.reduceToNat, Nat.reduceMod]
    omega
  have hsplit : 2 ^ 16 * b0.toNat + 2 ^ 8 * b1.toNat = 2 ^ 8 * (b0.toNat * 256 + b1.toNat) := by
    omega
  unfold triple
  simp only [UInt32.toNat_or, UInt32.toNat_shiftLeft, UInt8.toNat_toUInt32]
  rw [hhigh, hmid, ← Nat.two_pow_add_eq_or_of_lt (by omega), hsplit, ← Nat.two_pow_add_eq_or_of_lt (by omega)]
  omega

theorem shiftRight_toNat (t : UInt32) {k : Nat} (hk : k < 32) :
    (t >>> UInt32.ofNat k).toNat = t.toNat / 2 ^ k := by
  rw [UInt32.toNat_shiftRight, UInt32.toNat_ofNat_of_lt' (by simp [UInt32.size]; omega), Nat.mod_eq_of_lt hk,
    Nat.shiftRight_eq_div_pow]

/-- High bits and low bits that do not overlap. -/
theorem shiftLeft_or_toNat (x y : UInt8) {k : Nat} (hk : k < 8) (hy : y.toNat < 2 ^ k) :
    (x <<< UInt8.ofNat k ||| y).toNat = x.toNat * 2 ^ k % 256 + y.toNat := by
  -- what is shifted out at the top leaves a multiple of `2 ^ k`
  have hmod : x.toNat * 2 ^ k % 2 ^ 8 = 2 ^ k * (x.toNat % 2 ^ (8 - k)) := by
    have hpow : 2 ^ 8 = 2 ^ k * 2 ^ (8 - k) := by
      rw [← Nat.pow_add]
      congr 1
      omega
    rw [hpow, Nat.mul_comm x.toNat, Nat.mul_mod_mul_left]
  rw [UInt8.toNat_or, UInt8.toNat_shiftLeft, UInt8.toNat_ofNat_of_lt' (by simp [UInt8.size]; omega),
    Nat.mod_eq_of_lt hk, Nat.shiftLeft_eq, hmod, ← Nat.two_pow_add_eq_or_of_lt hy, ← hmod]
  rfl

section Quads

variable (b0 b1 b2 : UInt8)

/-- The six bits of a triple from bit `k` on. -/
def sextet (k : Nat) : UInt8 :=
  UInt8.ofNat ((b0.toNat * 65536 + b1.toNat * 256 + b2.toNat) / 2 ^ k % 64)

theorem sextet_toNat (k : Nat) :
    (sextet b0 b1 b2 k).toNat = (b0.toNat * 65536 + b1.toNat * 256 + b2.toNat) / 2 ^ k % 64 := by
  have hlt : (b0.toNat * 65536 + b1.toNat * 256 + b2.toNat) / 2 ^ k % 64 < 64 := Nat.mod_lt _ (by decide)
  exact UInt8.toNat_ofNat_of_lt' (hlt.trans (by decide))

theorem symbolValue_triple {k : Nat} (hk : k < 32) :
    symbolValue (symbolByte (triple b0 b1 b2 >>> UInt32.ofNat k)) = .ok (sextet b0 b1 b2 k) := by
  rw [symbolValue_symbolByte, shiftRight_toNat _ hk, triple_toNat]
  rfl

theorem symbolValue_first : symbolValue (symbolByte (triple b0 b1 b2 >>> 18)) = .ok (sextet b0 b1 b2 18) :=
  symbolValue_triple b0 b1 b2 (by decide)

theorem symbolValue_second : symbolValue (symbolByte (triple b0 b1 b2 >>> 12)) = .ok (sextet b0 b1 b2 12) :=
  symbolValue_triple b0 b1 b2 (by decide)

theorem symbolValue_third : symbolValue (symbolByte (triple b0 b1 b2 >>> 6)) = .ok (sextet b0 b1 b2 6) :=
  symbolValue_triple b0 b1 b2 (by decide)

theorem symbolValue_fourth : symbolValue (symbolByte (triple b0 b1 b2)) = .ok (sextet b0 b1 b2 0) := by
  rw [symbolValue_symbolByte, triple_toNat, sextet, Nat.pow_zero, Nat.div_one]

theorem first_byte : (sextet b0 b1 b2 18 <<< 2 ||| sextet b0 b1 b2 12 >>> 4) = b0 := by
  have h0 := b0.toNat_lt
  have h1 := b1.toNat_lt
  have h2 := b2.toNat_lt
  have hlow : (sextet b0 b1 b2 12 >>> 4).toNat = (sextet b0 b1 b2 12).toNat / 2 ^ 4 :=
    Nat.shiftRight_eq_div_pow _ _
  have hhigh := sextet_toNat b0 b1 b2 18
  have hmid := sextet_toNat b0 b1 b2 12
  apply UInt8.toNat_inj.1
  refine (shiftLeft_or_toNat _ _ (k := 2) (by decide) (by omega)).trans ?_
  omega

theorem second_byte : (sextet b0 b1 b2 12 <<< 4 ||| sextet b0 b1 b2 6 >>> 2) = b1 := by
  have h0 := b0.toNat_lt
  have h1 := b1.toNat_lt
  have h2 := b2.toNat_lt
  have hlow : (sextet b0 b1 b2 6 >>> 2).toNat = (sextet b0 b1 b2 6).toNat / 2 ^ 2 :=
    Nat.shiftRight_eq_div_pow _ _
  have hhigh := sextet_toNat b0 b1 b2 12
  have hmid := sextet_toNat b0 b1 b2 6
  apply UInt8.toNat_inj.1
  refine (shiftLeft_or_toNat _ _ (k := 4) (by decide) (by omega)).trans ?_
  omega

theorem third_byte : (sextet b0 b1 b2 6 <<< 6 ||| sextet b0 b1 b2 0) = b2 := by
  have h0 := b0.toNat_lt
  have h1 := b1.toNat_lt
  have h2 := b2.toNat_lt
  have hhigh := sextet_toNat b0 b1 b2 6
  have hlow := sextet_toNat b0 b1 b2 0
  apply UInt8.toNat_inj.1
  refine (shiftLeft_or_toNat _ _ (k := 6) (by decide) (by omega)).trans ?_
  omega

/-- Four symbols give three bytes. -/
theorem decodeQuads_four {rest more : Bytes} (h : decodeQuads rest = .ok more) :
    decodeQuads (symbolByte (triple b0 b1 b2 >>> 18) :: symbolByte (triple b0 b1 b2 >>> 12) ::
      symbolByte (triple b0 b1 b2 >>> 6) :: symbolByte (triple b0 b1 b2) :: rest) =
      .ok (b0 :: b1 :: b2 :: more) := by
  rw [decodeQuads, if_neg (symbolByte_ne_pad _)]
  simp only [symbolOrZero_symbolByte, symbolValue_first, symbolValue_second, symbolValue_third,
    symbolValue_fourth, h, bind, Except.bind, symbolByte_ne_pad, if_false, first_byte, second_byte, third_byte]
  rfl

/-- Three give two. -/
theorem decodeQuads_three :
    decodeQuads [symbolByte (triple b0 b1 0 >>> 18), symbolByte (triple b0 b1 0 >>> 12),
      symbolByte (triple b0 b1 0 >>> 6), 61] = .ok [b0, b1] := by
  rw [decodeQuads, if_neg (symbolByte_ne_pad _)]
  simp only [symbolOrZero_symbolByte, symbolValue_first, symbolValue_second, symbolValue_third, bind, Except.bind,
    symbolByte_ne_pad, if_false, first_byte, second_byte]
  rfl

/-- Two give one. -/
theorem decodeQuads_two :
    decodeQuads [symbolByte (triple b0 0 0 >>> 18), symbolByte (triple b0 0 0 >>> 12), 61, 61] = .ok [b0] := by
  rw [decodeQuads, if_neg (symbolByte_ne_pad _)]
  simp only [symbolValue_first, symbolValue_second, bind, Except.bind, first_byte]
  rfl

end Quads

/-! ## Round trip -/

/-- The bytes of a text in the standard alphabet read back. -/
theorem decodeQuads_encodeChunks : ∀ data : Bytes,
    decodeQuads ((encodeChunks false data).flatMap String.utf8EncodeChar) = .ok data
  | [] => rfl
  | [b0] => by
      have hpad : (pad false 2).flatMap String.utf8EncodeChar = [61, 61] := rfl
      rw [encodeChunks]
      simp only [List.flatMap_cons, utf8EncodeChar_symbol, hpad]
      exact decodeQuads_two b0
  | [b0, b1] => by
      have hpad : (pad false 1).flatMap String.utf8EncodeChar = [61] := rfl
      rw [encodeChunks]
      simp only [List.flatMap_cons, utf8EncodeChar_symbol, hpad]
      exact decodeQuads_three b0 b1
  | b0 :: b1 :: b2 :: data => by
      rw [encodeChunks]
      simp only [List.flatMap_cons, utf8EncodeChar_symbol]
      exact decodeQuads_four b0 b1 b2 (decodeQuads_encodeChunks data)

theorem padded_four (w x y z : UInt8) (bs : Bytes) :
    padded (w :: x :: y :: z :: bs) = w :: x :: y :: z :: padded bs := by
  have hlen : (w :: x :: y :: z :: bs).length % 4 = bs.length % 4 := by
    simp only [List.length_cons]
    omega
  unfold padded
  rw [hlen]
  rfl

/-- The URL form is the padded form in another alphabet, but for its padding. -/
theorem padded_encodeChunks : ∀ data : Bytes,
    padded (((encodeChunks true data).map toStandard).flatMap String.utf8EncodeChar) =
      (encodeChunks false data).flatMap String.utf8EncodeChar
  | [] => rfl
  | [b0] => by
      simp only [encodeChunks, List.map_cons, toStandard_symbol, List.flatMap_cons, utf8EncodeChar_symbol]
      rfl
  | [b0, b1] => by
      simp only [encodeChunks, List.map_cons, toStandard_symbol, List.flatMap_cons, utf8EncodeChar_symbol]
      rfl
  | b0 :: b1 :: b2 :: data => by
      simp only [encodeChunks, List.map_cons, toStandard_symbol, List.flatMap_cons, utf8EncodeChar_symbol,
        List.singleton_append]
      rw [padded_four, padded_encodeChunks data]

theorem newline_not_mem : ∀ {data : Bytes}, '\n' ∉ encodeChunks true data
  | [] => List.not_mem_nil
  | [b0] => by
      simp [encodeChunks, pad, (symbol_ne_newline _).symm]
  | [b0, b1] => by
      simp [encodeChunks, pad, (symbol_ne_newline _).symm]
  | b0 :: b1 :: b2 :: data => by
      simp [encodeChunks, (symbol_ne_newline _).symm, newline_not_mem]

/-- What `b64url` writes, the decoder reads. -/
theorem base64DecodeConfig_b64url (data : Bytes) : base64DecodeConfig (b64url data) true = .ok data := by
  have hfilter : (encodeChunks true data).filter (fun c => c ≠ '\n') = encodeChunks true data := by
    rw [List.filter_eq_self]
    intro c hc
    refine decide_eq_true ?_
    rintro rfl
    exact newline_not_mem hc
  unfold base64DecodeConfig b64url base64EncodeConfig
  simp only [String.toList_ofList, hfilter, if_true, padded_encodeChunks]
  exact decodeQuads_encodeChunks data

theorem length_padded_mod (bs : Bytes) : (padded bs).length % 4 = 0 := by
  unfold padded
  rw [List.length_append, List.length_replicate]
  omega

/-- A length that is a multiple of four is left alone. -/
theorem padded_eq_self {bs : Bytes} (h : bs.length % 4 = 0) : padded bs = bs := by
  unfold padded
  rw [h]
  exact List.append_nil bs

/-- The padded form is read back wherever its lines are broken. -/
theorem base64DecodeConfig_lines {data : Bytes} {s : String}
    (h : s.toList.filter (fun c => c ≠ '\n') = (base64EncodeConfig data false).toList) :
    base64DecodeConfig s false = .ok data := by
  have hlen : ((encodeChunks false data).flatMap String.utf8EncodeChar).length % 4 = 0 := by
    rw [← padded_encodeChunks]
    exact length_padded_mod _
  unfold base64EncodeConfig at h
  rw [String.toList_ofList] at h
  unfold base64DecodeConfig
  simp only [h, Bool.false_eq_true, if_false, padded_eq_self hlen]
  exact decodeQuads_encodeChunks data

theorem b64url_injective : Function.Injective b64url := by
  intro a b h
  have hdec := base64DecodeConfig_b64url a
  rw [h, base64DecodeConfig_b64url] at hdec
  exact (Except.ok.inj hdec).symm

/-! ## Reads by index -/

/-- Four bytes are there, the rest of the slice after them. -/
theorem drop_eq_four {bytes : Bytes} {i : Nat} (h : i + 3 < bytes.length) :
    ∃ b0 b1 b2 b3, bytes[i]? = some b0 ∧ bytes[i + 1]? = some b1 ∧ bytes[i + 2]? = some b2 ∧
      bytes[i + 3]? = some b3 ∧ bytes.drop i = b0 :: b1 :: b2 :: b3 :: bytes.drop (i + 4) := by
  have h0 : i < bytes.length := by omega
  have h1 : i + 1 < bytes.length := by omega
  have h2 : i + 2 < bytes.length := by omega
  refine ⟨bytes[i], bytes[i + 1], bytes[i + 2], bytes[i + 3], List.getElem?_eq_getElem h0,
    List.getElem?_eq_getElem h1, List.getElem?_eq_getElem h2, List.getElem?_eq_getElem h, ?_⟩
  rw [List.drop_eq_getElem_cons h0, List.drop_eq_getElem_cons h1, List.drop_eq_getElem_cons h2,
    List.drop_eq_getElem_cons h]

/-- Fewer than four bytes are not read. -/
theorem decodeQuads_short {bs : Bytes} (h : bs.length < 4) : decodeQuads bs = .ok [] := by
  unfold decodeQuads
  split
  · simp only [List.length_cons] at h
    omega
  · rfl

/-- The loop returns, and what it appends is what the quadruples from `i` on come to. -/
theorem readQuads_eq (bytes : Bytes) (m : Nat) : ∀ {i : Nat} {out : Bytes}, bytes.length - i = m →
    readQuads bytes i out = Panics.returns ((decodeQuads (bytes.drop i)).map (out ++ ·)) := by
  induction m using Nat.strongRecOn with
  | ind m ih =>
    intro i out hm
    rw [readQuads]
    by_cases hin : i + 3 < bytes.length
    · rw [if_pos hin]
      rcases drop_eq_four hin with ⟨b0, b1, b2, b3, h0, h1, h2, h3, hdrop⟩
      have hnext := fun out => @ih (bytes.length - (i + 4)) (by omega) (i + 4) out rfl
      rw [hdrop, decodeQuads]
      simp only [Panics.index_eq h0, Panics.index_eq h1, Panics.index_eq h2, Panics.index_eq h3,
        Panics.returns_ok_bind, Panics.pure_eq_returns, hnext]
      by_cases hend : b0 = 61
      · rw [if_pos hend, if_pos hend]
        simp [Except.map]
      rw [if_neg hend, if_neg hend]
      -- the symbols are looked up in order, and the first that is bad ends the loop
      cases symbolValue b0 with
      | error e => rfl
      | ok a =>
      cases symbolValue b1 with
      | error e => rfl
      | ok b =>
      cases symbolOrZero b2 with
      | error e => rfl
      | ok c =>
      cases symbolOrZero b3 with
      | error e => rfl
      | ok d =>
      cases decodeQuads (bytes.drop (i + 4)) with
      | error e => rfl
      | ok more =>
          simp only [Panics.returns_ok_bind]
          refine congrArg (fun out => Panics.returns (.ok out)) ?_
          split <;> split <;> simp
    · rw [if_neg hin, decodeQuads_short (by rw [List.length_drop]; omega)]
      simp [Except.map]

/-- The decoder reads nothing out of range, whatever the text is. -/
theorem base64DecodeConfigIndexed_eq (s : String) (url : Bool) :
    base64DecodeConfigIndexed s url = Panics.returns (base64DecodeConfig s url) := by
  unfold base64DecodeConfigIndexed base64DecodeConfig
  dsimp only
  rw [readQuads_eq _ _ rfl, List.drop_zero]
  cases decodeQuads _ with
  | error e => rfl
  | ok out => rfl

end Base64
end Crypto
end Thunderducks
