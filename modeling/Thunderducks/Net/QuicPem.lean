import Thunderducks.Crypto.Passkey

/-!
# QuicPem — the PEM files of a QUIC identity (`td-net/src/quic.rs`)

`base64_std` is a second encoder, written apart from the one of `td-crypto/src/passkey.rs`: it works on
`chunks(3)`, pushes bytes and makes a `String` of them at the end.  It agrees with the first one, whose
padded form the decoder reads back however its lines are broken.  The PEM files hold it in lines of 64; none
of the conversions on the way there panics.
-/

namespace Thunderducks
namespace Net

open Lib Crypto Base64

/-! ## Encoding -/

/-- `slice::chunks` -/
def chunks {α : Type} (n : Nat) (xs : List α) : List (List α) :=
  if n = 0 ∨ xs = [] then
    []
  else
    xs.take n :: chunks n (xs.drop n)
termination_by xs.length
decreasing_by
  rename_i h
  rw [not_or] at h
  have hpos : 0 < xs.length := List.length_pos_iff.2 h.2
  rw [List.length_drop]
  omega

/-- `const T: &[u8]` -/
def base64StdTable : Vector UInt8 64 :=
  Vector.mk (Json.ascii "ABCDEFGHIJKLMNOPQRSTUVWXYZabcdefghijklmnopqrstuvwxyz0123456789+/").toArray (by decide)

/-- `T[(n & 63) as usize]` -/
def base64StdSymbol (n : UInt32) : UInt8 :=
  base64StdTable.get ⟨(n &&& 63).toNat, and_63_lt n⟩

/-- What one chunk pushes: `none` is the panic of `chunk[0]`. -/
def base64StdChunk (chunk : Bytes) : Option Bytes := do
  let b0 ← chunk[0]?
  let b1 := chunk[1]?.getD 0
  let b2 := chunk[2]?.getD 0
  let n := b0.toUInt32 <<< 16 ||| b1.toUInt32 <<< 8 ||| b2.toUInt32
  some
    [base64StdSymbol (n >>> 18), base64StdSymbol (n >>> 12),
      if chunk.length > 1 then base64StdSymbol (n >>> 6) else 61,
      if chunk.length > 2 then base64StdSymbol n else 61]

/-- `String::from_utf8(out).expect(..)` panics where the bytes are not UTF-8. -/
def base64Std (data : Bytes) : Option String := do
  let out ← (chunks 3 data).mapM base64StdChunk
  String.fromUTF8? out.flatten.toByteArray

/-! ## PEM -/

/-- A label around the base64 text in lines of 64: `none` is a panic of `from_utf8(chunk).unwrap()`. -/
def pemBlock (label : String) (der : Bytes) : Option String := do
  let b64 ← base64Std der
  let lines ← (chunks 64 (b64.toList.flatMap String.utf8EncodeChar)).mapM fun chunk =>
    String.fromUTF8? chunk.toByteArray
  some ("-----BEGIN " ++ label ++ "-----\n" ++ String.join (lines.map fun line => line ++ "\n") ++
    "-----END " ++ label ++ "-----\n")

/-- `cert_pem` of `write_self_signed_pem`. -/
def certPem (certs : List Bytes) : Option String := do
  let blocks ← certs.mapM (pemBlock "CERTIFICATE")
  some (String.join blocks)

/-- `key_pem` of `write_self_signed_pem`. -/
def keyPem (keyRaw : Bytes) : Option String :=
  pemBlock "PRIVATE KEY" keyRaw

/-! ## The other encoder -/

/-- Both tables hold the same symbols, one as bytes and one as characters. -/
theorem base64StdSymbol_eq (n : UInt32) : base64StdSymbol n = symbolByte n := by
  have htables : ∀ i : Fin 64, base64StdTable.get i = UInt8.ofNat (tableStd.get i).toNat := by
    decide +kernel
  exact htables _

theorem chunks_nil {α : Type} (n : Nat) : chunks n ([] : List α) = [] := by
  rw [chunks, if_pos (Or.inr rfl)]

/-- The last chunk may be short. -/
theorem chunks_short {α : Type} {n : Nat} {xs : List α} (hne : xs ≠ []) (hlen : xs.length ≤ n) :
    chunks n xs = [xs] := by
  have hn : n ≠ 0 := by
    rintro rfl
    exact hne (List.eq_nil_of_length_eq_zero (Nat.le_zero.1 hlen))
  rw [chunks, if_neg (not_or.2 ⟨hn, hne⟩), List.take_of_length_le hlen, List.drop_eq_nil_of_le hlen, chunks_nil]

theorem chunks_three (b0 b1 b2 : UInt8) (data : Bytes) :
    chunks 3 (b0 :: b1 :: b2 :: data) = [b0, b1, b2] :: chunks 3 data := by
  rw [chunks, if_neg (by simp)]
  rfl

/-- No chunk panics, and what they push are the bytes of the padded text. -/
theorem flatten_base64StdChunks : ∀ data : Bytes,
    ((chunks 3 data).mapM base64StdChunk).map List.flatten =
      some ((encodeChunks false data).flatMap String.utf8EncodeChar)
  | [] => by
      rw [chunks_nil]
      rfl
  | [b0] => by
      rw [chunks_short (by simp) (by simp)]
      simp only [encodeChunks, List.flatMap_cons, utf8EncodeChar_symbol, ← base64StdSymbol_eq]
      rfl
  | [b0, b1] => by
      rw [chunks_short (by simp) (by simp)]
      simp only [encodeChunks, List.flatMap_cons, utf8EncodeChar_symbol, ← base64StdSymbol_eq]
      rfl
  | b0 :: b1 :: b2 :: data => by
      rcases Option.map_eq_some_iff.1 (flatten_base64StdChunks data) with ⟨out, hout, hflat⟩
      rw [chunks_three, List.mapM_cons, hout, encodeChunks]
      simp only [List.flatMap_cons, utf8EncodeChar_symbol, ← base64StdSymbol_eq, ← hflat]
      rfl

/-- The bytes of a text are UTF-8. -/
theorem fromUTF8?_flatMap (cs : List Char) :
    String.fromUTF8? (cs.flatMap String.utf8EncodeChar).toByteArray = some (String.ofList cs) := by
  have hvalid : (cs.flatMap String.utf8EncodeChar).toByteArray.IsValidUTF8 :=
    ByteArray.isValidUTF8_utf8Encode
  unfold String.fromUTF8?
  rw [dif_pos hvalid]
  refine congrArg some (String.toByteArray_inj.1 ?_)
  rw [String.toByteArray_ofList]
  rfl

/-- The two encoders agree. -/
theorem base64Std_eq (data : Bytes) : base64Std data = some (base64EncodeConfig data false) := by
  rcases Option.map_eq_some_iff.1 (flatten_base64StdChunks data) with ⟨out, hout, hflat⟩
  unfold base64Std base64EncodeConfig
  rw [hout, ← fromUTF8?_flatMap, ← hflat]
  rfl

/-! ## No panic -/

theorem chunks_flatten {α : Type} (n : Nat) (hn : n ≠ 0) (m : Nat) : ∀ {xs : List α}, xs.length = m →
    (chunks n xs).flatten = xs := by
  induction m using Nat.strongRecOn with
  | ind m ih =>
    intro xs hm
    rw [chunks]
    by_cases hxs : xs = []
    · rw [if_pos (Or.inr hxs), hxs]
      rfl
    · have hless : (xs.drop n).length < m := by
        have hpos : 0 < xs.length := List.length_pos_iff.2 hxs
        rw [List.length_drop]
        omega
      rw [if_neg (not_or.2 ⟨hn, hxs⟩), List.flatten_cons, ih _ hless rfl, List.take_append_drop]

/-- Bytes of ASCII characters are characters one by one. -/
theorem eq_flatMap_of_ascii {bs : Bytes} (h : ∀ b ∈ bs, b.toNat < 128) :
    ∃ cs : List Char, bs = cs.flatMap String.utf8EncodeChar := by
  induction bs with
  | nil => exact ⟨[], rfl⟩
  | cons b bs ih =>
      rcases ih fun b' hb' => h b' (List.mem_cons_of_mem b hb') with ⟨cs, rfl⟩
      have hascii : ∀ n : Fin 128, String.utf8EncodeChar (Char.ofNat n) = [UInt8.ofNat n] := by
        decide +kernel
      have hb := hascii ⟨b.toNat, h b List.mem_cons_self⟩
      refine ⟨Char.ofNat b.toNat :: cs, ?_⟩
      rw [List.flatMap_cons, hb, UInt8.ofNat_toNat]
      rfl

/-- Every chunk of ASCII bytes is a string. -/
theorem mapM_fromUTF8?_chunks {bs : Bytes} (h : ∀ b ∈ bs, b.toNat < 128) (n : Nat) :
    ∃ lines, (chunks n bs).mapM (fun chunk => String.fromUTF8? chunk.toByteArray) = some lines := by
  refine exists_mapM fun chunk hchunk => ?_
  -- a chunk of ASCII is ASCII
  have hascii : ∀ b ∈ chunk, b.toNat < 128 := by
    intro b hb
    by_cases hn : n = 0
    · rw [chunks, if_pos (Or.inl hn)] at hchunk
      cases hchunk
    · have hflat : (chunks n bs).flatten = bs := chunks_flatten n hn _ rfl
      have hmem : b ∈ (chunks n bs).flatten := List.mem_flatten.2 ⟨chunk, hchunk, hb⟩
      rw [hflat] at hmem
      exact h b hmem
  rcases eq_flatMap_of_ascii hascii with ⟨cs, rfl⟩
  exact ⟨String.ofList cs, fromUTF8?_flatMap cs⟩

theorem symbolByte_ascii (n : UInt32) : (symbolByte n).toNat < 128 := by
  have hall : ∀ i : Fin 64, (UInt8.ofNat (tableStd.get i).toNat).toNat < 128 := by
    decide
  unfold symbolByte
  rw [symbol_eq]
  exact hall _

/-- The padded text is ASCII. -/
theorem encodeChunks_ascii : ∀ data : Bytes,
    ∀ b ∈ (encodeChunks false data).flatMap String.utf8EncodeChar, b.toNat < 128
  | [] => by
      intro b hb
      cases hb
  | [b0] => by
      have hpad : (pad false 2).flatMap String.utf8EncodeChar = [61, 61] := rfl
      simp only [encodeChunks, List.flatMap_cons, utf8EncodeChar_symbol, hpad]
      simp [symbolByte_ascii]
  | [b0, b1] => by
      have hpad : (pad false 1).flatMap String.utf8EncodeChar = [61] := rfl
      simp only [encodeChunks, List.flatMap_cons, utf8EncodeChar_symbol, hpad]
      simp [symbolByte_ascii]
  | b0 :: b1 :: b2 :: data => by
      have ih := encodeChunks_ascii data
      intro b hb
      simp only [encodeChunks, List.flatMap_cons, utf8EncodeChar_symbol, List.singleton_append,
        List.mem_cons] at hb
      rcases hb with rfl | rfl | rfl | rfl | hb
      · exact symbolByte_ascii _
      · exact symbolByte_ascii _
      · exact symbolByte_ascii _
      · exact symbolByte_ascii _
      · exact ih b hb

theorem pemBlock_isSome (label : String) (der : Bytes) : (pemBlock label der).isSome = true := by
  rcases mapM_fromUTF8?_chunks (encodeChunks_ascii der) 64 with ⟨lines, hlines⟩
  unfold pemBlock
  rw [base64Std_eq]
  dsimp only [Option.bind_eq_bind, Option.bind_some]
  rw [base64EncodeConfig, String.toList_ofList, hlines]
  rfl

theorem certPem_isSome (certs : List Bytes) : (certPem certs).isSome = true := by
  have hblocks : ∃ blocks, certs.mapM (pemBlock "CERTIFICATE") = some blocks :=
    exists_mapM fun cert _ => Option.isSome_iff_exists.1 (pemBlock_isSome "CERTIFICATE" cert)
  rcases hblocks with ⟨blocks, hblocks⟩
  unfold certPem
  rw [hblocks]
  rfl

/-! ## Every encoder and the decoder -/

/-- For every byte string, both encoders and the decoder agree, and for every text the decoder stays in
range. -/
theorem base64_agrees (x : Bytes) :
    b64urlDecode (b64url x) = .ok x ∧
    base64Std x = some (base64EncodeConfig x false) ∧
    (∀ s : String, s.toList.filter (fun c => c ≠ '\n') = (base64EncodeConfig x false).toList →
      base64DecodeConfig s false = .ok x) ∧
    ∀ (s : String) (url : Bool),
      base64DecodeConfigIndexed s url = Panics.returns (base64DecodeConfig s url) := by
  refine ⟨?_, base64Std_eq x, ?_, base64DecodeConfigIndexed_eq⟩
  · unfold b64urlDecode
    rw [base64DecodeConfig_b64url]
    rfl
  · intro s hs
    exact base64DecodeConfig_lines hs

/-- Four bytes, the padded form over two lines. -/
theorem base64_agrees_duck : base64DecodeConfig "ZHVj\naw==\n" false = .ok (Json.ascii "duck") :=
  (base64_agrees (Json.ascii "duck")).2.2.1 "ZHVj\naw==\n" (by decide)

end Net
end Thunderducks
