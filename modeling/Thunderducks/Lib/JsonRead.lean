import Thunderducks.Lib.JsonUnique

/-!
# JsonRead — reading the compact JSON form

`Json.read` reads the values that `Json.render` writes: no white space, numbers without sign, fraction or
exponent.  Escapes are read as `serde_json` reads them, but for surrogate pairs.  Two bytes of fuel for each
byte of text are enough, so a text is read with twice its length; `read_render` says that every value comes
back.
-/

namespace Thunderducks
namespace Lib
namespace Json

/-! ## Literals and numbers -/

/-- The rest of a text after the bytes it has to start with. -/
def strip : (lit bs : Bytes) → Option Bytes
  | [], bs => some bs
  | _ :: _, [] => none
  | a :: lit, b :: bs => if a = b then strip lit bs else none

theorem strip_append (lit r : Bytes) : strip lit (lit ++ r) = some r := by
  induction lit with
  | nil => rfl
  | cons a lit ih =>
      rw [List.cons_append, strip, if_pos rfl]
      exact ih

def isDigit (b : UInt8) : Bool :=
  IsDigit b

/-- The number whose decimal digits stand at the head of a text; none has a leading zero. -/
def readNum (bs : Bytes) : Option (Nat × Bytes) :=
  let ds := bs.takeWhile isDigit
  let n := Nat.ofDigitChars 10 (ds.map fun b => Char.ofNat b.toNat) 0
  if digits n = ds then some (n, bs.dropWhile isDigit) else none

theorem takeWhile_digits {n : Nat} {r : Bytes} (hr : Stops r) :
    (digits n ++ r).takeWhile isDigit = digits n ∧ (digits n ++ r).dropWhile isDigit = r := by
  have hall : ∀ b ∈ digits n, isDigit b = true := fun b hb => decide_eq_true (isDigit_of_mem_digits hb)
  have hstop : r.takeWhile isDigit = [] ∧ r.dropWhile isDigit = r := by
    cases r with
    | nil => exact ⟨rfl, rfl⟩
    | cons b r =>
        have hb : isDigit b = false := decide_eq_false (hr b rfl)
        simp [hb]
  constructor
  · rw [List.takeWhile_append_of_pos hall, hstop.1, List.append_nil]
  · rw [List.dropWhile_append_of_pos hall, hstop.2]

/-- The characters of the digits come back from their bytes. -/
theorem chars_digits (n : Nat) :
    (digits n).map (fun b => Char.ofNat b.toNat) = Nat.toDigits 10 n := by
  have hdigit : ∀ c ∈ Nat.toDigits 10 n, Char.ofNat (UInt8.ofNat c.toNat).toNat = c := by
    intro c hc
    rw [(isDigit_char (Nat.isDigit_of_mem_toDigits (by decide) (by decide) hc)).2, Char.ofNat_toNat]
  unfold digits
  rw [List.map_map]
  calc
    (Nat.toDigits 10 n).map ((fun b : UInt8 => Char.ofNat b.toNat) ∘ fun c => UInt8.ofNat c.toNat)
        = (Nat.toDigits 10 n).map id := List.map_congr_left hdigit
    _ = Nat.toDigits 10 n := List.map_id _

theorem readNum_digits {n : Nat} {r : Bytes} (hr : Stops r) : readNum (digits n ++ r) = some (n, r) := by
  rcases takeWhile_digits hr with ⟨htake, hdrop⟩
  have hval : Nat.ofDigitChars 10 ((digits n).map fun b => Char.ofNat b.toNat) 0 = n := by
    rw [chars_digits]
    exact Nat.ofDigitChars_ten_toDigits
  unfold readNum
  dsimp only
  rw [htake, hdrop, hval, if_pos rfl]

/-! ## Strings -/

def escapeDigit (b : UInt8) : Option Nat :=
  if 48 ≤ b ∧ b ≤ 57 then some (b.toNat - 48)
  else if 97 ≤ b ∧ b ≤ 102 then some (b.toNat - 87)
  else if 65 ≤ b ∧ b ≤ 70 then some (b.toNat - 55)
  else none

/-- The character after a backslash. -/
def readEscape : Bytes → Option (Char × Bytes)
  | 117 :: a :: b :: c :: d :: rest =>
      match escapeDigit a, escapeDigit b, escapeDigit c, escapeDigit d with
      | some a, some b, some c, some d =>
          let n := ((a * 16 + b) * 16 + c) * 16 + d
          if n.isValidChar then some (Char.ofNat n, rest) else none
      | _, _, _, _ => none
  | b :: rest =>
      if b = 47 then some ('/', rest)
      else if b ∈ [34, 92, 98, 116, 110, 102, 114] then some (escaped b, rest)
      else none
  | [] => none

/-- A raw character of a string, no control character. -/
def readRaw (bs : Bytes) : Option (Char × Bytes) :=
  match bs.toByteArray.utf8DecodeChar? 0 with
  | none => none
  | some c => if c.toNat < 32 then none else some (c, bs.drop (String.utf8EncodeChar c).length)

/-- One character of a string. -/
def readChar : Bytes → Option (Char × Bytes)
  | [] => none
  | b :: rest => if b = 92 then readEscape rest else readRaw (b :: rest)

/-- The characters of a string up to its closing quote. -/
def readChars : (fuel : Nat) → Bytes → Option (List Char × Bytes)
  | 0, _ => none
  | fuel + 1, bs =>
      if bs.head? = some 34 then
        some ([], bs.tail)
      else
        match readChar bs with
        | none => none
        | some (c, rest) => (readChars fuel rest).map fun out => (c :: out.1, out.2)

theorem escapeDigit_hexDigit {n : Nat} (h : n < 16) : escapeDigit (hexDigit n) = some n := by
  have hall : ∀ n : Fin 16, escapeDigit (hexDigit n) = some n.val := by
    decide
  exact hall ⟨n, h⟩

theorem readChar_raw {c : Char} (r : Bytes) (hq : ¬ c.toNat < 32) (hback : c ≠ '\\') :
    readChar (String.utf8EncodeChar c ++ r) = some (c, r) := by
  have hslash : String.utf8EncodeChar '\\' = [92] := by
    decide
  have hdec : (String.utf8EncodeChar c ++ r).toByteArray.utf8DecodeChar? 0 = some c := by
    rw [List.toByteArray_append]
    exact ByteArray.utf8DecodeChar?_utf8EncodeChar_append
  have hraw : readRaw (String.utf8EncodeChar c ++ r) = some (c, r) := by
    unfold readRaw
    rw [hdec]
    simp only [if_neg hq, List.drop_left]
  cases hbs : String.utf8EncodeChar c ++ r with
  | nil =>
      rw [hbs] at hraw
      cases hraw
  | cons b rest =>
      have hne : b ≠ 92 := by
        rintro rfl
        exact hback (utf8_head hslash hbs)
      rw [readChar, if_neg hne, ← hbs]
      exact hraw

theorem readChar_short {b : UInt8} (r : Bytes) (hb : b ∈ [34, 92, 98, 116, 110, 102, 114]) :
    readChar (92 :: b :: r) = some (escaped b, r) := by
  simp only [List.mem_cons, List.not_mem_nil, or_false] at hb
  rcases hb with rfl | rfl | rfl | rfl | rfl | rfl | rfl <;> rfl

theorem readChar_hex {c : Char} (r : Bytes) (h : c.toNat < 32) :
    readChar (92 :: 117 :: 48 :: 48 :: hexDigit (c.toNat / 16) :: hexDigit (c.toNat % 16) :: r) =
      some (c, r) := by
  have hzero : escapeDigit 48 = some 0 := by
    decide
  have hhigh : escapeDigit (hexDigit (c.toNat / 16)) = some (c.toNat / 16) := escapeDigit_hexDigit (by omega)
  have hlow : escapeDigit (hexDigit (c.toNat % 16)) = some (c.toNat % 16) := escapeDigit_hexDigit (by omega)
  have hnum : ((0 * 16 + 0) * 16 + c.toNat / 16) * 16 + c.toNat % 16 = c.toNat := by
    omega
  have hvalid : c.toNat.isValidChar := Or.inl (by omega)
  rw [readChar, if_pos rfl, readEscape]
  simp only [hzero, hhigh, hlow, hnum]
  rw [if_pos hvalid, Char.ofNat_toNat]

theorem readChar_escape (c : Char) (r : Bytes) : readChar (escape c ++ r) = some (c, r) := by
  have hchar : ∀ {n : Nat}, c.toNat = n → Char.ofNat n = c := by
    intro n hc
    rw [← hc, Char.ofNat_toNat]
  unfold escape
  split
  next h =>
    rw [h]
    exact readChar_short r (by decide)
  split
  next h =>
    rw [h]
    exact readChar_short r (by decide)
  next hback =>
  split
  next h => exact hchar h ▸ readChar_short r (by decide)
  split
  next h => exact hchar h ▸ readChar_short r (by decide)
  split
  next h => exact hchar h ▸ readChar_short r (by decide)
  split
  next h => exact hchar h ▸ readChar_short r (by decide)
  split
  next h => exact hchar h ▸ readChar_short r (by decide)
  split
  next h => exact readChar_hex r h
  next h => exact readChar_raw r h hback

theorem readChars_escape (cs : List Char) : ∀ {fuel : Nat} {r : Bytes}, cs.length < fuel →
    readChars fuel (cs.flatMap escape ++ 34 :: r) = some (cs, r) := by
  induction cs with
  | nil =>
      intro fuel r h
      cases fuel with
      | zero => exact absurd h (Nat.lt_irrefl 0)
      | succ fuel => rfl
  | cons c cs ih =>
      intro fuel r h
      cases fuel with
      | zero => exact absurd h (Nat.not_lt_zero _)
      | succ fuel =>
          have hsplit : (c :: cs).flatMap escape ++ 34 :: r = escape c ++ (cs.flatMap escape ++ 34 :: r) := by
            simp
          have hhead : (escape c ++ (cs.flatMap escape ++ 34 :: r)).head? ≠ some 34 := by
            intro hq
            rcases List.head?_eq_some_iff.1 hq with ⟨s, hs⟩
            exact escape_ne_quote hs
          rw [hsplit, readChars, if_neg hhead, readChar_escape]
          simp only [ih (Nat.lt_of_succ_lt_succ h), Option.map_some]

theorem length_flatMap_escape (cs : List Char) : cs.length ≤ (cs.flatMap escape).length := by
  induction cs with
  | nil => exact Nat.le_refl 0
  | cons c cs ih =>
      have hpos : 0 < (escape c).length := by
        refine List.length_pos_iff.2 fun hnil => ?_
        have hread := readChar_escape c []
        rw [hnil] at hread
        cases hread
      rw [List.flatMap_cons, List.length_append, List.length_cons]
      omega

/-- A string, after its opening quote. -/
def readString (bs : Bytes) : Option (String × Bytes) :=
  (readChars bs.length bs).map fun out => (String.ofList out.1, out.2)

/-- The string comes back, with what followed it. -/
theorem readString_quoted (s : String) (r : Bytes) :
    ∃ bs, quoted s ++ r = 34 :: bs ∧ readString bs = some (s, r) := by
  refine ⟨s.toList.flatMap escape ++ 34 :: r, by simp [quoted], ?_⟩
  have hfuel : s.toList.length < (s.toList.flatMap escape ++ 34 :: r).length := by
    have hle := length_flatMap_escape s.toList
    rw [List.length_append, List.length_cons]
    omega
  unfold readString
  rw [readChars_escape s.toList hfuel]
  simp

/-! ## Values -/

mutual

def readValue : (fuel : Nat) → Bytes → Option (Json × Bytes)
  | 0, _ => none
  | _ + 1, [] => none
  | fuel + 1, b :: rest =>
      match shapeOf b with
      | 0 => (strip (ascii "ull") rest).map fun rest => (.null, rest)
      | 1 => (strip (ascii "rue") rest).map fun rest => (.bool true, rest)
      | 2 => (strip (ascii "alse") rest).map fun rest => (.bool false, rest)
      | 3 => (readNum (b :: rest)).map fun out => (.num out.1, out.2)
      | 4 => (readString rest).map fun out => (.str out.1, out.2)
      | 5 =>
          if rest.head? = some 93 then
            some (.arr [], rest.tail)
          else
            (readItems fuel rest).map fun out => (.arr out.1, out.2)
      | 6 =>
          if rest.head? = some 125 then
            some (.obj [], rest.tail)
          else
            (readFields fuel rest).map fun out => (.obj out.1, out.2)
      | _ => none

/-- The items of an array up to the closing bracket, of which there is one at least. -/
def readItems : (fuel : Nat) → Bytes → Option (List Json × Bytes)
  | 0, _ => none
  | fuel + 1, bs =>
      match readValue fuel bs with
      | some (v, 44 :: rest) => (readItems fuel rest).map fun out => (v :: out.1, out.2)
      | some (v, 93 :: rest) => some ([v], rest)
      | _ => none

/-- The fields of an object up to the closing brace, of which there is one at least. -/
def readFields : (fuel : Nat) → Bytes → Option (List (String × Json) × Bytes)
  | 0, _ => none
  | fuel + 1, bs =>
      match strip [34] bs with
      | none => none
      | some bs =>
          match readString bs with
          | some (k, 58 :: bs) =>
              match readValue fuel bs with
              | some (v, 44 :: rest) => (readFields fuel rest).map fun out => ((k, v) :: out.1, out.2)
              | some (v, 125 :: rest) => some ([(k, v)], rest)
              | _ => none
          | _ => none

end

/-- The value that a text is the compact form of. -/
def read (bs : Bytes) : Option Json :=
  match readValue (2 * bs.length) bs with
  | some (v, []) => some v
  | _ => none

theorem render_length_pos (v : Json) : 0 < v.render.length := by
  rcases render_head v with ⟨b, t, hv, _⟩
  rw [hv]
  exact Nat.succ_pos _

theorem head_ne_close {v : Json} {r : Bytes} {b : UInt8} (hb : shapeOf b = 7) :
    (v.render ++ r).head? ≠ some b := by
  intro h
  rcases List.head?_eq_some_iff.1 h with ⟨s, hs⟩
  exact render_ne_close hb hs

mutual

theorem readValue_render : ∀ (v : Json) (fuel : Nat) (r : Bytes), Stops r →
    2 * v.render.length ≤ fuel → readValue fuel (v.render ++ r) = some (v, r)
  | v, 0, r, _, hfuel => by
      have hpos := render_length_pos v
      omega
  | .null, fuel + 1, r, _, _ => by
      have hstrip := strip_append (ascii "ull") r
      have hb : shapeOf 110 = 0 := by
        decide
      have hopen : (Json.null).render ++ r = 110 :: (ascii "ull" ++ r) := rfl
      rw [hopen, readValue]
      simp only [hb, hstrip, Option.map_some]
  | .bool true, fuel + 1, r, _, _ => by
      have hstrip := strip_append (ascii "rue") r
      have hb : shapeOf 116 = 1 := by
        decide
      have hopen : (Json.bool true).render ++ r = 116 :: (ascii "rue" ++ r) := rfl
      rw [hopen, readValue]
      simp only [hb, hstrip, Option.map_some]
  | .bool false, fuel + 1, r, _, _ => by
      have hstrip := strip_append (ascii "alse") r
      have hb : shapeOf 102 = 2 := by
        decide
      have hopen : (Json.bool false).render ++ r = 102 :: (ascii "alse" ++ r) := rfl
      rw [hopen, readValue]
      simp only [hb, hstrip, Option.map_some]
  -- the digits end where `r` stops them
  | .num n, fuel + 1, r, hr, _ => by
      rcases render_head (.num n) with ⟨b, t, hv, hb⟩
      have hnum : readNum (b :: (t ++ r)) = some (n, r) := by
        rw [← List.cons_append, ← hv, render]
        exact readNum_digits hr
      rw [hv, List.cons_append, readValue]
      simp only [hb, shape, hnum, Option.map_some]
  | .str s, fuel + 1, r, _, _ => by
      rcases readString_quoted s r with ⟨bs, hbs, hread⟩
      have hb : shapeOf 34 = 4 := by
        decide
      rw [render, hbs, readValue]
      simp only [hb, hread, Option.map_some]
  | .arr items, fuel + 1, r, _, hfuel => by
      have hopen : (Json.arr items).render ++ r = 91 :: (renderItems items ++ 93 :: r) := by
        simp [render]
      have hlen : (Json.arr items).render.length = (renderItems items).length + 2 := by
        simp [render]
      have hb : shapeOf 91 = 5 := by
        decide
      rw [hopen, readValue]
      simp only [hb]
      match items, hlen, hfuel with
      | [], _, _ => simp [renderItems]
      | v :: vs, hlen, hfuel =>
          -- no value begins with the bracket that would close the array
          have hhead : (renderItems (v :: vs) ++ 93 :: r).head? ≠ some 93 := by
            rw [renderItems_cons]
            exact head_ne_close (by decide)
          have hitems := readItems_render v vs fuel r (by omega)
          rw [if_neg hhead, hitems]
          rfl
  | .obj fields, fuel + 1, r, _, hfuel => by
      have hopen : (Json.obj fields).render ++ r = 123 :: (renderFields fields ++ 125 :: r) := by
        simp [render]
      have hlen : (Json.obj fields).render.length = (renderFields fields).length + 2 := by
        simp [render]
      have hb : shapeOf 123 = 6 := by
        decide
      rw [hopen, readValue]
      simp only [hb]
      match fields, hlen, hfuel with
      | [], _, _ => simp [renderFields]
      | (k, v) :: fs, hlen, hfuel =>
          have hhead : (renderFields ((k, v) :: fs) ++ 125 :: r).head? ≠ some 125 := by
            rw [renderFields_cons]
            simp [quoted]
          have hfields := readFields_render k v fs fuel r (by omega)
          rw [if_neg hhead, hfields]
          rfl

theorem readItems_render : ∀ (v : Json) (vs : List Json) (fuel : Nat) (r : Bytes),
    2 * (renderItems (v :: vs)).length + 1 ≤ fuel →
    readItems fuel (renderItems (v :: vs) ++ 93 :: r) = some (v :: vs, r)
  | v, vs, 0, r, hfuel => by
      omega
  | v, [], fuel + 1, r, hfuel => by
      have hlen : (renderItems [v]).length = v.render.length := by
        simp [renderItems]
      have hval := readValue_render v fuel _ (stops_itemsRest [] r) (by omega)
      rw [renderItems_cons, readItems, hval]
      rfl
  | v, w :: vs, fuel + 1, r, hfuel => by
      have hlen : (renderItems (v :: w :: vs)).length =
          v.render.length + (renderItems (w :: vs)).length + 1 := by
        simp [renderItems]
        omega
      have hpos := render_length_pos v
      have hval := readValue_render v fuel _ (stops_itemsRest (w :: vs) r) (by omega)
      have hrest := readItems_render w vs fuel r (by omega)
      rw [renderItems_cons, readItems, hval]
      simp only [itemsRest, hrest, Option.map_some]

theorem readFields_render : ∀ (k : String) (v : Json) (fs : List (String × Json)) (fuel : Nat)
    (r : Bytes), 2 * (renderFields ((k, v) :: fs)).length + 1 ≤ fuel →
    readFields fuel (renderFields ((k, v) :: fs) ++ 125 :: r) = some ((k, v) :: fs, r)
  | k, v, fs, 0, r, hfuel => by
      omega
  | k, v, [], fuel + 1, r, hfuel => by
      have hlen : (renderFields [(k, v)]).length = (quoted k).length + v.render.length + 1 := by
        simp [renderFields]
        omega
      have hval := readValue_render v fuel _ (stops_fieldsRest [] r) (by omega)
      rcases readString_quoted k (58 :: (v.render ++ fieldsRest [] r)) with ⟨bs, hbs, hread⟩
      rw [renderFields_cons, hbs, readFields]
      simp only [strip, if_true, hread]
      rw [hval]
      rfl
  | k, v, (k', w) :: fs, fuel + 1, r, hfuel => by
      have hlen : (renderFields ((k, v) :: (k', w) :: fs)).length =
          (quoted k).length + v.render.length + (renderFields ((k', w) :: fs)).length + 2 := by
        simp [renderFields]
        omega
      have hval := readValue_render v fuel _ (stops_fieldsRest ((k', w) :: fs) r) (by omega)
      have hrest := readFields_render k' w fs fuel r (by omega)
      rcases readString_quoted k (58 :: (v.render ++ fieldsRest ((k', w) :: fs) r)) with
        ⟨bs, hbs, hread⟩
      rw [renderFields_cons, hbs, readFields]
      simp only [strip, if_true, hread]
      rw [hval]
      simp only [fieldsRest, hrest, Option.map_some]

end

/-- Every value comes back from its text. -/
theorem read_render (v : Json) : read v.render = some v := by
  have hstop : Stops [] := by
    intro b hb
    cases hb
  have hval := readValue_render v (2 * v.render.length) [] hstop (Nat.le_refl _)
  rw [List.append_nil] at hval
  unfold read
  rw [hval]

end Json
end Lib
end Thunderducks
