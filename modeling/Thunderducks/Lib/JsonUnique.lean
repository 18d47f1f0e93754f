import Thunderducks.Lib.Json

/-!
# JsonUnique — the compact JSON form can be read in one way only

What the writer puts out for a value, followed by anything that does not go on with a digit, splits into
value and rest in one way (`render_append_inj`).  So two values with the same bytes are the same
value (`render_injective`), and a type whose JSON form tells its values apart has a reader
(`roundTrips_ofWritten`).
-/

namespace Thunderducks
namespace Lib
namespace Json

/-! ## Numbers -/

/-- The byte of a decimal digit. -/
def IsDigit (b : UInt8) : Prop :=
  48 ≤ b ∧ b ≤ 57

instance (b : UInt8) : Decidable (IsDigit b) :=
  inferInstanceAs (Decidable (48 ≤ b ∧ b ≤ 57))

/-- The rest of a text that does not go on with a digit. -/
def Stops (r : Bytes) : Prop :=
  ∀ b ∈ r.head?, ¬ IsDigit b

theorem isDigit_char {c : Char} (h : c.isDigit = true) :
    IsDigit (UInt8.ofNat c.toNat) ∧ (UInt8.ofNat c.toNat).toNat = c.toNat := by
  have hc : 48 ≤ c.toNat ∧ c.toNat ≤ 57 := by
    simp only [Char.isDigit, Bool.and_eq_true, decide_eq_true_eq, ge_iff_le,
      UInt32.le_iff_toNat_le] at h
    exact h
  have hsmall : (UInt8.ofNat c.toNat).toNat = c.toNat := by
    rw [UInt8.toNat_ofNat']
    omega
  refine ⟨⟨?_, ?_⟩, hsmall⟩
  · rw [UInt8.le_iff_toNat_le, hsmall]
    exact hc.1
  · rw [UInt8.le_iff_toNat_le, hsmall]
    exact hc.2

theorem isDigit_of_mem_digits {n : Nat} {b : UInt8} (h : b ∈ digits n) : IsDigit b := by
  rcases List.mem_map.1 h with ⟨c, hc, rfl⟩
  exact (isDigit_char (Nat.isDigit_of_mem_toDigits (by decide) (by decide) hc)).1

theorem digits_injective {n m : Nat} (h : digits n = digits m) : n = m := by
  have hdigit : ∀ {k : Nat}, ∀ c ∈ Nat.toDigits 10 k, c.isDigit = true := fun c hc =>
    Nat.isDigit_of_mem_toDigits (by decide) (by decide) hc
  have hinj : ∀ l l' : List Char, (∀ c ∈ l, c.isDigit = true) → (∀ c ∈ l', c.isDigit = true) →
      l.map (fun c => UInt8.ofNat c.toNat) = l'.map (fun c => UInt8.ofNat c.toNat) → l = l' := by
    intro l
    induction l with
    | nil =>
        intro l' _ _ heq
        exact (List.map_eq_nil_iff.1 heq.symm).symm
    | cons c l ih =>
        intro l' hl hl' heq
        cases l' with
        | nil => cases heq
        | cons c' l' =>
            simp only [List.map_cons, List.cons.injEq] at heq
            have hc := (isDigit_char (hl c (by simp))).2
            have hc' := (isDigit_char (hl' c' (by simp))).2
            have hnat : c.toNat = c'.toNat := by
              rw [← hc, ← hc', heq.1]
            have htail := ih l' (fun x hx => hl x (List.mem_cons_of_mem _ hx))
              (fun x hx => hl' x (List.mem_cons_of_mem _ hx)) heq.2
            rw [Char.toNat_inj.1 hnat, htail]
  have hlist := hinj _ _ hdigit hdigit h
  rw [← @Nat.ofDigitChars_ten_toDigits n, hlist, Nat.ofDigitChars_ten_toDigits]

/-- A number ends where its digits do. -/
theorem digits_append_inj {n m : Nat} {r s : Bytes} (hr : Stops r) (hs : Stops s)
    (h : digits n ++ r = digits m ++ s) : n = m ∧ r = s := by
  have hsplit : ∀ {k : Nat} {t : Bytes}, Stops t →
      (digits k ++ t).takeWhile (fun b => decide (IsDigit b)) = digits k := by
    intro k t ht
    have hall : ∀ b ∈ digits k, decide (IsDigit b) = true := fun b hb =>
      decide_eq_true (isDigit_of_mem_digits hb)
    rw [List.takeWhile_append_of_pos hall]
    cases t with
    | nil => simp
    | cons b t =>
        have hb : ¬ IsDigit b := ht b rfl
        simp [hb]
  have hdigits : digits n = digits m := by
    rw [← hsplit hr, h, hsplit hs]
  rw [hdigits] at h
  exact ⟨digits_injective hdigits, List.append_cancel_left h⟩

/-! ## Strings -/

/-- A character starts a text in one way only. -/
theorem utf8_append_inj {c d : Char} {r s : Bytes}
    (h : String.utf8EncodeChar c ++ r = String.utf8EncodeChar d ++ s) : c = d ∧ r = s := by
  have hdec : ∀ (c : Char) (t : Bytes),
      (String.utf8EncodeChar c ++ t).toByteArray.utf8DecodeChar? 0 = some c := by
    intro c t
    rw [List.toByteArray_append]
    exact ByteArray.utf8DecodeChar?_utf8EncodeChar_append
  have hcd : c = d := by
    have hboth := hdec c r
    rw [h, hdec d s] at hboth
    exact (Option.some.inj hboth).symm
  subst hcd
  exact ⟨rfl, List.append_cancel_left h⟩

/-- A raw character that starts with the byte of an ASCII character is that character. -/
theorem utf8_head {c d : Char} {b : UInt8} {r s : Bytes} (hd : String.utf8EncodeChar d = [b])
    (h : String.utf8EncodeChar c ++ r = b :: s) : c = d := by
  refine (utf8_append_inj (?_ : String.utf8EncodeChar c ++ r = String.utf8EncodeChar d ++ s)).1
  rw [h, hd]
  rfl

/-- The character of a two-byte escape, by its second byte. -/
def escaped (b : UInt8) : Char :=
  if b = 34 then '"'
  else if b = 92 then '\\'
  else if b = 98 then Char.ofNat 8
  else if b = 116 then Char.ofNat 9
  else if b = 110 then Char.ofNat 10
  else if b = 102 then Char.ofNat 12
  else Char.ofNat 13

/-- The three forms of an escape. -/
inductive EscapeForm (c : Char) : Bytes → Prop
  | short {b : UInt8} : b ≠ 117 → escaped b = c → EscapeForm c [92, b]
  | hex : c.toNat < 32 → EscapeForm c
      [92, 117, 48, 48, hexDigit (c.toNat / 16), hexDigit (c.toNat % 16)]
  | raw : c ≠ '"' → c ≠ '\\' → EscapeForm c (String.utf8EncodeChar c)

theorem escape_form (c : Char) : EscapeForm c (escape c) := by
  have hchar : ∀ {n : Nat}, n < 55296 → c.toNat = n → Char.ofNat n = c := by
    intro n hn hc
    rw [← hc, Char.ofNat_toNat]
  unfold escape
  split
  next h => exact EscapeForm.short (by decide) h.symm
  split
  next h => exact EscapeForm.short (by decide) h.symm
  split
  next h => exact EscapeForm.short (by decide) (hchar (by decide) h)
  split
  next h => exact EscapeForm.short (by decide) (hchar (by decide) h)
  split
  next h => exact EscapeForm.short (by decide) (hchar (by decide) h)
  split
  next h => exact EscapeForm.short (by decide) (hchar (by decide) h)
  split
  next h => exact EscapeForm.short (by decide) (hchar (by decide) h)
  split
  next h => exact EscapeForm.hex h
  next hq hb _ _ _ _ _ _ => exact EscapeForm.raw hq hb

theorem hexDigit_injective {n m : Nat} (hn : n < 16) (hm : m < 16) (h : hexDigit n = hexDigit m) :
    n = m := by
  have hval : ∀ {k : Nat}, k < 16 → (hexDigit k).toNat = if k < 10 then 48 + k else 87 + k := by
    intro k hk
    unfold hexDigit
    rw [UInt8.toNat_ofNat']
    split <;> omega
  have hnat : (hexDigit n).toNat = (hexDigit m).toNat := by
    rw [h]
  rw [hval hn, hval hm] at hnat
  split at hnat <;> split at hnat <;> omega

theorem escape_append_inj {c d : Char} {r s : Bytes} (h : escape c ++ r = escape d ++ s) :
    c = d ∧ r = s := by
  have hslash : String.utf8EncodeChar '\\' = [92] := by
    decide
  have hc := escape_form c
  have hd := escape_form d
  generalize escape c = bs at h hc
  generalize escape d = bs' at h hd
  -- the first two bytes tell the forms apart
  cases hc with
  | short hne hval =>
      cases hd with
      | short hne' hval' =>
          simp only [List.cons_append, List.nil_append, List.cons.injEq, true_and] at h
          rw [← hval, ← hval', h.1]
          exact ⟨rfl, h.2⟩
      | hex _ =>
          simp only [List.cons_append, List.nil_append, List.cons.injEq, true_and] at h
          exact absurd h.1 hne
      | raw _ hback => exact absurd (utf8_head hslash h.symm) hback
  | hex hlt =>
      cases hd with
      | short hne' _ =>
          simp only [List.cons_append, List.nil_append, List.cons.injEq, true_and] at h
          exact absurd h.1.symm hne'
      | hex hlt' =>
          simp only [List.cons_append, List.nil_append, List.cons.injEq, true_and] at h
          have hhigh := hexDigit_injective (by omega) (by omega) h.1
          have hlow := hexDigit_injective (Nat.mod_lt _ (by decide)) (Nat.mod_lt _ (by decide)) h.2.1
          have hnat : c.toNat = d.toNat := by
            omega
          exact ⟨Char.toNat_inj.1 hnat, h.2.2⟩
      | raw _ hback => exact absurd (utf8_head hslash h.symm) hback
  | raw _ hback =>
      cases hd with
      | short _ _ => exact absurd (utf8_head hslash h) hback
      | hex _ => exact absurd (utf8_head hslash h) hback
      | raw _ _ => exact utf8_append_inj h

/-- No escape starts with the closing quote. -/
theorem escape_ne_quote {c : Char} {r s : Bytes} : escape c ++ r ≠ 34 :: s := by
  have hquote : String.utf8EncodeChar '"' = [34] := by
    decide
  intro h
  have hc := escape_form c
  generalize escape c = bs at h hc
  cases hc with
  | short _ _ => simp at h
  | hex _ => simp at h
  | raw hq _ => exact hq (utf8_head hquote h)

theorem chars_append_inj : ∀ {cs ds : List Char} {r s : Bytes},
    cs.flatMap escape ++ 34 :: r = ds.flatMap escape ++ 34 :: s → cs = ds ∧ r = s := by
  intro cs
  induction cs with
  | nil =>
      intro ds r s h
      cases ds with
      | nil => exact ⟨rfl, by simpa using h⟩
      | cons d ds =>
          simp only [List.flatMap_nil, List.nil_append, List.flatMap_cons, List.append_assoc] at h
          exact absurd h.symm escape_ne_quote
  | cons c cs ih =>
      intro ds r s h
      cases ds with
      | nil =>
          simp only [List.flatMap_nil, List.nil_append, List.flatMap_cons, List.append_assoc] at h
          exact absurd h escape_ne_quote
      | cons d ds =>
          simp only [List.flatMap_cons, List.append_assoc] at h
          rcases escape_append_inj h with ⟨rfl, hrest⟩
          rcases ih hrest with ⟨rfl, hr⟩
          exact ⟨rfl, hr⟩

theorem quoted_append_inj {a b : String} {r s : Bytes} (h : quoted a ++ r = quoted b ++ s) :
    a = b ∧ r = s := by
  simp only [quoted, List.cons_append, List.cons.injEq, true_and, List.append_assoc,
    List.nil_append] at h
  rcases chars_append_inj h with ⟨hchars, hrest⟩
  exact ⟨String.toList_inj.1 hchars, hrest⟩

/-! ## Values -/

/-- The constructor of a value, as its first byte tells it. -/
def shape : Json → Nat
  | .null => 0
  | .bool true => 1
  | .bool false => 2
  | .num _ => 3
  | .str _ => 4
  | .arr _ => 5
  | .obj _ => 6

def shapeOf (b : UInt8) : Nat :=
  if b = 110 then 0
  else if b = 116 then 1
  else if b = 102 then 2
  else if IsDigit b then 3
  else if b = 34 then 4
  else if b = 91 then 5
  else if b = 123 then 6
  else 7

theorem shapeOf_digit {b : UInt8} (h : IsDigit b) : shapeOf b = 3 := by
  have hne : ∀ {k : UInt8}, 57 < k → b ≠ k := by
    rintro k hk rfl
    exact absurd h.2 (UInt8.not_le.2 hk)
  simp [shapeOf, hne, h]

theorem render_head (v : Json) : ∃ b t, v.render = b :: t ∧ shapeOf b = v.shape := by
  cases v with
  | null => exact ⟨_, _, rfl, by decide⟩
  | bool b =>
      cases b with
      | true => exact ⟨_, _, rfl, by decide⟩
      | false => exact ⟨_, _, rfl, by decide⟩
  | num n =>
      have hne : digits n ≠ [] := by
        simp [digits, Nat.toDigits_ne_nil]
      rcases List.exists_cons_of_ne_nil hne with ⟨b, t, heq⟩
      have hb : IsDigit b := isDigit_of_mem_digits (by rw [heq]; simp)
      exact ⟨b, t, by simpa [render] using heq, shapeOf_digit hb⟩
  | str s =>
      have hb : shapeOf 34 = 4 := by
        decide
      exact ⟨34, s.toList.flatMap escape ++ [34], by simp [render, quoted], hb⟩
  | arr items =>
      have hb : shapeOf 91 = 5 := by
        decide
      exact ⟨91, renderItems items ++ [93], by simp [render], hb⟩
  | obj fields =>
      have hb : shapeOf 123 = 6 := by
        decide
      exact ⟨123, renderFields fields ++ [125], by simp [render], hb⟩

theorem shape_eq {v w : Json} {r s : Bytes} (h : v.render ++ r = w.render ++ s) :
    v.shape = w.shape := by
  rcases render_head v with ⟨b, t, hv, hb⟩
  rcases render_head w with ⟨b', t', hw, hb'⟩
  rw [hv, hw] at h
  simp only [List.cons_append, List.cons.injEq] at h
  rw [← hb, ← hb', h.1]

/-- No value starts with a closing bracket. -/
theorem render_ne_close {v : Json} {b : UInt8} {r s : Bytes} (hb : shapeOf b = 7) :
    v.render ++ r ≠ b :: s := by
  intro h
  rcases render_head v with ⟨b', t, hv, hb'⟩
  rw [hv] at h
  simp only [List.cons_append, List.cons.injEq] at h
  rw [h.1, hb] at hb'
  cases v with
  | bool b => cases b <;> cases hb'
  | _ => cases hb'

theorem stops_cons {b : UInt8} {r : Bytes} (h : ¬ IsDigit b) : Stops (b :: r) := by
  intro b' hb'
  cases hb'
  exact h

/-- What follows the first item of an array. -/
def itemsRest : List Json → Bytes → Bytes
  | [], r => 93 :: r
  | v :: vs, r => 44 :: (renderItems (v :: vs) ++ 93 :: r)

theorem renderItems_cons (v : Json) (vs : List Json) (r : Bytes) :
    renderItems (v :: vs) ++ 93 :: r = v.render ++ itemsRest vs r := by
  cases vs with
  | nil => simp [renderItems, itemsRest]
  | cons w vs => simp [renderItems, itemsRest]

theorem stops_itemsRest (vs : List Json) (r : Bytes) : Stops (itemsRest vs r) := by
  cases vs with
  | nil => exact stops_cons (by decide)
  | cons v vs => exact stops_cons (by decide)

/-- What follows the first field of an object. -/
def fieldsRest : List (String × Json) → Bytes → Bytes
  | [], r => 125 :: r
  | f :: fs, r => 44 :: (renderFields (f :: fs) ++ 125 :: r)

theorem renderFields_cons (k : String) (v : Json) (fs : List (String × Json)) (r : Bytes) :
    renderFields ((k, v) :: fs) ++ 125 :: r =
      quoted k ++ 58 :: (v.render ++ fieldsRest fs r) := by
  cases fs with
  | nil => simp [renderFields, fieldsRest]
  | cons f fs => simp [renderFields, fieldsRest]

theorem stops_fieldsRest (fs : List (String × Json)) (r : Bytes) : Stops (fieldsRest fs r) := by
  cases fs with
  | nil => exact stops_cons (by decide)
  | cons f fs => exact stops_cons (by decide)

mutual

theorem render_append_inj : ∀ (v w : Json) {r s : Bytes}, Stops r → Stops s →
    v.render ++ r = w.render ++ s → v = w ∧ r = s
  | v, w, r, s, hr, hs, h => by
      have hshape := shape_eq h
      match v, w, hshape, h with
      | .null, .null, _, h => exact ⟨rfl, List.append_cancel_left h⟩
      | .bool true, .bool true, _, h => exact ⟨rfl, List.append_cancel_left h⟩
      | .bool false, .bool false, _, h => exact ⟨rfl, List.append_cancel_left h⟩
      | .num n, .num m, _, h =>
          rw [render, render] at h
          rcases digits_append_inj hr hs h with ⟨rfl, hrest⟩
          exact ⟨rfl, hrest⟩
      | .str a, .str b, _, h =>
          rw [render, render] at h
          rcases quoted_append_inj h with ⟨rfl, hrest⟩
          exact ⟨rfl, hrest⟩
      | .arr vs, .arr ws, _, h =>
          simp only [render, List.cons_append, List.append_assoc, List.nil_append, List.cons.injEq,
            true_and] at h
          rcases renderItems_append_inj vs ws h with ⟨rfl, hrest⟩
          exact ⟨rfl, hrest⟩
      | .obj fs, .obj gs, _, h =>
          simp only [render, List.cons_append, List.append_assoc, List.nil_append, List.cons.injEq,
            true_and] at h
          rcases renderFields_append_inj fs gs h with ⟨rfl, hrest⟩
          exact ⟨rfl, hrest⟩

theorem renderItems_append_inj : ∀ (vs ws : List Json) {r s : Bytes},
    renderItems vs ++ 93 :: r = renderItems ws ++ 93 :: s → vs = ws ∧ r = s
  | [], [], r, s, h => by
      simpa [renderItems] using h
  | [], w :: ws, r, s, h => by
      rw [renderItems_cons] at h
      exact absurd h.symm (render_ne_close (by decide))
  | v :: vs, [], r, s, h => by
      rw [renderItems_cons] at h
      exact absurd h (render_ne_close (by decide))
  | v :: vs, w :: ws, r, s, h => by
      rw [renderItems_cons, renderItems_cons] at h
      rcases render_append_inj v w (stops_itemsRest vs r) (stops_itemsRest ws s) h with ⟨rfl, hrest⟩
      -- a comma goes on, a bracket ends the array
      cases vs with
      | nil =>
          cases ws with
          | nil => simpa [itemsRest] using hrest
          | cons w ws => simp [itemsRest] at hrest
      | cons v' vs' =>
          cases ws with
          | nil => simp [itemsRest] at hrest
          | cons w' ws' =>
              have htail := renderItems_append_inj (v' :: vs') (w' :: ws') (List.cons.inj hrest).2
              exact ⟨by rw [htail.1], htail.2⟩

theorem renderFields_append_inj : ∀ (fs gs : List (String × Json)) {r s : Bytes},
    renderFields fs ++ 125 :: r = renderFields gs ++ 125 :: s → fs = gs ∧ r = s
  | [], [], r, s, h => by
      simpa [renderFields] using h
  | [], (k, w) :: gs, r, s, h => by
      rw [renderFields_cons] at h
      simp [renderFields, quoted] at h
  | (k, v) :: fs, [], r, s, h => by
      rw [renderFields_cons] at h
      simp [renderFields, quoted] at h
  | (k, v) :: fs, (k', w) :: gs, r, s, h => by
      rw [renderFields_cons, renderFields_cons] at h
      rcases quoted_append_inj h with ⟨rfl, hval⟩
      rcases render_append_inj v w (stops_fieldsRest fs r) (stops_fieldsRest gs s)
        (List.cons.inj hval).2 with ⟨rfl, hrest⟩
      cases fs with
      | nil =>
          cases gs with
          | nil => simpa [fieldsRest] using hrest
          | cons g gs => simp [fieldsRest] at hrest
      | cons f fs' =>
          cases gs with
          | nil => simp [fieldsRest] at hrest
          | cons g gs' =>
              have htail := renderFields_append_inj (f :: fs') (g :: gs') (List.cons.inj hrest).2
              exact ⟨by rw [htail.1], htail.2⟩

end

/-- Two values with the same bytes are the same value. -/
theorem render_injective {v w : Json} (h : v.render = w.render) : v = w := by
  have hstop : Stops [] := by
    intro b hb
    cases hb
  exact (render_append_inj v w hstop hstop (by rw [h])).1

/-- The bytes of an array of byte values determine them. -/
theorem bytes_injective {a b : Bytes} (h : Json.bytes a = Json.bytes b) : a = b := by
  have hmap : a.map (fun x => Json.num x.toNat) = b.map (fun x => Json.num x.toNat) :=
    Json.arr.inj h
  refine List.map_injective_iff.2 ?_ hmap
  intro x y hxy
  exact UInt8.toNat_inj.1 (Json.num.inj hxy)

end Json

/-! ## A reader for every injective form -/

/-- The reader of exactly the written forms. -/
@[reducible] noncomputable def Deserialize.ofWritten (α : Type) [Serialize α] : Deserialize α :=
  open Classical in
  { fromSlice := fun bs => if h : ∃ a : α, toVec a = bs then some h.choose else none }

theorem roundTrips_ofWritten {α : Type} [Serialize α]
    (hinj : ∀ a b : α, Serialize.toJson a = Serialize.toJson b → a = b) :
    @RoundTrips α _ (Deserialize.ofWritten α) := by
  let _ := Deserialize.ofWritten α
  refine ⟨fun a => ?_⟩
  have hex : ∃ b : α, toVec b = toVec a := ⟨a, rfl⟩
  have hread : Deserialize.fromSlice (toVec a) = some hex.choose := dif_pos hex
  rw [hread, hinj _ _ (Json.render_injective hex.choose_spec)]
end Lib
end Thunderducks
