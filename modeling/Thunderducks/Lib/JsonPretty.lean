import Thunderducks.Lib.JsonUnique

/-!
# JsonPretty — the indented JSON writer

The byte form of `serde_json::to_vec_pretty`: two blanks for each level, a blank after the colon, an
empty array or object on one line.  An object whose values have no parts of their own is read back in
one way only (`prettyFields_append_inj`).
-/

namespace Thunderducks
namespace Lib
namespace Json

/-- A line break and the indentation of a level. -/
def newline (depth : Nat) : Bytes :=
  10 :: List.replicate (2 * depth) 32

/-- The line break before a closing bracket; nothing stands between empty brackets. -/
def closing {α : Type} (depth : Nat) : List α → Bytes
  | [] => []
  | _ :: _ => newline depth

mutual

/-- A value at a level. -/
def pretty (depth : Nat) : Json → Bytes
  | .null => ascii "null"
  | .bool true => ascii "true"
  | .bool false => ascii "false"
  | .num n => digits n
  | .str s => quoted s
  | .arr items => 91 :: (prettyItems (depth + 1) items ++ closing depth items ++ [93])
  | .obj fields => 123 :: (prettyFields (depth + 1) fields ++ closing depth fields ++ [125])

def prettyItems (depth : Nat) : List Json → Bytes
  | [] => []
  | [v] => newline depth ++ pretty depth v
  | v :: w :: vs => newline depth ++ (pretty depth v ++ 44 :: prettyItems depth (w :: vs))

def prettyFields (depth : Nat) : List (String × Json) → Bytes
  | [] => []
  | [(k, v)] => newline depth ++ (quoted k ++ 58 :: 32 :: pretty depth v)
  | (k, v) :: f :: fs =>
      newline depth ++
        (quoted k ++ 58 :: 32 :: (pretty depth v ++ 44 :: prettyFields depth (f :: fs)))

end

/-- A value without parts. -/
def Scalar : Json → Prop
  | .arr _ => False
  | .obj _ => False
  | _ => True

/-- Such a value is written as the compact writer does. -/
theorem pretty_scalar {v : Json} (depth : Nat) (h : v.Scalar) : v.pretty depth = v.render := by
  cases v with
  | null => rfl
  | bool b => cases b <;> rfl
  | num n => simp [pretty, render]
  | str s => simp [pretty, render]
  | arr items => exact False.elim h
  | obj fields => exact False.elim h

/-- What follows a field: the next one, or the end of the object. -/
def prettyRest (depth : Nat) : List (String × Json) → Bytes → Bytes
  | [], r => 10 :: r
  | f :: fs, r => 44 :: (prettyFields depth (f :: fs) ++ 10 :: r)

theorem prettyFields_cons (depth : Nat) (k : String) {v : Json} (fs : List (String × Json))
    (r : Bytes) (h : v.Scalar) :
    prettyFields depth ((k, v) :: fs) ++ 10 :: r =
      newline depth ++ (quoted k ++ 58 :: 32 :: (v.render ++ prettyRest depth fs r)) := by
  cases fs with
  | nil => simp [prettyFields, prettyRest, pretty_scalar depth h]
  | cons f fs => simp [prettyFields, prettyRest, pretty_scalar depth h]

theorem stops_prettyRest (depth : Nat) (fs : List (String × Json)) (r : Bytes) :
    Stops (prettyRest depth fs r) := by
  cases fs with
  | nil => exact stops_cons (by decide)
  | cons f fs => exact stops_cons (by decide)

/-- The fields of an object and what follows them are found again. -/
theorem prettyFields_append_inj (depth : Nat) {r s : Bytes} : ∀ {fs gs : List (String × Json)},
    fs ≠ [] → gs ≠ [] → (∀ f ∈ fs, f.2.Scalar) → (∀ g ∈ gs, g.2.Scalar) →
    prettyFields depth fs ++ 10 :: r = prettyFields depth gs ++ 10 :: s → fs = gs := by
  intro fs
  induction fs with
  | nil =>
      intro gs hne _ _ _ _
      exact absurd rfl hne
  | cons f fs ih =>
      intro gs _ hne hfs hgs h
      cases gs with
      | nil => exact absurd rfl hne
      | cons g gs =>
          rcases f with ⟨k, v⟩
          rcases g with ⟨k', w⟩
          have hv : v.Scalar := hfs (k, v) (by simp)
          have hw : w.Scalar := hgs (k', w) (by simp)
          rw [prettyFields_cons depth k fs r hv, prettyFields_cons depth k' gs s hw] at h
          rcases quoted_append_inj (List.append_cancel_left h) with ⟨rfl, hval⟩
          have hval' := (List.cons.inj (List.cons.inj hval).2).2
          rcases render_append_inj v w (stops_prettyRest depth fs r) (stops_prettyRest depth gs s)
            hval' with ⟨rfl, hrest⟩
          -- a comma goes on, a line break ends the object
          cases fs with
          | nil =>
              cases gs with
              | nil => rfl
              | cons g gs => simp [prettyRest] at hrest
          | cons f fs' =>
              cases gs with
              | nil => simp [prettyRest] at hrest
              | cons g gs' =>
                  have htail : f :: fs' = g :: gs' :=
                    ih (by simp) (by simp) (fun x hx => hfs x (List.mem_cons_of_mem _ hx))
                      (fun x hx => hgs x (List.mem_cons_of_mem _ hx)) (List.cons.inj hrest).2
                  rw [htail]

theorem pretty_obj_injective {depth : Nat} {fs gs : List (String × Json)} (hfs : fs ≠ [])
    (hgs : gs ≠ []) (hsfs : ∀ f ∈ fs, f.2.Scalar) (hsgs : ∀ g ∈ gs, g.2.Scalar)
    (h : (Json.obj fs).pretty depth = (Json.obj gs).pretty depth) : fs = gs := by
  have hobj : ∀ {l : List (String × Json)}, l ≠ [] → (Json.obj l).pretty depth =
      123 :: (prettyFields (depth + 1) l ++ 10 :: (List.replicate (2 * depth) 32 ++ [125])) := by
    intro l hl
    cases l with
    | nil => exact absurd rfl hl
    | cons f l => simp [pretty, closing, newline]
  rw [hobj hfs, hobj hgs] at h
  exact prettyFields_append_inj (depth + 1) hfs hgs hsfs hsgs (List.cons.inj h).2

/-- An object ends with its bracket. -/
theorem getLast?_pretty_obj (depth : Nat) (fs : List (String × Json)) :
    ((Json.obj fs).pretty depth).getLast? = some 125 := by
  have hsplit : (Json.obj fs).pretty depth =
      (123 :: (prettyFields (depth + 1) fs ++ closing depth fs)) ++ [125] := by
    simp [pretty]
  rw [hsplit, List.getLast?_concat]

end Json

/-- `serde_json::to_vec_pretty`. -/
def toVecPretty {α : Type} [Serialize α] (a : α) : Bytes :=
  (Serialize.toJson a).pretty 0

/-! ## Readers of other forms -/

/-- The reader of exactly the texts that `form` writes. -/
@[reducible] noncomputable def Deserialize.ofForm {α : Type} (form : α → Bytes) : Deserialize α :=
  open Classical in
  { fromSlice := fun bs => if h : ∃ a : α, form a = bs then some h.choose else none }

theorem read_ofForm {α : Type} {form : α → Bytes} (hinj : Function.Injective form) (a : α) :
    (Deserialize.ofForm form).fromSlice (form a) = some a := by
  have hex : ∃ b : α, form b = form a := ⟨a, rfl⟩
  have hread : (Deserialize.ofForm form).fromSlice (form a) = some hex.choose := dif_pos hex
  rw [hread, hinj hex.choose_spec]

end Lib
end Thunderducks
