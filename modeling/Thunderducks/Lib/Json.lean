import Mathlib.Algebra.Group.Nat.Defs
import Mathlib.Data.List.Basic

/-!
# Json — the compact JSON writer

The value tree and the byte form that `serde_json::to_vec` writes: no white space, object fields in
the order given, strings escaped as `serde_json` does (the two-character escapes where JSON has
one, `\u00xx` for the other control characters, everything else as raw UTF-8).  The reader is a
parameter (`Deserialize`).
-/

namespace Thunderducks
namespace Lib

/-- A byte string. -/
abbrev Bytes : Type := List UInt8

/-- `u64::to_le_bytes`. -/
def leBytes (n : UInt64) : Bytes :=
  (List.range 8).map fun i => UInt8.ofNat (n.toNat / 256 ^ i)

/-- JSON values; numbers are the unsigned integers. -/
inductive Json
  | null
  | bool (b : Bool)
  | num (n : Nat)
  | str (s : String)
  | arr (items : List Json)
  | obj (fields : List (String × Json))

namespace Json

/-- The bytes of an ASCII text. -/
def ascii (s : String) : Bytes :=
  s.toList.map fun c => UInt8.ofNat c.toNat

def digits (n : Nat) : Bytes :=
  (Nat.toDigits 10 n).map fun c => UInt8.ofNat c.toNat

def hexDigit (n : Nat) : UInt8 :=
  UInt8.ofNat (if n < 10 then 48 + n else 87 + n)

/-- The escape of one character inside a string. -/
def escape (c : Char) : Bytes :=
  if c = '"' then [92, 34]
  else if c = '\\' then [92, 92]
  else if c.toNat = 8 then [92, 98]
  else if c.toNat = 9 then [92, 116]
  else if c.toNat = 10 then [92, 110]
  else if c.toNat = 12 then [92, 102]
  else if c.toNat = 13 then [92, 114]
  else if c.toNat < 32 then [92, 117, 48, 48, hexDigit (c.toNat / 16), hexDigit (c.toNat % 16)]
  else String.utf8EncodeChar c

def quoted (s : String) : Bytes :=
  34 :: (s.toList.flatMap escape ++ [34])

mutual

/-- The bytes `serde_json::to_vec` writes. -/
def render : Json → Bytes
  | .null => ascii "null"
  | .bool true => ascii "true"
  | .bool false => ascii "false"
  | .num n => digits n
  | .str s => quoted s
  | .arr items => 91 :: (renderItems items ++ [93])
  | .obj fields => 123 :: (renderFields fields ++ [125])

def renderItems : List Json → Bytes
  | [] => []
  | [v] => render v
  | v :: w :: vs => render v ++ 44 :: renderItems (w :: vs)

def renderFields : List (String × Json) → Bytes
  | [] => []
  | [(k, v)] => quoted k ++ 58 :: render v
  | (k, v) :: f :: fs => quoted k ++ 58 :: (render v ++ 44 :: renderFields (f :: fs))

end

/-- A byte sequence, which serde writes as an array of numbers. -/
def bytes (bs : Bytes) : Json :=
  .arr (bs.map fun b => .num b.toNat)

end Json

/-! ## The serde traits -/

/-- A type with a JSON form. -/
class Serialize (α : Type) where
  toJson : α → Json

/-- `serde_json::to_vec`. -/
def toVec {α : Type} [Serialize α] (a : α) : Bytes :=
  (Serialize.toJson a).render

/-- A type that `serde_json::from_slice` reads.  The reader is third-party code and a parameter
wherever it is used. -/
class Deserialize (α : Type) where
  fromSlice : Bytes → Option α

/-- Reading what was written gives it back. -/
class RoundTrips (α : Type) [Serialize α] [Deserialize α] : Prop where
  read : ∀ a : α, Deserialize.fromSlice (toVec a) = some a

/-- Values with one written form are one value. -/
theorem RoundTrips.toVec_injective {α : Type} [Serialize α] [Deserialize α] [RoundTrips α] {a b : α}
    (h : toVec a = toVec b) : a = b := by
  have hread : Deserialize.fromSlice (toVec a) = some a := RoundTrips.read a
  rw [h, RoundTrips.read b] at hread
  exact (Option.some.inj hread).symm

/-- A reader that knows the written forms of the values of a table, and no others. -/
@[reducible] def Deserialize.ofTable {α : Type} [Serialize α] (table : List α) : Deserialize α :=
  { fromSlice := fun bs => table.find? fun a => toVec a = bs }

end Lib
end Thunderducks
