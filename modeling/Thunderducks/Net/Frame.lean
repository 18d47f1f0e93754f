import Thunderducks.Lib.Framing
import Thunderducks.Event.Event

/-!
# Frame — length-prefixed JSON (`td-net/src/frame.rs`, `td-net/src/relay_proto.rs`)

`write_event` and `write_json` put a value on a stream as its length, a big-endian `u32`, and its JSON;
`read_event` and `read_json` take it off again.  Both writers cast the length to `u32` before they compare it
with `MAX_FRAME`, so the comparison sees the length modulo `2^32`.  `readsBack_frames` says for which values
the reader gets back what was written.
-/

namespace Thunderducks
namespace Net

open Lib Event Framing

def maxFrame : UInt32 := 16 * 1024 * 1024

/-- `frame.rs` -/
inductive FrameError
  | io
  | serde
  | tooLarge (len : UInt32)
  | closed
  deriving DecidableEq

/-- `relay_proto.rs` -/
inductive RelayProtoError
  | io
  | serde
  | tooLarge (len : UInt32)
  | closed
  deriving DecidableEq

/-- The errors that the two framings raise, each under its own name. -/
structure FrameErrors (ε : Type) where
  io : ε
  serde : ε
  tooLarge : UInt32 → ε
  closed : ε

section Frames

variable {ε T : Type} [Serialize T] [Deserialize T]

/-! ## Writing and reading one value -/

/-- `body.len() as u32` -/
def lenU32 (body : Bytes) : UInt32 :=
  UInt32.ofNat body.length

/-- The header and the body. -/
def frame (body : Bytes) : Bytes :=
  beBytes 4 (lenU32 body).toNat ++ body

/-- The common body of `write_event` and `write_json`: what it puts on the stream. -/
def writeFrame (err : FrameErrors ε) (value : T) : Except ε Unit × Bytes :=
  let body := toVec value
  let len := lenU32 body
  if maxFrame < len then
    (.error (err.tooLarge len), [])
  else
    (.ok (), frame body)

/-- The common body of `read_event` and `read_json`, with what it leaves of the stream. -/
def readFrame (err : FrameErrors ε) (stream : Bytes) : Except ε T × Bytes :=
  match takeExact 4 stream with
  | none => (.error err.closed, [])
  | some (header, stream) =>
      let len := UInt32.ofNat (beValue header)
      if maxFrame < len then
        (.error (err.tooLarge len), stream)
      else
        match takeExact len.toNat stream with
        | none => (.error err.io, [])
        | some (buf, stream) =>
            match Deserialize.fromSlice buf with
            | none => (.error err.serde, stream)
            | some value => (.ok value, stream)

def eventErrors : FrameErrors FrameError :=
  { io := .io
    serde := .serde
    tooLarge := .tooLarge
    closed := .closed }

def writeEvent (ev : SignedEvent) : Except FrameError Unit × Bytes :=
  writeFrame eventErrors ev

def readEvent [Deserialize SignedEvent] (stream : Bytes) : Except FrameError SignedEvent × Bytes :=
  readFrame eventErrors stream

def relayErrors : FrameErrors RelayProtoError :=
  { io := .io
    serde := .serde
    tooLarge := .tooLarge
    closed := .closed }

def writeJson (value : T) : Except RelayProtoError Unit × Bytes :=
  writeFrame relayErrors value

def readJson (stream : Bytes) : Except RelayProtoError T × Bytes :=
  readFrame relayErrors stream

/-- The reader reads the value from no frame: under no header of four bytes does it take the JSON of the
value off the stream and return the value. -/
def ReaderRefuses (err : FrameErrors ε) (value : T) : Prop :=
  ∀ header : Bytes, header.length = 4 → ∀ rest,
    readFrame err (header ++ toVec value ++ rest) ≠ (.ok value, rest)

/-! ## Lengths -/

omit [Deserialize T] in
theorem writeFrame_ok_iff (err : FrameErrors ε) (value : T) :
    (writeFrame err value).1 = .ok () ↔ (toVec value).length % 2 ^ 32 ≤ 2 ^ 24 := by
  have hlt : maxFrame < lenU32 (toVec value) ↔ 2 ^ 24 < (toVec value).length % 2 ^ 32 := by
    unfold lenU32
    rw [UInt32.lt_iff_toNat_lt, UInt32.toNat_ofNat']
    rfl
  unfold writeFrame
  dsimp only
  by_cases h : maxFrame < lenU32 (toVec value)
  · rw [if_pos h]
    have := hlt.1 h
    constructor
    · intro heq
      cases heq
    · intro hle
      omega
  · rw [if_neg h]
    have := mt hlt.2 h
    constructor
    · intro _
      omega
    · intro _
      rfl

/-- Under a header that announces its length a short body is read. -/
theorem readFrame_frame [RoundTrips T] (err : FrameErrors ε) {value : T}
    (h : (toVec value).length ≤ 2 ^ 24) (rest : Bytes) :
    readFrame err (frame (toVec value) ++ rest) = (.ok value, rest) := by
  have hmod : (toVec value).length % 2 ^ 32 = (toVec value).length := Nat.mod_eq_of_lt (by omega)
  have hlen : (lenU32 (toVec value)).toNat = (toVec value).length := by
    rw [lenU32, UInt32.toNat_ofNat', hmod]
  have hheader : UInt32.ofNat (beValue (beBytes 4 (lenU32 (toVec value)).toNat)) = lenU32 (toVec value) := by
    rw [beValue_beBytes, hlen]
    have h256 : (toVec value).length % 256 ^ 4 = (toVec value).length := Nat.mod_eq_of_lt (by omega)
    rw [h256, lenU32]
  have hsmall : ¬ maxFrame < lenU32 (toVec value) := by
    rw [UInt32.lt_iff_toNat_lt, hlen]
    change ¬ 2 ^ 24 < (toVec value).length
    omega
  have htake : takeExact 4 (frame (toVec value) ++ rest) =
      some (beBytes 4 (lenU32 (toVec value)).toNat, toVec value ++ rest) := by
    have happ := takeExact_append (beBytes 4 (lenU32 (toVec value)).toNat) (toVec value ++ rest)
    rwa [length_beBytes, ← List.append_assoc] at happ
  unfold readFrame
  rw [htake]
  dsimp only
  rw [hheader, if_neg hsmall, hlen, takeExact_append]
  dsimp only
  rw [RoundTrips.read]

/-- The reader refuses exactly the values whose JSON is longer than a frame may be. -/
theorem readerRefuses_iff [RoundTrips T] (err : FrameErrors ε) (value : T) :
    ReaderRefuses err value ↔ 2 ^ 24 < (toVec value).length := by
  constructor
  · intro h
    by_contra hle
    have hle' : (toVec value).length ≤ 2 ^ 24 := Nat.le_of_not_lt hle
    refine h (beBytes 4 (lenU32 (toVec value)).toNat) (length_beBytes 4 _) [] ?_
    exact readFrame_frame err hle' []
  · intro hlong header hheader rest hread
    have htake : takeExact 4 (header ++ toVec value ++ rest) = some (header, toVec value ++ rest) := by
      have happ := takeExact_append header (toVec value ++ rest)
      rwa [hheader, ← List.append_assoc] at happ
    unfold readFrame at hread
    rw [htake] at hread
    dsimp only at hread
    split at hread
    · cases hread
    next hsmall =>
    -- what is read is shorter than the body, so something of it is left before `rest`
    have hlen : (UInt32.ofNat (beValue header)).toNat ≤ 2 ^ 24 := by
      rw [UInt32.lt_iff_toNat_lt] at hsmall
      exact Nat.le_of_not_lt hsmall
    split at hread
    · cases hread
    next buf stream hbuf =>
    have hstream : stream = rest := by
      split at hread
      · cases hread
      · exact congrArg Prod.snd hread
    rcases takeExact_eq_some hbuf with ⟨hsplit, hbuflen⟩
    have hcount := congrArg List.length hsplit
    rw [List.length_append, List.length_append, hstream, hbuflen] at hcount
    omega

theorem not_readerRefuses_iff [RoundTrips T] (err : FrameErrors ε) (value : T) :
    ¬ ReaderRefuses err value ↔ (toVec value).length ≤ 2 ^ 24 := by
  rw [readerRefuses_iff, Nat.not_lt]

/-! ## Sequences -/

omit [Deserialize T] in
theorem writeFrame_ok {err : FrameErrors ε} {value : T} {bs : Bytes}
    (h : ofWriter (writeFrame err) () value = (.ok (), bs, ())) : bs = frame (toVec value) := by
  unfold ofWriter writeFrame at h
  dsimp only at h
  split at h
  · cases h
  · exact (congrArg (fun out => out.2.1) h).symm

/-- A sequence of values, all of whose writes succeeded, is read back to the byte, and has no value in it
that the reader refuses, exactly when the JSON of each is at most `MAX_FRAME` bytes long. -/
theorem readsBack_frames [RoundTrips T] (err : FrameErrors ε) (values : List T) {bs : Bytes}
    (hsent : sendAll (ofWriter (writeFrame err)) () values = (.ok (), bs, ())) :
    ReadsBack (ofReader (readFrame err)) (ReaderRefuses err) (fun _ => True) () bs values ↔
      ∀ value ∈ values, (toVec value).length ≤ 2 ^ 24 := by
  refine readsBack_iff (P := fun _ _ => True) (not_readerRefuses_iff err) ?_ trivial hsent
  intro s r value bs s' rest _ hlen hsend
  refine ⟨(), ?_, trivial⟩
  rw [writeFrame_ok hsend, ofReader, readFrame_frame err hlen]

end Frames

end Net
end Thunderducks
