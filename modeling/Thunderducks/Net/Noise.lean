import Thunderducks.Lib.JsonSize
import Thunderducks.Event.ContentAddress
import Thunderducks.Net.Frame

/-!
# Noise — JSON over a Noise transport (`td-net/src/noise.rs`)

The transport of the `snow` crate encrypts messages of at most 65535 bytes and enters as a parameter.
Above it `write_all` cuts a frame into such messages and `read_exact` puts the plaintext together again:
`Delivers` says what a piece of the TCP stream decrypts to.  The frames are those of `Net.Frame`, but
`noise_write_json` has no size check at all.
-/

namespace Thunderducks
namespace Net

open Lib Event Framing

def maxNoiseMsg : Nat := 65535

def tagLen : Nat := 16

/-- `MAX_NOISE_MSG - TAG_LEN - 4` -/
def maxPlain : Nat := maxNoiseMsg - tagLen - 4

/-- The states of `snow::TransportState` after the handshake.  A message can be refused. -/
class NoiseTransport where
  Transport : Type
  writeMessage : Transport → Bytes → Option (Bytes × Transport)
  readMessage : Transport → Bytes → Option (Bytes × Transport)

open NoiseTransport

/-- What the Noise protocol promises of the two ends of one handshake: a message that one end wrote is its
payload and a tag longer, and the other end, if it has read all messages before, reads the payload. -/
class NoiseLaws [NoiseTransport] where
  Paired : Transport → Transport → Prop
  written : ∀ {a b a' : Transport} {payload c : Bytes}, Paired a b →
    writeMessage a payload = some (c, a') →
    c.length = payload.length + tagLen ∧ ∃ b', readMessage b c = some (payload, b') ∧ Paired a' b'

/-- A message that leaves room for its tag is written. -/
class NoiseSends [NoiseTransport] [NoiseLaws] : Prop where
  sends : ∀ {a b : Transport} {payload : Bytes}, NoiseLaws.Paired a b →
    payload.length + tagLen ≤ maxNoiseMsg → ∃ c a', writeMessage a payload = some (c, a')

/-- The text of a third-party error is left out. -/
inductive NoiseError
  | snow
  | io
  | tooLarge
  | closed
  deriving DecidableEq

section Stream

variable [NoiseTransport]

/-- Bidirectional Noise-secured stream: the reading side. -/
structure NoiseTcpStream where
  transport : Transport
  /-- Leftover decrypted bytes from a previous `read_exact`-style fill. -/
  readBuf : Bytes
  readPos : Nat

namespace NoiseTcpStream

/-- The stream right after the handshake. -/
def new (transport : Transport) : NoiseTcpStream :=
  { transport := transport
    readBuf := []
    readPos := 0 }

/-- The decrypted bytes that nobody has read yet. -/
def unread (s : NoiseTcpStream) : Bytes :=
  s.readBuf.drop s.readPos

end NoiseTcpStream

/-! ## Messages -/

/-- Write a full application message: what goes on the TCP stream. -/
def writeMsg (t : Transport) (payload : Bytes) : Except NoiseError Unit × Bytes × Transport :=
  if maxNoiseMsg < payload.length + tagLen then
    (.error .tooLarge, [], t)
  else
    match writeMessage t payload with
    | none => (.error .snow, [], t)
    | some (c, t) => (.ok (), beBytes 2 c.length ++ c, t)

/-- Read one application message. -/
def readMsg (s : NoiseTcpStream) (tcp : Bytes) : Except NoiseError Bytes × NoiseTcpStream × Bytes :=
  match takeExact 2 tcp with
  | none => (.error .closed, s, [])
  | some (header, tcp) =>
      let len := beValue header
      if maxNoiseMsg < len then
        (.error .tooLarge, s, tcp)
      else
        match takeExact len tcp with
        | none => (.error .io, s, [])
        | some (enc, tcp) =>
            match readMessage s.transport enc with
            | none => (.error .snow, s, tcp)
            | some (out, t) => (.ok out, { s with transport := t }, tcp)

/-- A message takes its header off the stream. -/
theorem readMsg_shorter {s s' : NoiseTcpStream} {tcp tcp' msg : Bytes}
    (h : readMsg s tcp = (.ok msg, s', tcp')) : tcp'.length < tcp.length := by
  unfold readMsg at h
  split at h
  · cases h
  next header tcp₁ hheader =>
  dsimp only at h
  split at h
  · cases h
  split at h
  · cases h
  next enc tcp₂ henc =>
  split at h
  · cases h
  · cases h
    rcases takeExact_eq_some hheader with ⟨rfl, hlen⟩
    rcases takeExact_eq_some henc with ⟨rfl, _⟩
    simp only [List.length_append]
    omega

/-! ## Byte runs -/

/-- Encrypt and send raw bytes, chunk by chunk. -/
def writeAll (t : Transport) (data : Bytes) : Except NoiseError Unit × Bytes × Transport :=
  if data = [] then
    (.ok (), [], t)
  else
    match writeMsg t (data.take maxPlain) with
    | (.error e, bs, t) => (.error e, bs, t)
    | (.ok (), bs, t) =>
        let (res, more, t) := writeAll t (data.drop maxPlain)
        (res, bs ++ more, t)
termination_by data.length
decreasing_by
  have hpos : 0 < data.length := List.length_pos_iff.2 ‹_›
  rw [List.length_drop]
  have : maxPlain = 65515 := rfl
  omega

/-- Fill a buffer of `want` bytes exactly from the decrypted stream. -/
def readExact (s : NoiseTcpStream) (tcp : Bytes) (want : Nat) :
    Except NoiseError Bytes × NoiseTcpStream × Bytes :=
  if want = 0 then
    (.ok [], s, tcp)
  else if s.readPos < s.readBuf.length then
    let n := min (s.readBuf.length - s.readPos) want
    let (res, s', tcp) := readExact { s with readPos := s.readPos + n } tcp (want - n)
    (res.map fun more => s.unread.take n ++ more, s', tcp)
  else
    match _h : readMsg s tcp with
    | (.error e, s, tcp) => (.error e, s, tcp)
    | (.ok msg, s', tcp') =>
        if msg = [] then
          (.error .closed, { s' with readBuf := msg, readPos := 0 }, tcp')
        else
          readExact { s' with readBuf := msg, readPos := 0 } tcp' want
termination_by want + tcp.length
decreasing_by
  · omega
  · have := readMsg_shorter _h
    omega

/-! ## JSON -/

variable {T : Type} [Serialize T] [Deserialize T]

/-- Length-prefixed JSON over Noise. -/
def noiseWriteJson (t : Transport) (value : T) : Except NoiseError Unit × Bytes × Transport :=
  writeAll t (frame (toVec value))

def noiseReadJson (s : NoiseTcpStream) (tcp : Bytes) :
    Except NoiseError T × NoiseTcpStream × Bytes :=
  match readExact s tcp 4 with
  | (.error e, s, tcp) => (.error e, s, tcp)
  | (.ok lenBuf, s, tcp) =>
      let len := beValue lenBuf
      if 16 * 1024 * 1024 < len then
        (.error .tooLarge, s, tcp)
      else
        match readExact s tcp len with
        | (.error e, s, tcp) => (.error e, s, tcp)
        | (.ok body, s, tcp) =>
            match Deserialize.fromSlice body with
            | none => (.error .snow, s, tcp)
            | some value => (.ok value, s, tcp)

/-- SignedEvent frames over Noise (P2P path). -/
def noiseWriteEvent (t : Transport) (ev : SignedEvent) : Except NoiseError Unit × Bytes × Transport :=
  noiseWriteJson t ev

def noiseReadEvent [Deserialize SignedEvent] (s : NoiseTcpStream) (tcp : Bytes) :
    Except NoiseError SignedEvent × NoiseTcpStream × Bytes :=
  noiseReadJson s tcp

/-! ## What the TCP stream decrypts to -/

/-- From transport state `t` the front of `tcp` decrypts, message by message, to `plain`, which leaves the
state `t'` and the stream `rest`. -/
inductive Delivers : (t : Transport) → (tcp plain : Bytes) → (t' : Transport) → (rest : Bytes) → Prop
  | done {t : Transport} {rest : Bytes} : Delivers t rest [] t rest
  | msg {t t₁ t' : Transport} {c payload tcp plain rest : Bytes} : payload ≠ [] →
      c.length ≤ maxNoiseMsg → readMessage t c = some (payload, t₁) → Delivers t₁ tcp plain t' rest →
      Delivers t (beBytes 2 c.length ++ c ++ tcp) (payload ++ plain) t' rest

/-- Nothing is left to decrypt: the stream is at its end. -/
theorem Delivers.eq_of_nil {t t' : Transport} {tcp rest : Bytes} (h : Delivers t tcp [] t' rest) :
    t = t' ∧ tcp = rest := by
  generalize hplain : ([] : Bytes) = plain at h
  cases h with
  | done => exact ⟨rfl, rfl⟩
  | msg hne _ _ _ => exact absurd (List.append_eq_nil_iff.1 hplain.symm).1 hne

/-- The message at the front of the stream is read. -/
theorem readMsg_front {s : NoiseTcpStream} {c payload : Bytes} {t₁ : Transport} (tcp : Bytes)
    (hlen : c.length ≤ maxNoiseMsg) (hread : readMessage s.transport c = some (payload, t₁)) :
    readMsg s (beBytes 2 c.length ++ c ++ tcp) = (.ok payload, { s with transport := t₁ }, tcp) := by
  have hheader : takeExact 2 (beBytes 2 c.length ++ c ++ tcp) = some (beBytes 2 c.length, c ++ tcp) := by
    have happ := takeExact_append (beBytes 2 c.length) (c ++ tcp)
    rwa [length_beBytes, ← List.append_assoc] at happ
  have hvalue : beValue (beBytes 2 c.length) = c.length := by
    rw [beValue_beBytes]
    have hle : c.length ≤ 65535 := hlen
    exact Nat.mod_eq_of_lt (by omega)
  unfold readMsg
  rw [hheader]
  dsimp only
  rw [hvalue, if_neg (Nat.not_lt.2 hlen), takeExact_append]
  dsimp only
  rw [hread]

theorem unread_skip (s : NoiseTcpStream) (n : Nat) :
    NoiseTcpStream.unread { s with readPos := s.readPos + n } = s.unread.drop n := by
  simp [NoiseTcpStream.unread, List.drop_drop]

/-- The iteration that empties the buffer, or as much of it as is wanted. -/
theorem readExact_buffered {s : NoiseTcpStream} {want : Nat} (tcp : Bytes) (hwant : want ≠ 0)
    (hpos : s.readPos < s.readBuf.length) {n : Nat}
    (hn : n = min (s.readBuf.length - s.readPos) want) :
    readExact s tcp want =
      ((readExact { s with readPos := s.readPos + n } tcp (want - n)).1.map
          fun more => s.unread.take n ++ more,
        (readExact { s with readPos := s.readPos + n } tcp (want - n)).2) := by
  subst hn
  rw [readExact, if_neg hwant, if_pos hpos]

/-- The iteration that decrypts one more message. -/
theorem readExact_message {s s' : NoiseTcpStream} {tcp tcp' msg : Bytes} {want : Nat}
    (hwant : want ≠ 0) (hpos : ¬ s.readPos < s.readBuf.length)
    (hmsg : readMsg s tcp = (.ok msg, s', tcp')) (hne : msg ≠ []) :
    readExact s tcp want = readExact { s' with readBuf := msg, readPos := 0 } tcp' want := by
  rw [readExact, if_neg hwant, if_neg hpos]
  split
  next heq =>
    rw [hmsg] at heq
    cases heq
  next heq =>
    rw [hmsg] at heq
    cases heq
    rw [if_neg hne]

/-- As many bytes as have been delivered, decrypted or not, can be read, and what follows them can be read
after them. -/
theorem readExact_delivers (m : Nat) : ∀ {s : NoiseTcpStream} {tcp plain rest : Bytes} {t' : Transport}
    {want : Nat}, want + tcp.length = m → Delivers s.transport tcp plain t' rest →
      want ≤ (s.unread ++ plain).length →
      ∃ s' tcp' plain', readExact s tcp want = (.ok ((s.unread ++ plain).take want), s', tcp') ∧
        Delivers s'.transport tcp' plain' t' rest ∧
        s'.unread ++ plain' = (s.unread ++ plain).drop want := by
  -- every iteration wants less or has less of the stream before it
  induction m using Nat.strongRecOn with
  | ind m ih =>
    intro s tcp plain rest t' want hm h hle
    by_cases hwant : want = 0
    · subst hwant
      refine ⟨s, tcp, plain, ?_, h, rfl⟩
      rw [readExact, if_pos rfl, List.take_zero]
    by_cases hpos : s.readPos < s.readBuf.length
    · obtain ⟨n, hn⟩ : ∃ n, n = min (s.readBuf.length - s.readPos) want := ⟨_, rfl⟩
      have hbuf : n ≤ s.unread.length := by
        rw [NoiseTcpStream.unread, List.length_drop, hn]
        exact Nat.min_le_left _ _
      have hnw : n ≤ want := by
        rw [hn]
        exact Nat.min_le_right _ _
      have hdrop : s.unread.drop n ++ plain = (s.unread ++ plain).drop n :=
        (List.drop_append_of_le_length hbuf).symm
      have hless : want - n + tcp.length < m := by
        omega
      have hle' : want - n ≤
          (NoiseTcpStream.unread { s with readPos := s.readPos + n } ++ plain).length := by
        rw [unread_skip, hdrop, List.length_drop]
        omega
      rcases ih _ hless rfl (s := { s with readPos := s.readPos + n }) h hle' with
        ⟨s', tcp', plain', heq, hdel, hleft⟩
      rw [unread_skip, hdrop] at heq hleft
      refine ⟨s', tcp', plain', ?_, hdel, ?_⟩
      · have htake : s.unread.take n = (s.unread ++ plain).take n :=
          (List.take_append_of_le_length hbuf).symm
        have hjoin : (s.unread ++ plain).take want =
            (s.unread ++ plain).take n ++ ((s.unread ++ plain).drop n).take (want - n) := by
          rw [← List.take_add, Nat.add_sub_cancel' hnw]
        rw [readExact_buffered tcp hwant hpos hn, heq, hjoin, htake]
        rfl
      · rw [hleft, List.drop_drop, Nat.add_sub_cancel' hnw]
    · have hempty : s.unread = [] := by
        rw [NoiseTcpStream.unread]
        exact List.drop_eq_nil_of_le (Nat.le_of_not_lt hpos)
      rw [hempty, List.nil_append] at hle ⊢
      cases h with
      | done =>
          simp only [List.length_nil, Nat.le_zero_eq] at hle
          exact absurd hle hwant
      | @msg _ t₁ _ c payload tcp₁ plain₁ _ hne hlen hread hrest =>
          have hfront := readMsg_front (s := s) tcp₁ hlen hread
          have hless : want + tcp₁.length < m := by
            have := readMsg_shorter hfront
            omega
          have hstep := readExact_message hwant hpos hfront hne
          rcases ih _ hless rfl (s := { transport := t₁, readBuf := payload, readPos := 0 }) hrest hle
            with ⟨s', tcp', plain', heq, hdel, hleft⟩
          refine ⟨s', tcp', plain', ?_, hdel, hleft⟩
          rw [hstep, heq]
          rfl

omit [NoiseTransport] in
/-- No chunk is too long for its message. -/
theorem take_maxPlain_fits (data : Bytes) : (data.take maxPlain).length + tagLen ≤ maxNoiseMsg := by
  have htake : (data.take maxPlain).length ≤ maxPlain := List.length_take_le _ _
  have hplain : maxPlain = 65515 := rfl
  have htag : tagLen = 16 := rfl
  have hmax : maxNoiseMsg = 65535 := rfl
  omega

omit [NoiseTransport] in
theorem length_drop_maxPlain_lt {data : Bytes} (hdata : data ≠ []) : (data.drop maxPlain).length < data.length := by
  have hpos : 0 < data.length := List.length_pos_iff.2 hdata
  have hplain : maxPlain = 65515 := rfl
  rw [List.length_drop]
  omega

/-- What was sent on one end is delivered on the other. -/
theorem writeAll_delivers [NoiseLaws] (m : Nat) : ∀ {a a' b : Transport} {data bs : Bytes},
    data.length = m → NoiseLaws.Paired a b → writeAll a data = (.ok (), bs, a') →
    ∃ b', NoiseLaws.Paired a' b' ∧ ∀ rest, Delivers b (bs ++ rest) data b' rest := by
  induction m using Nat.strongRecOn with
  | ind m ih =>
    intro a a' b data bs hm hpair h
    rw [writeAll] at h
    by_cases hdata : data = []
    · rw [if_pos hdata] at h
      cases h
      subst hdata
      exact ⟨b, hpair, fun rest => Delivers.done⟩
    · rw [if_neg hdata] at h
      rcases hmsg : writeMsg a (data.take maxPlain) with ⟨res, frame, a₁⟩
      rw [hmsg] at h
      cases res with
      | error e => cases h
      | ok u =>
          rcases hrest : writeAll a₁ (data.drop maxPlain) with ⟨res, more, a₂⟩
          simp only [hrest, Prod.mk.injEq] at h
          rcases h with ⟨rfl, rfl, rfl⟩
          -- the first chunk
          have hchunk : ∃ c, frame = beBytes 2 c.length ++ c ∧
              writeMessage a (data.take maxPlain) = some (c, a₁) := by
            unfold writeMsg at hmsg
            split at hmsg
            · cases hmsg
            split at hmsg
            · cases hmsg
            next c t hwrite =>
              cases hmsg
              exact ⟨c, rfl, hwrite⟩
          rcases hchunk with ⟨c, rfl, hwrite⟩
          rcases NoiseLaws.written hpair hwrite with ⟨hlen, b₁, hread, hpair₁⟩
          have hne : data.take maxPlain ≠ [] := by
            intro hnil
            rcases List.take_eq_nil_iff.1 hnil with hzero | hnil
            · cases hzero
            · exact hdata hnil
          have hfits : c.length ≤ maxNoiseMsg := by
            rw [hlen]
            exact take_maxPlain_fits data
          have hless : (data.drop maxPlain).length < m := by
            rw [← hm]
            exact length_drop_maxPlain_lt hdata
          rcases ih _ hless rfl hpair₁ hrest with ⟨b', hpair', hdel⟩
          refine ⟨b', hpair', ?_⟩
          intro rest
          have hfirst := Delivers.msg hne hfits hread (hdel rest)
          rw [List.take_append_drop, ← List.append_assoc] at hfirst
          exact hfirst

/-- A transport that writes what fits takes byte strings of every length. -/
theorem writeAll_ok [NoiseLaws] [NoiseSends] (m : Nat) : ∀ {a b : Transport} {data : Bytes},
    data.length = m → NoiseLaws.Paired a b → ∃ bs a', writeAll a data = (.ok (), bs, a') := by
  induction m using Nat.strongRecOn with
  | ind m ih =>
    intro a b data hm hpair
    rw [writeAll]
    by_cases hdata : data = []
    · rw [if_pos hdata]
      exact ⟨[], a, rfl⟩
    · rw [if_neg hdata]
      -- the first message leaves room for its tag, and the rest is shorter
      have hfits := take_maxPlain_fits data
      rcases NoiseSends.sends hpair hfits with ⟨c, a₁, hwrite⟩
      rcases NoiseLaws.written hpair hwrite with ⟨_, b₁, _, hpair₁⟩
      have hless : (data.drop maxPlain).length < m := by
        rw [← hm]
        exact length_drop_maxPlain_lt hdata
      rcases ih _ hless rfl hpair₁ with ⟨more, a', hrest⟩
      unfold writeMsg
      rw [if_neg (Nat.not_lt.2 hfits), hwrite]
      dsimp only
      rw [hrest]
      exact ⟨_, a', rfl⟩

/-! ## Frames over the transport -/

/-- The errors of the frame reader, as the Noise reader raises them. -/
def noiseErrors : FrameErrors NoiseError :=
  { io := .io
    serde := .snow
    tooLarge := fun _ => .tooLarge
    closed := .closed }

omit [Serialize T] in
/-- What the frame reader takes off the plaintext, `noise_read_json` takes off the stream that delivers it. -/
theorem noiseReadJson_of_readFrame {s : NoiseTcpStream} {tcp plain rest left : Bytes} {t' : Transport}
    {value : T} (h : Delivers s.transport tcp plain t' rest)
    (hread : readFrame noiseErrors (s.unread ++ plain) = (.ok value, left)) :
    ∃ s' tcp' plain', noiseReadJson s tcp = (.ok value, s', tcp') ∧
      Delivers s'.transport tcp' plain' t' rest ∧ s'.unread ++ plain' = left := by
  unfold readFrame at hread
  split at hread
  · cases hread
  next header stream hheader =>
  dsimp only at hread
  split at hread
  · cases hread
  next hsmall =>
  split at hread
  · cases hread
  next buf stream' hbuf =>
  split at hread
  · cases hread
  next value' hvalue =>
  cases hread
  rcases takeExact_eq_some hheader with ⟨hsplit, hfour⟩
  rcases takeExact_eq_some hbuf with ⟨hsplit', hlen⟩
  have hu32 : (UInt32.ofNat (beValue header)).toNat = beValue header := by
    have hlt := beValue_lt header
    rw [hfour] at hlt
    rw [UInt32.toNat_ofNat']
    exact Nat.mod_eq_of_lt hlt
  rw [hu32] at hlen
  have hmax : ¬ 16 * 1024 * 1024 < beValue header := by
    rw [UInt32.lt_iff_toNat_lt, hu32] at hsmall
    exact hsmall
  -- the header, then the body
  have hle : 4 ≤ (s.unread ++ plain).length := by
    rw [hsplit, List.length_append]
    omega
  rcases readExact_delivers _ rfl h hle with ⟨s₁, tcp₁, plain₁, heq, hdel, hleft⟩
  rw [hsplit, ← hfour, List.take_left] at heq
  rw [hsplit, ← hfour, List.drop_left] at hleft
  have hle' : beValue header ≤ (s₁.unread ++ plain₁).length := by
    rw [hleft, hsplit', List.length_append]
    omega
  rcases readExact_delivers _ rfl hdel hle' with ⟨s₂, tcp₂, plain₂, heq', hdel', hleft'⟩
  rw [hleft, hsplit', ← hlen, List.take_left] at heq'
  rw [hleft, hsplit', ← hlen, List.drop_left] at hleft'
  refine ⟨s₂, tcp₂, plain₂, ?_, hdel', hleft'⟩
  rw [hfour] at heq
  rw [hlen] at heq'
  unfold noiseReadJson
  rw [heq]
  dsimp only
  rw [if_neg hmax, heq']
  dsimp only
  rw [hvalue]

/-- The ends of a Noise stream are in step, and nothing is left in the reader's buffer. -/
def InStep [NoiseLaws] (a : Transport) (s : NoiseTcpStream) : Prop :=
  NoiseLaws.Paired a s.transport ∧ s.unread = []

/-- A sequence of values, all of whose writes succeeded, is read back to the byte, and has no value in it
that the reader refuses, exactly when the JSON of each is at most 16 MiB long. -/
theorem readsBack_noise [NoiseLaws] [RoundTrips T] (values : List T) {a a' : Transport}
    {s : NoiseTcpStream} {bs : Bytes} (hstep : InStep a s)
    (hsent : sendAll noiseWriteJson a values = (.ok (), bs, a')) :
    ReadsBack noiseReadJson (ReaderRefuses noiseErrors) (InStep a') s bs values ↔
      ∀ value ∈ values, (toVec value).length ≤ 2 ^ 24 := by
  refine readsBack_iff (not_readerRefuses_iff noiseErrors) ?_ hstep hsent
  rintro a s value bs a' rest ⟨hpair, hempty⟩ hlen hsend
  rcases writeAll_delivers _ rfl hpair hsend with ⟨b', hpair', hdel⟩
  have hread : readFrame noiseErrors (s.unread ++ frame (toVec value)) = (.ok value, []) := by
    have hframe := readFrame_frame noiseErrors hlen []
    rw [List.append_nil] at hframe
    rw [hempty]
    exact hframe
  rcases noiseReadJson_of_readFrame (hdel rest) hread with ⟨s', tcp', plain', heq, hdel', hleft⟩
  -- the frame took all the bytes, so nothing waits in the buffer
  rcases List.append_eq_nil_iff.1 hleft with ⟨hunread, rfl⟩
  rcases hdel'.eq_of_nil with ⟨ht, rfl⟩
  refine ⟨s', heq, ?_, hunread⟩
  rw [ht]
  exact hpair'

/-! ## The three framings -/

/-- Each of the three framings reads a sequence of values, all of whose writes succeeded, back exactly when
the JSON of each is at most `MAX_FRAME` bytes long. -/
theorem framings_readBack [NoiseLaws] [RoundTrips T] [Deserialize SignedEvent]
    [RoundTrips SignedEvent] :
    (∀ evs bs, sendAll (ofWriter writeEvent) () evs = (.ok (), bs, ()) →
      (ReadsBack (ofReader readEvent) (ReaderRefuses eventErrors) (fun _ => True) () bs evs ↔
        ∀ ev ∈ evs, (toVec ev).length ≤ 2 ^ 24)) ∧
    (∀ (values : List T) bs, sendAll (ofWriter writeJson) () values = (.ok (), bs, ()) →
      (ReadsBack (ofReader readJson) (ReaderRefuses relayErrors) (fun _ => True) () bs values ↔
        ∀ value ∈ values, (toVec value).length ≤ 2 ^ 24)) ∧
    ∀ (values : List T) (a a' : Transport) (s : NoiseTcpStream) (bs : Bytes), InStep a s →
      sendAll noiseWriteJson a values = (.ok (), bs, a') →
      (ReadsBack noiseReadJson (ReaderRefuses noiseErrors) (InStep a') s bs values ↔
        ∀ value ∈ values, (toVec value).length ≤ 2 ^ 24) := by
  refine ⟨?_, ?_, ?_⟩
  · intro evs bs hsent
    exact readsBack_frames eventErrors evs hsent
  · intro values bs hsent
    exact readsBack_frames relayErrors values hsent
  · intro values a a' s bs hstep hsent
    exact readsBack_noise values hstep hsent

end Stream

/-! ## An event of more than 16 MiB -/

section Example

open Checksum

/-- A transport that numbers its messages in the tag and leaves them readable. -/
@[reducible] def numberedTransport : NoiseTransport :=
  { Transport := Nat
    writeMessage := fun n payload => some (payload ++ List.replicate tagLen (UInt8.ofNat n), n + 1)
    readMessage := fun n c =>
      if c.drop (c.length - tagLen) = List.replicate tagLen (UInt8.ofNat n) then
        some (c.take (c.length - tagLen), n + 1)
      else
        none }

attribute [local instance] numberedTransport Checksum.primitives

instance numberedLaws : NoiseLaws where
  Paired := fun a b => a = b
  written := by
    rintro a b a' payload c rfl hwrite
    cases hwrite
    have hlen : (payload ++ List.replicate tagLen (UInt8.ofNat a)).length - tagLen = payload.length := by
      rw [List.length_append, List.length_replicate, Nat.add_sub_cancel]
    refine ⟨by rw [List.length_append, List.length_replicate], Nat.succ a, ?_, rfl⟩
    change (if _ then _ else _) = _
    rw [hlen, List.drop_left, List.take_left, if_pos rfl]

/-- This transport takes everything. -/
instance numberedSends : NoiseSends where
  sends := by
    intro a b payload _ _
    exact ⟨_, _, rfl⟩

/-- A message of device 1 whose payload is `n` zero bytes. -/
def longCall (n : Nat) : SignedEvent :=
  event 1 (room 1) [] .message (List.replicate n 0) 1

/-- The payload alone takes two bytes of the JSON for each of its own. -/
theorem length_longCall (n : Nat) : 2 * n < (toVec (longCall (n + 1))).length := by
  have hfield : ("payload", Json.bytes (List.replicate (n + 1) 0)) ∈
      ("id", (longCall (n + 1)).id.bytes.toJson) ::
        ((longCall (n + 1)).unsigned.bodyFields (longCall (n + 1)).authorVk ++
          [("signature", Json.bytes (longCall (n + 1)).signature)]) := by
    have hpayload : (longCall (n + 1)).unsigned.payload = List.replicate (n + 1) 0 := rfl
    refine List.mem_cons_of_mem _ (List.mem_append_left _ ?_)
    simp [UnsignedEvent.bodyFields, hpayload]
  have hlt : (Json.bytes (List.replicate (n + 1) 0)).render.length <
      (toVec (longCall (n + 1))).length := Json.length_field_lt hfield
  have hbytes := Json.length_bytes_replicate n 0
  have hzero : (Json.digits (0 : UInt8).toNat).length = 1 := by decide
  rw [hzero] at hbytes
  omega

@[reducible] noncomputable def writtenEvent : Deserialize SignedEvent :=
  Deserialize.ofWritten SignedEvent

attribute [local instance] writtenEvent

/-- The event is sent, and the reader would refuse it. -/
theorem noise_sends_refused :
    ¬ ∀ (evs : List SignedEvent) (a a' : Transport) (s : NoiseTcpStream) (bs : Bytes), InStep a s →
      sendAll noiseWriteEvent a evs = (.ok (), bs, a') →
        ReadsBack noiseReadEvent (ReaderRefuses noiseErrors) (InStep a') s bs evs := by
  intro h
  have hrt : RoundTrips SignedEvent := roundTrips_ofWritten SignedEvent.toJson_injective
  have hlong : 2 ^ 24 < (toVec (longCall (2 ^ 23 + 1))).length := by
    have := length_longCall (2 ^ 23)
    omega
  generalize longCall (2 ^ 23 + 1) = ev at hlong
  rcases writeAll_ok _ (rfl : (frame (toVec ev)).length = _) (rfl : (0 : Nat) = 0) with ⟨bs, a', hwrite⟩
  have hsent : sendAll noiseWriteEvent (0 : Nat) [ev] = (.ok (), bs ++ [], a') := by
    have hone : noiseWriteEvent (0 : Nat) ev = (.ok (), bs, a') := hwrite
    rw [sendAll, hone]
    rfl
  have hback := h [ev] (0 : Nat) a' (NoiseTcpStream.new (0 : Nat)) _ ⟨rfl, rfl⟩ hsent
  exact hback.2 ev (by simp) ((readerRefuses_iff noiseErrors ev).2 hlong)

/-- One short event, over each framing. -/
theorem framings_readBack_quacked :
    (∃ bs, ReadsBack (ofReader readEvent) (ReaderRefuses eventErrors) (fun _ => True) () bs [quacked]) ∧
    (∃ bs, ReadsBack (ofReader (readJson (T := SignedEvent))) (ReaderRefuses relayErrors)
      (fun _ => True) () bs [quacked]) ∧
    ∃ bs a', ReadsBack noiseReadEvent (ReaderRefuses noiseErrors) (InStep a')
      (NoiseTcpStream.new (0 : Nat)) bs [quacked] := by
  have hrt : RoundTrips SignedEvent := roundTrips_ofWritten SignedEvent.toJson_injective
  have hshort : ∀ ev ∈ [quacked], (toVec ev).length ≤ 2 ^ 24 := by
    have hlen : (toVec quacked).length ≤ 2 ^ 24 := by
      decide +kernel
    simpa using hlen
  have hframe : ∀ {ε : Type} (err : FrameErrors ε), sendAll (ofWriter (writeFrame err)) () [quacked] =
      (.ok (), (writeFrame err quacked).2 ++ [], ()) := by
    intro ε err
    have hok : (writeFrame err quacked).1 = .ok () := by
      have hlen := hshort quacked (by simp)
      refine (writeFrame_ok_iff err quacked).2 ?_
      exact Nat.le_trans (Nat.mod_le _ _) hlen
    have hone : ofWriter (writeFrame err) () quacked = (.ok (), (writeFrame err quacked).2, ()) := by
      rw [ofWriter, hok]
    rw [sendAll, hone]
    rfl
  rcases writeAll_ok _ (rfl : (frame (toVec quacked)).length = _) (rfl : (0 : Nat) = 0) with ⟨bs, a', hwrite⟩
  have hnoise : sendAll noiseWriteJson (0 : Nat) [quacked] = (.ok (), bs ++ [], a') := by
    have hone : noiseWriteJson (0 : Nat) quacked = (.ok (), bs, a') := hwrite
    rw [sendAll, hone]
    rfl
  have hall := @framings_readBack _ SignedEvent _ _ _ _ _ _
  refine ⟨⟨_, (hall.1 _ _ (hframe eventErrors)).2 hshort⟩,
    ⟨_, (hall.2.1 _ _ (hframe relayErrors)).2 hshort⟩, bs ++ [], a', ?_⟩
  exact (hall.2.2 _ (0 : Nat) a' (NoiseTcpStream.new (0 : Nat)) _ ⟨rfl, rfl⟩ hnoise).2 hshort

end Example

end Net
end Thunderducks
