import Thunderducks.Net.Noise

/-!
# NoisePipe — what is written is what is read (`NoiseTcpStream` in `td-net/src/noise.rs`)

The writer cuts its byte strings into messages, the reader asks for as many bytes as it likes, and neither
knows of the other's boundaries.  `NoisePipe.Holds` is the invariant that outlasts every alignment: what the
reader has buffered, and then what the TCP stream decrypts to, is what was sent and has not been read.
-/

namespace Thunderducks
namespace Net

open Lib Framing NoiseTransport

section Pipe

variable [NoiseTransport]

/-! ## Streams that decrypt -/

/-- What follows on the stream does not matter. -/
theorem Delivers.extend {t t' : Transport} {tcp plain rest : Bytes} (h : Delivers t tcp plain t' rest)
    (more : Bytes) : Delivers t (tcp ++ more) plain t' (rest ++ more) := by
  induction h with
  | done => exact Delivers.done
  | msg hne hlen hread _ ih =>
      have hmsg := Delivers.msg hne hlen hread ih
      rw [← List.append_assoc] at hmsg
      exact hmsg

/-- Streams that decrypt one after the other decrypt as one. -/
theorem Delivers.append {t t₁ t' : Transport} {tcp plain mid plain' rest : Bytes}
    (h : Delivers t tcp plain t₁ mid) (hnext : Delivers t₁ mid plain' t' rest) :
    Delivers t tcp (plain ++ plain') t' rest := by
  induction h with
  | done => exact hnext
  | @msg _ _ _ _ payload _ plain _ hne hlen hread _ ih =>
      rw [List.append_assoc payload]
      exact Delivers.msg hne hlen hread (ih hnext)

/-- The stream is a run of messages, and none of them is over the limit. -/
def WithinLimit (tcp : Bytes) : Prop :=
  ∃ messages : List Bytes, tcp = messages.flatMap (fun c => beBytes 2 c.length ++ c) ∧
    ∀ c ∈ messages, c.length ≤ maxNoiseMsg

theorem Delivers.withinLimit {t t' : Transport} {tcp plain rest : Bytes} (h : Delivers t tcp plain t' rest)
    (hrest : rest = []) : WithinLimit tcp := by
  induction h with
  | done =>
      subst hrest
      exact ⟨[], rfl, by simp⟩
  | @msg _ _ _ c _ _ _ _ _ hlen _ _ ih =>
      rcases ih hrest with ⟨messages, rfl, hall⟩
      refine ⟨c :: messages, rfl, ?_⟩
      intro c' hc'
      rcases List.mem_cons.1 hc' with rfl | hc'
      · exact hlen
      · exact hall c' hc'

/-! ## Both ends -/

/-- The writing end, what is on the TCP stream, and the reading end. -/
structure NoisePipe where
  writer : Transport
  tcp : Bytes
  reader : NoiseTcpStream

/-- A call at one of the ends, `read_exact` with the size of its buffer. -/
inductive PipeCall
  | writeAll (data : Bytes)
  | readExact (want : Nat)

namespace PipeCall

def sent : PipeCall → Bytes
  | .writeAll data => data
  | .readExact _ => []

def wanted : PipeCall → Nat
  | .writeAll _ => 0
  | .readExact want => want

/-- Where `n` bytes are unread, no call of the run asks for more than is unread by then. -/
def Covered : (n : Nat) → List PipeCall → Prop
  | _, [] => True
  | n, c :: calls => c.wanted ≤ n ∧ Covered (n - c.wanted + c.sent.length) calls

omit [NoiseTransport] in
theorem covered_reads (wants : List Nat) : ∀ {n : Nat}, wants.sum ≤ n →
    Covered n (wants.map readExact) := by
  induction wants with
  | nil =>
      intro n _
      trivial
  | cons want wants ih =>
      intro n h
      rw [List.sum_cons] at h
      refine ⟨Nat.le_trans (Nat.le_add_right _ _) h, ih ?_⟩
      exact Nat.le_sub_of_add_le' h

omit [NoiseTransport] in
theorem covered_writes (datas : List Bytes) : ∀ n : Nat,
    Covered n (datas.map writeAll) := by
  induction datas with
  | nil =>
      intro n
      trivial
  | cons data datas ih =>
      intro n
      exact ⟨Nat.zero_le n, ih _⟩

end PipeCall

namespace NoisePipe

/-- Both ends right after the handshake. -/
def new (a b : Transport) : NoisePipe :=
  { writer := a
    tcp := []
    reader := NoiseTcpStream.new b }

/-- One call: its error, or the bytes it read. -/
def call (p : NoisePipe) : PipeCall → Except NoiseError Bytes × NoisePipe
  | .writeAll data =>
      let (res, bs, writer) := writeAll p.writer data
      (res.map fun _ => [], { p with writer := writer, tcp := p.tcp ++ bs })
  | .readExact want =>
      let (res, reader, tcp) := readExact p.reader p.tcp want
      (res, { p with reader := reader, tcp := tcp })

/-- The calls in order up to the first error, and all that they read. -/
def run : NoisePipe → List PipeCall → Except NoiseError Bytes × NoisePipe
  | p, [] => (.ok [], p)
  | p, c :: calls =>
      match p.call c with
      | (.error e, p) => (.error e, p)
      | (.ok bs, p) =>
          let (res, p) := p.run calls
          (res.map fun more => bs ++ more, p)

/-- The pipe holds `left`: it is what the reader has in its buffer and what the stream decrypts to, whole. -/
def Holds [NoiseLaws] (p : NoisePipe) (left : Bytes) : Prop :=
  ∃ plain b, Delivers p.reader.transport p.tcp plain b [] ∧ NoiseLaws.Paired p.writer b ∧
    p.reader.unread ++ plain = left

section Runs

variable [NoiseLaws]

theorem holds_new {a b : Transport} (hpair : NoiseLaws.Paired a b) : (new a b).Holds [] :=
  ⟨[], b, Delivers.done, hpair, rfl⟩

theorem Holds.withinLimit {p : NoisePipe} {left : Bytes} (h : p.Holds left) : WithinLimit p.tcp := by
  rcases h with ⟨_, _, hdel, _, _⟩
  exact hdel.withinLimit rfl

variable [NoiseSends] {p : NoisePipe} {left : Bytes}

/-- A `write_all` succeeds, whatever its length, and its bytes come last. -/
theorem Holds.writeAll (h : p.Holds left) (data : Bytes) :
    ∃ p', p.call (.writeAll data) = (.ok [], p') ∧ p'.Holds (left ++ data) := by
  rcases h with ⟨plain, b, hdel, hpair, hleft⟩
  rcases writeAll_ok _ rfl hpair with ⟨bs, a', hwrite⟩
  rcases writeAll_delivers _ rfl hpair hwrite with ⟨b', hpair', hsent⟩
  refine ⟨{ p with writer := a', tcp := p.tcp ++ bs }, ?_, plain ++ data, b', ?_, hpair', ?_⟩
  · unfold call
    dsimp only
    rw [hwrite]
    rfl
  · have hbs : Delivers b bs data b' [] := by
      simpa using hsent []
    exact (hdel.extend bs).append hbs
  · rw [← List.append_assoc, hleft]

omit [NoiseSends] in
/-- A `read_exact` of no more than the pipe holds fills its buffer with the front of it. -/
theorem Holds.readExact (h : p.Holds left) {want : Nat} (hwant : want ≤ left.length) :
    ∃ p', p.call (.readExact want) = (.ok (left.take want), p') ∧ p'.Holds (left.drop want) := by
  rcases h with ⟨plain, b, hdel, hpair, rfl⟩
  rcases readExact_delivers _ rfl hdel hwant with ⟨s', tcp', plain', heq, hdel', hleft⟩
  refine ⟨{ p with reader := s', tcp := tcp' }, ?_, plain', b, hdel', hpair, hleft⟩
  unfold call
  dsimp only
  rw [heq]

theorem Holds.call (h : p.Holds left) {c : PipeCall} (hc : c.wanted ≤ left.length) :
    ∃ p', p.call c = (.ok (left.take c.wanted), p') ∧ p'.Holds (left.drop c.wanted ++ c.sent) := by
  cases c with
  | writeAll data => exact h.writeAll data
  | readExact want =>
      rcases h.readExact hc with ⟨p', heq, hholds⟩
      refine ⟨p', heq, ?_⟩
      rw [PipeCall.sent, List.append_nil]
      exact hholds

/-- Writes and reads in any order, of any lengths: as long as no read asks for more than there is, none
fails, and the bytes come out in the order in which they went in. -/
theorem Holds.run (calls : List PipeCall) : ∀ {p : NoisePipe} {left : Bytes}, p.Holds left →
    PipeCall.Covered left.length calls →
    ∃ p', p.run calls =
        (.ok ((left ++ calls.flatMap PipeCall.sent).take (calls.map PipeCall.wanted).sum), p') ∧
      p'.Holds ((left ++ calls.flatMap PipeCall.sent).drop (calls.map PipeCall.wanted).sum) := by
  induction calls with
  | nil =>
      intro p left h _
      refine ⟨p, rfl, ?_⟩
      simpa using h
  | cons c calls ih =>
      intro p left h hcov
      rcases hcov with ⟨hwant, hrest⟩
      rcases h.call hwant with ⟨p₁, hcall, hholds⟩
      have hlen : (left.drop c.wanted ++ c.sent).length = left.length - c.wanted + c.sent.length := by
        rw [List.length_append, List.length_drop]
      rw [← hlen] at hrest
      rcases ih hholds hrest with ⟨p', hrun, hholds'⟩
      -- what the call leaves is the rest of all that passes through the pipe from here on
      have hall : left.drop c.wanted ++ c.sent ++ calls.flatMap PipeCall.sent =
          (left ++ (c :: calls).flatMap PipeCall.sent).drop c.wanted := by
        rw [List.drop_append_of_le_length hwant, List.flatMap_cons, List.append_assoc]
      have hfront : left.take c.wanted = (left ++ (c :: calls).flatMap PipeCall.sent).take c.wanted :=
        (List.take_append_of_le_length hwant).symm
      rw [hall] at hrun hholds'
      rw [List.map_cons, List.sum_cons, ← List.drop_drop, List.take_add]
      refine ⟨p', ?_, hholds'⟩
      rw [NoisePipe.run, hcall]
      dsimp only
      rw [hrun, hfront]
      rfl

end Runs

end NoisePipe

/-! ## All that was sent, in pieces of any size -/

/-- However the byte strings are cut into calls on either end, no call fails, no message is over the limit,
and what is read is the front of what was sent, with the rest still to be read. -/
theorem readExact_writeAll [NoiseLaws] [NoiseSends] {a b : Transport} (hpair : NoiseLaws.Paired a b)
    (datas : List Bytes) (wants : List Nat) (htotal : wants.sum ≤ datas.flatten.length) :
    ∃ p p', (NoisePipe.new a b).run (datas.map PipeCall.writeAll) = (.ok [], p) ∧ WithinLimit p.tcp ∧
      p.run (wants.map PipeCall.readExact) = (.ok (datas.flatten.take wants.sum), p') ∧
      p'.Holds (datas.flatten.drop wants.sum) := by
  rcases (NoisePipe.holds_new hpair).run _ (PipeCall.covered_writes datas _) with ⟨p, hwrites, hholds⟩
  have hzero : ((datas.map PipeCall.writeAll).map PipeCall.wanted).sum = 0 := by
    rw [List.map_map]
    exact List.sum_eq_zero (by simp [PipeCall.wanted])
  have hsent : (datas.map PipeCall.writeAll).flatMap PipeCall.sent = datas.flatten := by
    rw [List.flatMap_map]
    exact List.flatMap_id
  have hwanted : (wants.map PipeCall.readExact).map PipeCall.wanted = wants := by
    rw [List.map_map]
    exact List.map_id wants
  have hnone : (wants.map PipeCall.readExact).flatMap PipeCall.sent = [] := by
    rw [List.flatMap_map]
    exact List.flatMap_eq_nil_iff.2 fun _ _ => rfl
  rw [hzero, hsent, List.nil_append] at hwrites hholds
  rcases hholds.run _ (PipeCall.covered_reads wants htotal) with ⟨p', hreads, hholds'⟩
  rw [hwanted, hnone, List.drop_zero, List.append_nil] at hreads hholds'
  exact ⟨p, p', hwrites, hholds.withinLimit, hreads, hholds'⟩

end Pipe

/-! ## Three messages, read across their boundaries -/

section Example

attribute [local instance] numberedTransport

/-- Three strings, one of them empty, read in two pieces that end where none of them does. -/
theorem readExact_writeAll_pieces :
    ∃ p p', (NoisePipe.new (0 : Nat) (0 : Nat)).run
        ([[1, 2, 3], [], [4, 5]].map PipeCall.writeAll) = (.ok [], p) ∧ WithinLimit p.tcp ∧
      p.run ([2, 2].map PipeCall.readExact) = (.ok [1, 2, 3, 4], p') ∧ p'.Holds [5] :=
  readExact_writeAll (rfl : (0 : Nat) = 0) [[1, 2, 3], [], [4, 5]] [2, 2] (by decide)

end Example

end Net
end Thunderducks
