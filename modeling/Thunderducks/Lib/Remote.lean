import Mathlib.Data.List.Nodup
import Mathlib.Logic.Function.Basic
import Thunderducks.Lib.Json
import Thunderducks.Lib.Runs

/-!
# Remote — calls of a server over byte streams

Any number of clients call one server, each over a connection of its own: a client writes a request and waits, the
server reads it when all of it has arrived, handles it in one go and writes the response.  Bytes arrive in pieces of
any size, and either end may close at any time.  `linearized` says that such a system does what a server does that
is called directly: every request is handled at most once, in one order for all clients, and what a client gets is
what the server said there.
-/

namespace Thunderducks
namespace Lib
namespace Remote

/-! ## Values as bytes -/

/-- What a reader makes of the bytes that have arrived. -/
inductive Reading (α : Type)
  /-- It waits for more. -/
  | more
  | bad
  | got (a : α) (rest : Bytes)

/-- A way to put values on a stream; a writer may refuse a value. -/
structure Codec (α : Type) where
  write : α → Option Bytes
  read : Bytes → Reading α
  waits : read [] = .more

/-- What is written for the value is read as the value, once all of it is there. -/
structure Codec.Carries {α : Type} (c : Codec α) (a : α) : Prop where
  whole : ∀ bs, c.write a = some bs → c.read bs = .got a []
  part : ∀ p q, c.write a = some (p ++ q) → q ≠ [] → c.read p = .more

/-! ## Connections -/

/-- A connection: what is on the way and what has arrived in each direction, how many calls were asked, served and
answered, and which ends are open. -/
structure Line where
  upSent : Bytes
  upHere : Bytes
  downSent : Bytes
  downHere : Bytes
  asked : Nat
  served : Nat
  answered : Nat
  /-- The client waits for a response. -/
  waiting : Bool
  calling : Bool
  serving : Bool

namespace Line

def opened : Line :=
  { upSent := []
    upHere := []
    downSent := []
    downHere := []
    asked := 0
    served := 0
    answered := 0
    waiting := false
    calling := true
    serving := true }

/-- What the client wrote and the server has not read. -/
def up (l : Line) : Bytes :=
  l.upHere ++ l.upSent

def down (l : Line) : Bytes :=
  l.downHere ++ l.downSent

def ask (l : Line) (bs : Bytes) : Line :=
  { l with
    upSent := l.upSent ++ bs
    asked := l.asked + 1
    waiting := true }

def carryUp (l : Line) (k : Nat) : Line :=
  { l with
    upHere := l.upHere ++ l.upSent.take k
    upSent := l.upSent.drop k }

/-- A request is read; a response that is not written ends the connection. -/
def serve (l : Line) (rest : Bytes) : Option Bytes → Line
  | some bs =>
      { l with
        upHere := rest
        downSent := l.downSent ++ bs
        served := l.served + 1 }
  | none =>
      { l with
        upHere := rest
        served := l.served + 1
        serving := false }

def carryDown (l : Line) (k : Nat) : Line :=
  { l with
    downHere := l.downHere ++ l.downSent.take k
    downSent := l.downSent.drop k }

def answer (l : Line) (rest : Bytes) : Line :=
  { l with
    downHere := rest
    answered := l.answered + 1
    waiting := false }

def hangUp (l : Line) : Line :=
  { l with
    waiting := false
    calling := false }

def shut (l : Line) : Line :=
  { l with serving := false }

@[simp] theorem up_carryUp (l : Line) (k : Nat) : (l.carryUp k).up = l.up := by
  simp [up, carryUp, List.append_assoc]

@[simp] theorem down_carryDown (l : Line) (k : Nat) : (l.carryDown k).down = l.down := by
  simp [down, carryDown, List.append_assoc]

/-- Both ends are open, and there is nothing on the way and nobody waits. -/
structure Free (l : Line) : Prop where
  up : l.upHere = [] ∧ l.upSent = []
  down : l.downHere = [] ∧ l.downSent = []
  waiting : l.waiting = false
  calling : l.calling = true
  serving : l.serving = true

theorem free_opened : opened.Free :=
  ⟨⟨rfl, rfl⟩, ⟨rfl, rfl⟩, rfl, rfl, rfl⟩

end Line

/-- A request that was handled: the connection and the number of the call, what the server was given besides, and
what it said. -/
structure Handled (ι A B E : Type) where
  key : ι × Nat
  request : A
  given : E
  response : B

/-- The call as the server takes it. -/
def Handled.call {ι A B E : Type} (x : Handled ι A B E) : E × A :=
  (x.given, x.request)

/-! ## A connection in order -/

section InOrder

variable {ι A B E : Type} (requests : Codec A) (responses : Codec B)

/-- Where a connection is: no call on it, a request that is not served, a response that is not answered, or a response
that could not be written. -/
inductive InOrder (i : ι) (asked : List ((ι × Nat) × A)) (handled : List (Handled ι A B E)) (l : Line) : Prop
  | idle (hserved : l.served = l.asked) (hanswered : l.answered = l.asked) (hup : l.up = []) (hdown : l.down = [])
      (hwaiting : l.waiting = false)
  | requested (a : A) (hserved : l.asked = l.served + 1) (hanswered : l.answered = l.served)
      (hasked : ((i, l.served), a) ∈ asked) (hcarries : requests.Carries a) (hup : requests.write a = some l.up)
      (hdown : l.down = []) (hwaiting : l.waiting = l.calling)
  | responded (x : Handled ι A B E) (hserved : l.served = l.asked) (hanswered : l.served = l.answered + 1)
      (hhandled : x ∈ handled) (hkey : x.key = (i, l.answered)) (hcarries : responses.Carries x.response)
      (hdown : responses.write x.response = some l.down) (hup : l.up = []) (hwaiting : l.waiting = l.calling)
  | cut (hserved : l.served = l.asked) (hanswered : l.served = l.answered + 1) (hup : l.up = []) (hdown : l.down = [])
      (hserving : l.serving = false) (hwaiting : l.waiting = l.calling)

variable {requests responses} {i : ι} {asked asked' : List ((ι × Nat) × A)}
  {handled handled' : List (Handled ι A B E)} {l : Line}

theorem InOrder.mono (h : InOrder requests responses i asked handled l) (hasked : asked ⊆ asked')
    (hhandled : handled ⊆ handled') : InOrder requests responses i asked' handled' l := by
  cases h with
  | idle hserved hanswered hup hdown hwaiting => exact .idle hserved hanswered hup hdown hwaiting
  | requested a hserved hanswered hmem hcarries hup hdown hwaiting =>
      exact .requested a hserved hanswered (hasked hmem) hcarries hup hdown hwaiting
  | responded x hserved hanswered hmem hkey hcarries hdown hup hwaiting =>
      exact .responded x hserved hanswered (hhandled hmem) hkey hcarries hdown hup hwaiting
  | cut hserved hanswered hup hdown hserving hwaiting =>
      exact .cut hserved hanswered hup hdown hserving hwaiting

/-- Bytes that arrive leave the connection where it is. -/
theorem InOrder.carryUp (h : InOrder requests responses i asked handled l) (k : Nat) :
    InOrder requests responses i asked handled (l.carryUp k) := by
  have hsame := l.up_carryUp k
  cases h with
  | idle hserved hanswered hup hdown hwaiting =>
      exact .idle hserved hanswered (hsame.trans hup) hdown hwaiting
  | requested a hserved hanswered hmem hcarries hup hdown hwaiting =>
      exact .requested a hserved hanswered hmem hcarries (hup.trans (congrArg some hsame.symm)) hdown hwaiting
  | responded x hserved hanswered hmem hkey hcarries hdown hup hwaiting =>
      exact .responded x hserved hanswered hmem hkey hcarries hdown (hsame.trans hup) hwaiting
  | cut hserved hanswered hup hdown hserving hwaiting =>
      exact .cut hserved hanswered (hsame.trans hup) hdown hserving hwaiting

theorem InOrder.carryDown (h : InOrder requests responses i asked handled l) (k : Nat) :
    InOrder requests responses i asked handled (l.carryDown k) := by
  have hsame := l.down_carryDown k
  cases h with
  | idle hserved hanswered hup hdown hwaiting =>
      exact .idle hserved hanswered hup (hsame.trans hdown) hwaiting
  | requested a hserved hanswered hmem hcarries hup hdown hwaiting =>
      exact .requested a hserved hanswered hmem hcarries hup (hsame.trans hdown) hwaiting
  | responded x hserved hanswered hmem hkey hcarries hdown hup hwaiting =>
      exact .responded x hserved hanswered hmem hkey hcarries (hdown.trans (congrArg some hsame.symm)) hup hwaiting
  | cut hserved hanswered hup hdown hserving hwaiting =>
      exact .cut hserved hanswered hup (hsame.trans hdown) hserving hwaiting

theorem InOrder.hangUp (h : InOrder requests responses i asked handled l) :
    InOrder requests responses i asked handled l.hangUp := by
  cases h with
  | idle hserved hanswered hup hdown _ => exact .idle hserved hanswered hup hdown rfl
  | requested a hserved hanswered hmem hcarries hup hdown _ =>
      exact .requested a hserved hanswered hmem hcarries hup hdown rfl
  | responded x hserved hanswered hmem hkey hcarries hdown hup _ =>
      exact .responded x hserved hanswered hmem hkey hcarries hdown hup rfl
  | cut hserved hanswered hup hdown hserving _ => exact .cut hserved hanswered hup hdown hserving rfl

theorem InOrder.shut (h : InOrder requests responses i asked handled l) :
    InOrder requests responses i asked handled l.shut := by
  cases h with
  | idle hserved hanswered hup hdown hwaiting => exact .idle hserved hanswered hup hdown hwaiting
  | requested a hserved hanswered hmem hcarries hup hdown hwaiting =>
      exact .requested a hserved hanswered hmem hcarries hup hdown hwaiting
  | responded x hserved hanswered hmem hkey hcarries hdown hup hwaiting =>
      exact .responded x hserved hanswered hmem hkey hcarries hdown hup hwaiting
  | cut hserved hanswered hup hdown _ hwaiting => exact .cut hserved hanswered hup hdown rfl hwaiting

/-- A client that may ask has no call on the connection, and its request is all there is on it. -/
theorem InOrder.ask (h : InOrder requests responses i asked handled l) (hcalling : l.calling = true)
    (hwaiting : l.waiting = false) {a : A} (hcarries : requests.Carries a) {bs : Bytes}
    (hwrite : requests.write a = some bs) (hmem : ((i, l.asked), a) ∈ asked) :
    InOrder requests responses i asked handled (l.ask bs) := by
  have hbusy : l.waiting ≠ l.calling := by
    rw [hcalling, hwaiting]
    exact Bool.false_ne_true
  cases h with
  | idle hserved hanswered hup hdown _ =>
      rcases List.append_eq_nil_iff.1 hup with ⟨hhere, hsent⟩
      have hall : (l.ask bs).up = bs := by
        simp [Line.up, Line.ask, hhere, hsent]
      refine .requested a ?_ (hanswered.trans hserved.symm) ?_ hcarries (hwrite.trans (congrArg some hall.symm)) hdown
        hcalling.symm
      · exact congrArg Nat.succ hserved.symm
      · have hkey : (l.ask bs).served = l.asked := hserved
        rw [hkey]
        exact hmem
  | requested a _ _ _ _ _ _ hbusy' => exact absurd hbusy' hbusy
  | responded x _ _ _ _ _ _ _ hbusy' => exact absurd hbusy' hbusy
  | cut _ _ _ _ _ hbusy' => exact absurd hbusy' hbusy

/-- What the server reads is nothing yet, or the one request on the connection. -/
theorem InOrder.reads (h : InOrder requests responses i asked handled l) : requests.read l.upHere = .more ∨
    ∃ a, requests.read l.upHere = .got a [] ∧ l.upSent = [] ∧ l.asked = l.served + 1 ∧ l.answered = l.served ∧
      ((i, l.served), a) ∈ asked ∧ l.down = [] ∧ l.waiting = l.calling := by
  have hnone : l.up = [] → requests.read l.upHere = .more := by
    intro hup
    rw [(List.append_eq_nil_iff.1 hup).1]
    exact requests.waits
  cases h with
  | idle _ _ hup _ _ => exact Or.inl (hnone hup)
  | requested a hserved hanswered hmem hcarries hup hdown hwaiting =>
      by_cases hsent : l.upSent = []
      · have hall : l.up = l.upHere := by rw [Line.up, hsent, List.append_nil]
        rw [hall] at hup
        exact Or.inr ⟨a, hcarries.whole _ hup, hsent, hserved, hanswered, hmem, hdown, hwaiting⟩
      · exact Or.inl (hcarries.part _ _ hup hsent)
  | responded x _ _ _ _ _ _ hup _ => exact Or.inl (hnone hup)
  | cut _ _ hup _ _ _ => exact Or.inl (hnone hup)

/-- What the client reads is nothing yet, or the response to its call. -/
theorem InOrder.hears (h : InOrder requests responses i asked handled l) (hwaiting : l.waiting = true) :
    responses.read l.downHere = .more ∨
    ∃ x ∈ handled, x.key = (i, l.answered) ∧ responses.read l.downHere = .got x.response [] ∧ l.downSent = [] ∧
      l.served = l.asked ∧ l.served = l.answered + 1 ∧ l.up = [] := by
  have hnone : l.down = [] → responses.read l.downHere = .more := by
    intro hdown
    rw [(List.append_eq_nil_iff.1 hdown).1]
    exact responses.waits
  cases h with
  | idle _ _ _ _ hidle =>
      rw [hwaiting] at hidle
      cases hidle
  | requested a _ _ _ _ _ hdown _ => exact Or.inl (hnone hdown)
  | responded x hserved hanswered hmem hkey hcarries hdown hup _ =>
      by_cases hsent : l.downSent = []
      · have hall : l.down = l.downHere := by rw [Line.down, hsent, List.append_nil]
        rw [hall] at hdown
        exact Or.inr ⟨x, hmem, hkey, hcarries.whole _ hdown, hsent, hserved, hanswered, hup⟩
      · exact Or.inl (hcarries.part _ _ hdown hsent)
  | cut _ _ _ hdown _ _ => exact Or.inl (hnone hdown)

end InOrder

/-! ## Keys -/

section Keys

variable {ι : Type} {keys : List (ι × Nat)} {count : ι → Nat}

/-- The keys are the numbers below the counters, each of them once. -/
def Counts (keys : List (ι × Nat)) (count : ι → Nat) : Prop :=
  keys.Nodup ∧ ∀ k, k ∈ keys ↔ k.2 < count k.1

theorem counts_nil : Counts ([] : List (ι × Nat)) fun _ => 0 :=
  ⟨List.nodup_nil, fun k => by simp⟩

/-- The next number is taken. -/
theorem Counts.concat [DecidableEq ι] (h : Counts keys count) (i : ι) :
    Counts (keys ++ [(i, count i)]) (Function.update count i (count i + 1)) := by
  have hnew : (i, count i) ∉ keys := fun hmem => absurd ((h.2 _).1 hmem) (Nat.lt_irrefl _)
  refine ⟨List.nodup_append.2 ⟨h.1, List.nodup_singleton _, ?_⟩, ?_⟩
  · intro k hk k' hk' heq
    rw [List.mem_singleton] at hk'
    exact hnew (hk' ▸ heq ▸ hk)
  · rintro ⟨j, n⟩
    rw [List.mem_append, List.mem_singleton, h.2]
    by_cases hj : j = i
    · subst hj
      simp only [Function.update_self, Prod.mk.injEq, true_and]
      exact Nat.lt_succ_iff_lt_or_eq.symm
    · simp [hj]

end Keys

/-! ## The system -/

/-- The server, the connections, and what has happened so far. -/
structure System (ι S A B E : Type) where
  server : S
  lines : ι → Line
  asked : List ((ι × Nat) × A)
  handled : List (Handled ι A B E)
  answered : List ((ι × Nat) × B)

inductive Turn (ι A E : Type)
  | ask (i : ι) (a : A)
  | carryUp (i : ι) (k : Nat)
  | serve (i : ι) (e : E)
  | carryDown (i : ι) (k : Nat)
  | answer (i : ι)
  /-- The client's end closes. -/
  | hangUp (i : ι)
  /-- The server's end closes. -/
  | shut (i : ι)

section System

variable {ι S A B E : Type} [DecidableEq ι]
variable (requests : Codec A) (responses : Codec B) (handle : E → S → A → B × S)

namespace System

def start (server : S) : System ι S A B E :=
  { server := server
    lines := fun _ => Line.opened
    asked := []
    handled := []
    answered := [] }

/-- One connection changes. -/
def setLine (st : System ι S A B E) (i : ι) (l : Line) : System ι S A B E :=
  { st with lines := Function.update st.lines i l }

/-- A free client writes a request. -/
def ask (st : System ι S A B E) (i : ι) (a : A) : System ι S A B E :=
  if (st.lines i).calling && !(st.lines i).waiting then
    match requests.write a with
    | none => st
    | some bs =>
        { st.setLine i ((st.lines i).ask bs) with
          asked := st.asked ++ [((i, (st.lines i).asked), a)] }
  else
    st

/-- The entry of a request that is handled now. -/
def entry (st : System ι S A B E) (i : ι) (e : E) (a : A) : Handled ι A B E :=
  { key := (i, (st.lines i).served)
    request := a
    given := e
    response := (handle e st.server a).1 }

/-- The server reads a request, handles it and writes the response. -/
def serve (st : System ι S A B E) (i : ι) (e : E) : System ι S A B E :=
  if (st.lines i).serving then
    match requests.read (st.lines i).upHere with
    | .more => st
    | .bad => st.setLine i (st.lines i).shut
    | .got a rest =>
        { st.setLine i ((st.lines i).serve rest (responses.write (handle e st.server a).1)) with
          server := (handle e st.server a).2
          handled := st.handled ++ [st.entry handle i e a] }
  else
    st

/-- A client that waits reads the response. -/
def answer (st : System ι S A B E) (i : ι) : System ι S A B E :=
  if (st.lines i).calling && (st.lines i).waiting then
    match responses.read (st.lines i).downHere with
    | .more => st
    | .bad => st.setLine i (st.lines i).hangUp
    | .got b rest =>
        { st.setLine i ((st.lines i).answer rest) with
          answered := st.answered ++ [((i, (st.lines i).answered), b)] }
  else
    st

/-- A turn that is not possible changes nothing. -/
def step (st : System ι S A B E) : Turn ι A E → System ι S A B E
  | .ask i a => st.ask requests i a
  | .carryUp i k => st.setLine i ((st.lines i).carryUp k)
  | .serve i e => st.serve requests responses handle i e
  | .carryDown i k => st.setLine i ((st.lines i).carryDown k)
  | .answer i => st.answer responses i
  | .hangUp i => st.setLine i (st.lines i).hangUp
  | .shut i => st.setLine i (st.lines i).shut

end System

/-! ## Every turn keeps the order -/

namespace System

/-- What the system does is what the server does with the handled requests, one after the other: each of them was
asked, none is handled twice, and an answer is what the server said. -/
structure Linearized (first : S) (st : System ι S A B E) : Prop where
  server : st.server = Runs.run (fun s c => (handle c.1 s c.2).2) first (st.handled.map Handled.call)
  responses : st.handled.map Handled.response =
    Runs.answers (fun s c => handle c.1 s c.2) first (st.handled.map Handled.call)
  askedOnce : (st.asked.map Prod.fst).Nodup
  handledOnce : (st.handled.map Handled.key).Nodup
  answeredOnce : (st.answered.map Prod.fst).Nodup
  handledAsked : ∀ x ∈ st.handled, (x.key, x.request) ∈ st.asked
  answeredHandled : ∀ p ∈ st.answered, ∃ x ∈ st.handled, x.key = p.1 ∧ x.response = p.2

/-- The one that is in the prefix comes first. -/
theorem split_later {α : Type} {l l' : List α} (h : l <+: l') {x y : α} (hx : x ∈ l) (hy : y ∈ l') (hno : y ∉ l) :
    ∃ before mid after, l' = before ++ x :: (mid ++ y :: after) := by
  rcases h with ⟨rest, rfl⟩
  rcases List.append_of_mem hx with ⟨before, mid, rfl⟩
  rcases List.append_of_mem ((List.mem_append.1 hy).resolve_left hno) with ⟨mid', after, rfl⟩
  exact ⟨before, mid ++ mid', after, by simp⟩

section Linearized

variable {handle} {first : S} {st : System ι S A B E}

omit [DecidableEq ι] in
/-- What was said to a request is what the server says after the requests before it. -/
theorem Linearized.response (h : st.Linearized handle first) {before after : List (Handled ι A B E)}
    {x : Handled ι A B E} (hsplit : st.handled = before ++ x :: after) : x.response =
      (handle x.given (Runs.run (fun s c => (handle c.1 s c.2).2) first (before.map Handled.call)) x.request).1 := by
  have hall := h.responses
  rw [hsplit, List.map_append, List.map_append, Runs.answers_append, List.map_cons, List.map_cons] at hall
  have hlen : (before.map Handled.response).length =
      (Runs.answers (fun s c => handle c.1 s c.2) first (before.map Handled.call)).length := by
    rw [Runs.length_answers, List.length_map, List.length_map]
  rcases List.append_inj hall hlen with ⟨_, hrest⟩
  exact (List.cons.inj hrest).1

omit [DecidableEq ι] in
/-- An answer comes from the handling of the call it answers. -/
theorem Linearized.handling (h : st.Linearized handle first) {key : ι × Nat} {a : A} {b : B}
    (hasked : (key, a) ∈ st.asked) (hanswered : (key, b) ∈ st.answered) :
    ∃ x ∈ st.handled, x.key = key ∧ x.request = a ∧ x.response = b := by
  rcases h.answeredHandled _ hanswered with ⟨x, hx, rfl, hresponse⟩
  refine ⟨x, hx, rfl, ?_, hresponse⟩
  have hmem : (x.key, x.request) ∈ st.asked := h.handledAsked x hx
  exact congrArg Prod.snd (List.inj_on_of_nodup_map h.askedOnce hmem hasked rfl)

end Linearized

/-- All connections are in order, and their counters count the calls. -/
structure Inv (first : S) (good : S → Prop) (st : System ι S A B E) : Prop where
  lines : ∀ i, InOrder requests responses i st.asked st.handled (st.lines i)
  asked : Counts (st.asked.map Prod.fst) fun i => (st.lines i).asked
  handled : Counts (st.handled.map Handled.key) fun i => (st.lines i).served
  answered : Counts (st.answered.map Prod.fst) fun i => (st.lines i).answered
  server : st.server = Runs.run (fun s c => (handle c.1 s c.2).2) first (st.handled.map Handled.call)
  responses : st.handled.map Handled.response =
    Runs.answers (fun s c => handle c.1 s c.2) first (st.handled.map Handled.call)
  handledAsked : ∀ x ∈ st.handled, (x.key, x.request) ∈ st.asked
  answeredHandled : ∀ p ∈ st.answered, ∃ x ∈ st.handled, x.key = p.1 ∧ x.response = p.2
  good : good st.server

variable {requests responses handle} {first : S} {good : S → Prop} {st : System ι S A B E}

omit [DecidableEq ι] in
theorem inv_start (hfirst : good first) : (start first : System ι S A B E).Inv requests responses handle first good :=
  ⟨fun _ => .idle rfl rfl rfl rfl rfl, counts_nil, counts_nil, counts_nil, rfl, rfl, List.forall_mem_nil _,
    List.forall_mem_nil _, hfirst⟩

omit [DecidableEq ι] in
theorem Inv.linearized (h : st.Inv requests responses handle first good) : st.Linearized handle first :=
  ⟨h.server, h.responses, h.asked.1, h.handled.1, h.answered.1, h.handledAsked, h.answeredHandled⟩

/-- The other connections are as before, whatever is entered. -/
theorem lines_update {lines : ι → Line} {asked asked' : List ((ι × Nat) × A)}
    {handled handled' : List (Handled ι A B E)}
    (h : ∀ j, InOrder requests responses j asked handled (lines j)) (hasked : asked ⊆ asked')
    (hhandled : handled ⊆ handled') {i : ι} {l : Line} (hl : InOrder requests responses i asked' handled' l) (j : ι) :
    InOrder requests responses j asked' handled' (Function.update lines i l j) := by
  by_cases hj : j = i
  · subst hj
    rw [Function.update_self]
    exact hl
  · rw [Function.update_of_ne hj]
    exact (h j).mono hasked hhandled

/-- The counters, after one connection has changed. -/
theorem count_setLine (f : Line → Nat) (st : System ι S A B E) (i : ι) (l : Line) :
    (fun j => f ((st.setLine i l).lines j)) = Function.update (fun j => f (st.lines j)) i (f l) :=
  Function.comp_update f st.lines i l

/-- The calls are still counted, if the counter is the same. -/
theorem counts_setLine {f : Line → Nat} {keys : List (ι × Nat)} (h : Counts keys fun j => f (st.lines j)) {i : ι}
    {l : Line} (hsame : f l = f (st.lines i)) : Counts keys fun j => f ((st.setLine i l).lines j) := by
  rw [count_setLine, hsame, Function.update_eq_self i fun j => f (st.lines j)]
  exact h

/-- One more call is counted. -/
theorem counts_setLine_succ {f : Line → Nat} {keys : List (ι × Nat)} (h : Counts keys fun j => f (st.lines j)) {i : ι}
    {l : Line} (hnext : f l = f (st.lines i) + 1) :
    Counts (keys ++ [(i, f (st.lines i))]) fun j => f ((st.setLine i l).lines j) := by
  rw [count_setLine, hnext]
  exact h.concat i

/-- A connection changes, and nothing is entered. -/
theorem Inv.setLine (h : st.Inv requests responses handle first good) {i : ι} {l : Line}
    (hl : InOrder requests responses i st.asked st.handled l) (hasked : l.asked = (st.lines i).asked)
    (hserved : l.served = (st.lines i).served) (hanswered : l.answered = (st.lines i).answered) :
    (st.setLine i l).Inv requests responses handle first good := by
  exact ⟨lines_update h.lines (List.Subset.refl _) (List.Subset.refl _) hl, counts_setLine h.asked hasked,
    counts_setLine h.handled hserved, counts_setLine h.answered hanswered, h.server, h.responses, h.handledAsked,
    h.answeredHandled, h.good⟩

/-- A request is asked. -/
theorem Inv.ask (h : st.Inv requests responses handle first good) {i : ι} {a : A} (hcarries : requests.Carries a) :
    (st.ask requests i a).Inv requests responses handle first good := by
  unfold System.ask
  split
  next hfree =>
    rcases Bool.and_eq_true_iff.1 hfree with ⟨hcalling, hidle⟩
    have hwaiting : (st.lines i).waiting = false := by simpa using hidle
    split
    · exact h
    next bs hwrite =>
      have hmore : st.asked ⊆ st.asked ++ [((i, (st.lines i).asked), a)] := List.subset_append_left _ _
      have hl := ((h.lines i).mono hmore (List.Subset.refl _)).ask hcalling hwaiting hcarries hwrite (by simp)
      refine ⟨lines_update h.lines hmore (List.Subset.refl _) hl, ?_, counts_setLine h.handled rfl,
        counts_setLine h.answered rfl, h.server, h.responses, ?_, h.answeredHandled, h.good⟩
      · dsimp only
        rw [List.map_append]
        exact counts_setLine_succ h.asked rfl
      · intro x hx
        exact hmore (h.handledAsked x hx)
  · exact h

/-- A request is handled, if one has arrived. -/
theorem Inv.serve (h : st.Inv requests responses handle first good)
    (hhandle : ∀ e s a, good s → good (handle e s a).2 ∧ responses.Carries (handle e s a).1) (i : ι) (e : E) :
    (st.serve requests responses handle i e).Inv requests responses handle first good := by
  unfold System.serve
  split
  · rcases (h.lines i).reads with hmore | ⟨a, hread, hsent, hasked, hanswered, hmem, hdown, hwaiting⟩
    · rw [hmore]
      exact h
    rw [hread]
    dsimp only
    rcases hhandle e st.server a h.good with ⟨hgood, hcarries⟩
    have hkey : (st.entry handle i e a).key = (i, (st.lines i).served) := rfl
    have hcall : (st.entry handle i e a).call = (e, a) := rfl
    have hresponse : (st.entry handle i e a).response = (handle e st.server a).1 := rfl
    generalize st.entry handle i e a = x at hkey hcall hresponse
    have hentered : st.handled ⊆ st.handled ++ [x] := List.subset_append_left _ _
    rcases List.append_eq_nil_iff.1 hdown with ⟨hhere, hdownSent⟩
    have hl : InOrder requests responses i st.asked (st.handled ++ [x])
        ((st.lines i).serve [] (responses.write (handle e st.server a).1)) := by
      cases hwrite : responses.write (handle e st.server a).1 with
      | some bs =>
          refine .responded x hasked.symm (congrArg Nat.succ hanswered.symm) (by simp)
            (hkey.trans (congrArg (Prod.mk i) hanswered.symm)) (hresponse ▸ hcarries) ?_ ?_ hwaiting
          · rw [hresponse, hwrite]
            simp [Line.down, Line.serve, hhere, hdownSent]
          · simp [Line.up, Line.serve, hsent]
      | none =>
          refine .cut hasked.symm (congrArg Nat.succ hanswered.symm) ?_ hdown rfl hwaiting
          simp [Line.up, Line.serve, hsent]
    generalize hline : (st.lines i).serve [] (responses.write (handle e st.server a).1) = l at hl
    have haskedSame : l.asked = (st.lines i).asked := by
      rw [← hline]
      cases responses.write (handle e st.server a).1 <;> rfl
    have hservedNext : l.served = (st.lines i).served + 1 := by
      rw [← hline]
      cases responses.write (handle e st.server a).1 <;> rfl
    have hansweredSame : l.answered = (st.lines i).answered := by
      rw [← hline]
      cases responses.write (handle e st.server a).1 <;> rfl
    refine ⟨lines_update h.lines (List.Subset.refl _) hentered hl, counts_setLine h.asked haskedSame, ?_,
      counts_setLine h.answered hansweredSame, ?_, ?_, ?_, ?_, hgood⟩
    · dsimp only
      rw [List.map_append, List.map_singleton, hkey]
      exact counts_setLine_succ h.handled hservedNext
    · dsimp only
      rw [List.map_append, List.map_singleton, Runs.run_append_singleton, ← h.server, hcall]
    · dsimp only
      rw [List.map_append, List.map_append, List.map_singleton, List.map_singleton, Runs.answers_append, ← h.server,
        ← h.responses, hcall, hresponse]
      rfl
    · intro y hy
      rcases List.mem_append.1 hy with hold | hnew
      · exact h.handledAsked y hold
      · have hrequest : x.request = a := congrArg Prod.snd hcall
        rw [List.mem_singleton.1 hnew, hkey, hrequest]
        exact hmem
    · intro p hp
      rcases h.answeredHandled p hp with ⟨y, hy, hykey, hyresponse⟩
      exact ⟨y, hentered hy, hykey, hyresponse⟩
  · exact h

/-- A response is taken, if one has arrived. -/
theorem Inv.answer (h : st.Inv requests responses handle first good) (i : ι) :
    (st.answer responses i).Inv requests responses handle first good := by
  unfold System.answer
  split
  next hready =>
    rcases Bool.and_eq_true_iff.1 hready with ⟨hcalling, hwaiting⟩
    rcases (h.lines i).hears hwaiting with
      hmore | ⟨x, hx, hkey, hread, hsent, hserved, hanswered, hup⟩
    · rw [hmore]
      exact h
    rw [hread]
    dsimp only
    have hl : InOrder requests responses i st.asked st.handled ((st.lines i).answer []) := by
      refine .idle hserved ?_ hup ?_ rfl
      · exact hanswered.symm.trans hserved
      · simp [Line.down, Line.answer, hsent]
    refine ⟨lines_update h.lines (List.Subset.refl _) (List.Subset.refl _) hl, counts_setLine h.asked rfl,
      counts_setLine h.handled rfl, ?_, h.server, h.responses, h.handledAsked, ?_, h.good⟩
    · dsimp only
      rw [List.map_append]
      exact counts_setLine_succ h.answered rfl
    · intro p hp
      rcases List.mem_append.1 hp with hold | hnew
      · exact h.answeredHandled p hold
      · rw [List.mem_singleton.1 hnew]
        exact ⟨x, hx, hkey, rfl⟩
  · exact h

/-- The requests that are asked are carried. -/
def Asks (requests : Codec A) : Turn ι A E → Prop
  | .ask _ a => requests.Carries a
  | _ => True

theorem Inv.step (h : st.Inv requests responses handle first good)
    (hhandle : ∀ e s a, good s → good (handle e s a).2 ∧ responses.Carries (handle e s a).1) (turn : Turn ι A E)
    (hturn : Asks requests turn) :
    (st.step requests responses handle turn).Inv requests responses handle first good := by
  cases turn with
  | ask i a => exact h.ask hturn
  | carryUp i k => exact h.setLine ((h.lines i).carryUp k) rfl rfl rfl
  | serve i e => exact h.serve hhandle i e
  | carryDown i k => exact h.setLine ((h.lines i).carryDown k) rfl rfl rfl
  | answer i => exact h.answer i
  | hangUp i => exact h.setLine (h.lines i).hangUp rfl rfl rfl
  | shut i => exact h.setLine (h.lines i).shut rfl rfl rfl

/-- What was handled stays handled, in the same order. -/
theorem step_handled (st : System ι S A B E) (turn : Turn ι A E) :
    st.handled <+: (st.step requests responses handle turn).handled := by
  cases turn with
  | ask i a =>
      unfold System.step ask
      dsimp only
      split
      · split
        · exact List.prefix_refl _
        · exact List.prefix_refl _
      · exact List.prefix_refl _
  | serve i e =>
      unfold System.step serve
      dsimp only
      split
      · split
        · exact List.prefix_refl _
        · exact List.prefix_refl _
        · exact List.prefix_append _ _
      · exact List.prefix_refl _
  | answer i =>
      unfold System.step answer
      dsimp only
      split
      · split
        · exact List.prefix_refl _
        · exact List.prefix_refl _
        · exact List.prefix_refl _
      · exact List.prefix_refl _
  | _ => exact List.prefix_refl _

theorem run_handled (turns : List (Turn ι A E)) : ∀ st : System ι S A B E,
    st.handled <+: (Runs.run (System.step requests responses handle) st turns).handled := by
  induction turns with
  | nil =>
      intro st
      exact List.prefix_refl _
  | cons turn turns ih =>
      intro st
      exact (step_handled st turn).trans (ih _)

omit [DecidableEq ι] in
/-- A connection with both ends open and nothing on it is not waited on. -/
theorem Inv.not_waiting (h : st.Inv requests responses handle first good) {i : ι} (hup : (st.lines i).up = [])
    (hdown : (st.lines i).down = []) (hserving : (st.lines i).serving = true) :
    (st.lines i).asked = (st.lines i).answered := by
  cases h.lines i with
  | idle _ hanswered _ _ _ => exact hanswered.symm
  | requested a _ _ _ hcarries hwrite _ _ =>
      have hread := hcarries.whole _ hwrite
      rw [hup, requests.waits] at hread
      cases hread
  | responded x _ _ _ _ hcarries hwrite _ _ =>
      have hread := hcarries.whole _ hwrite
      rw [hdown, responses.waits] at hread
      cases hread
  | cut _ _ _ _ hcut _ =>
      rw [hserving] at hcut
      cases hcut

/-- In every run, the system does what the server does; what was handled by some time was handled before all that is
handled later; and on a connection that is open at the server's end and has nothing on it, every call has been
answered. -/
theorem linearized_run (hhandle : ∀ e s a, good s → good (handle e s a).2 ∧ responses.Carries (handle e s a).1)
    (hfirst : good first) (turns : List (Turn ι A E)) (hturns : ∀ turn ∈ turns, Asks requests turn) :
    let st := Runs.run (System.step requests responses handle) (start first) turns
    st.Linearized handle first ∧
      (∀ before after, turns = before ++ after →
        (Runs.run (System.step requests responses handle) (start first) before).handled <+: st.handled) ∧
      ∀ i, (st.lines i).up = [] → (st.lines i).down = [] → (st.lines i).serving = true →
        ∀ n a, ((i, n), a) ∈ st.asked → ∃ b, ((i, n), b) ∈ st.answered := by
  intro st
  have hinv : st.Inv requests responses handle first good := by
    refine Runs.invariant (fun st turn h (hturn : Asks requests turn) => h.step hhandle turn hturn) turns
      (inv_start hfirst) ?_
    exact Runs.along_iff.2 fun before turn after hsplit => hturns turn (by simp [hsplit])
  refine ⟨hinv.linearized, ?_, ?_⟩
  · rintro before after hsplit
    have hrun : st = Runs.run (System.step requests responses handle)
        (Runs.run (System.step requests responses handle) (start first) before) after := by
      rw [← Runs.run_append, ← hsplit]
    rw [hrun]
    exact run_handled after _
  · intro i hup hdown hserving n a hasked
    have hbelow : n < (st.lines i).asked := (hinv.asked.2 (i, n)).1 (List.mem_map_of_mem hasked)
    rw [hinv.not_waiting hup hdown hserving] at hbelow
    rcases List.mem_map.1 ((hinv.answered.2 (i, n)).2 hbelow) with ⟨⟨k, b⟩, hmem, rfl⟩
    exact ⟨b, hmem⟩

/-! ## A whole call -/

/-- A client asks, what it writes arrives, the server serves it, and what the server writes arrives. -/
def exchange (i : ι) (a : A) (e : E) (up down : Nat) : List (Turn ι A E) :=
  [.ask i a, .carryUp i up, .serve i e, .carryDown i down, .answer i]

@[simp] theorem setLine_self (st : System ι S A B E) (i : ι) (l : Line) : (st.setLine i l).lines i = l := by
  simp [setLine]

theorem ask_free {i : ι} {a : A} {bs : Bytes} (hcalling : (st.lines i).calling = true)
    (hwaiting : (st.lines i).waiting = false) (hwrite : requests.write a = some bs) : st.ask requests i a =
      { st.setLine i ((st.lines i).ask bs) with
        asked := st.asked ++ [((i, (st.lines i).asked), a)] } := by
  simp [System.ask, hcalling, hwaiting, hwrite]

theorem serve_got {i : ι} {e : E} {a : A} {rest : Bytes} (hserving : (st.lines i).serving = true)
    (hread : requests.read (st.lines i).upHere = .got a rest) : st.serve requests responses handle i e =
      { st.setLine i ((st.lines i).serve rest (responses.write (handle e st.server a).1)) with
        server := (handle e st.server a).2
        handled := st.handled ++ [st.entry handle i e a] } := by
  simp [System.serve, hserving, hread]

theorem answer_got {i : ι} {b : B} {rest : Bytes} (hcalling : (st.lines i).calling = true)
    (hwaiting : (st.lines i).waiting = true) (hread : responses.read (st.lines i).downHere = .got b rest) :
    st.answer responses i =
      { st.setLine i ((st.lines i).answer rest) with
        answered := st.answered ++ [((i, (st.lines i).answered), b)] } := by
  simp [System.answer, hcalling, hwaiting, hread]

/-- On a free connection a call all of whose bytes arrive is answered with what the server says, and the connection
is free again; the others are as they were. -/
theorem run_exchange {i : ι} (hfree : (st.lines i).Free) {a : A} (ha : requests.Carries a) {e : E}
    (hb : responses.Carries (handle e st.server a).1) {bs out : Bytes} (hwrite : requests.write a = some bs)
    (hout : responses.write (handle e st.server a).1 = some out) {up down : Nat} (hup : bs.length ≤ up)
    (hdown : out.length ≤ down) :
    ∃ l : Line, l.Free ∧ l.asked = (st.lines i).asked + 1 ∧ l.answered = (st.lines i).answered + 1 ∧
      Runs.run (System.step requests responses handle) st (exchange i a e up down) =
        { server := (handle e st.server a).2
          lines := Function.update st.lines i l
          asked := st.asked ++ [((i, (st.lines i).asked), a)]
          handled := st.handled ++ [st.entry handle i e a]
          answered := st.answered ++ [((i, (st.lines i).answered), (handle e st.server a).1)] } := by
  rcases hfree with ⟨⟨hupHere, hupSent⟩, ⟨hdownHere, hdownSent⟩, hwaiting, hcalling, hserving⟩
  let asking := ((st.lines i).ask bs).carryUp up
  let served := (asking.serve [] (some out)).carryDown down
  have hasking : asking.upHere = bs ∧ asking.upSent = [] := by
    simp [asking, Line.carryUp, Line.ask, hupHere, hupSent, List.take_of_length_le hup, hup]
  have hserved : served.downHere = out ∧ served.downSent = [] := by
    simp [served, asking, Line.carryUp, Line.ask, Line.serve, Line.carryDown, hdownHere, hdownSent,
      List.take_of_length_le hdown, hdown]
  have hread : requests.read asking.upHere = .got a [] := by
    rw [hasking.1]
    exact ha.whole bs hwrite
  have hheard : responses.read served.downHere = .got (handle e st.server a).1 [] := by
    rw [hserved.1]
    exact hb.whole out hout
  refine ⟨served.answer [], ⟨⟨rfl, hasking.2⟩, ⟨rfl, hserved.2⟩, rfl, hcalling, hserving⟩, rfl, rfl, ?_⟩
  have hasked : st.ask requests i a =
      { st.setLine i ((st.lines i).ask bs) with
        asked := st.asked ++ [((i, (st.lines i).asked), a)] } := ask_free hcalling hwaiting hwrite
  have hopen : (((st.ask requests i a).setLine i asking).lines i).serving = true := by
    rw [setLine_self]
    exact hserving
  have hserve : ((st.ask requests i a).setLine i asking).serve requests responses handle i e =
      { st.setLine i (asking.serve [] (some out)) with
        server := (handle e st.server a).2
        asked := st.asked ++ [((i, (st.lines i).asked), a)]
        handled := st.handled ++ [st.entry handle i e a] } := by
    rw [serve_got hopen (by simpa using hread), hasked]
    simp [setLine, hout, entry, asking, Line.carryUp, Line.ask]
  have hlistens : served.calling = true := hcalling
  have hwaits : served.waiting = true := rfl
  calc
    Runs.run (System.step requests responses handle) st (exchange i a e up down)
        = ((((st.ask requests i a).setLine i asking).serve requests responses handle i e).setLine i served).answer
            responses i := by
          have hline : (st.ask requests i a).lines i = (st.lines i).ask bs := by
            rw [hasked]
            simp [setLine]
          have hline' : (((st.ask requests i a).setLine i asking).serve requests responses handle i e).lines i =
              asking.serve [] (some out) := by
            rw [hserve]
            simp [setLine]
          dsimp only [Runs.run, exchange, List.foldl, System.step]
          rw [hline, hline']
    _ = _ := by
          rw [answer_got (by simpa using hlistens) (by simpa using hwaits) (by simpa using hheard), hserve]
          simp [setLine, served, asking, Line.answer, Line.carryDown, Line.serve, Line.carryUp, Line.ask]

end System

end System

end Remote
end Lib
end Thunderducks
