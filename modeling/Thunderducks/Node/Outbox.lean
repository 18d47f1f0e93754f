import Thunderducks.Lib.Runs
import Thunderducks.Node.Writes

/-!
# Outbox — what `commit_local` queues for the peers (`td-node/src/sync.rs`)

`ingest_event` takes an event on two paths: at once, or later, when the drain releases it from the inbox.
Only the first knows that the event is the node's own and puts it on the outbox.  `OutboxRun` keeps count of
what a run has submitted and popped; `Exact` says that the outbox got the node's own events and got each of
them once.  `exact_always` has the calls that keep this, `exact_always_iff` that there are no others.
-/

namespace Thunderducks
namespace Node

open Lib Event

namespace DeviceNode

variable [Primitives] {node node' : DeviceNode} {ev x : SignedEvent}

/-! ## The outbox after a commit -/

/-- Taking events from the inbox leaves the outbox alone. -/
theorem kept_outbox (outbox : List SignedEvent) :
    Kept (fun node => node.outbox = outbox) (fun node => node.outbox = outbox) Set.univ := by
  have hrecord : ∀ (node : DeviceNode) (ev : SignedEvent), (node.record ev).2.outbox = node.outbox := by
    intro node ev
    rcases record_frame node ev with ⟨store, heq⟩
    rw [heq]
  refine ⟨?_, ?_, ?_, ?_, ?_⟩
  · intro node ev _ _ _ hp _
    exact hp
  · intro node ev _ _ _ hp _ _
    exact (hrecord _ _).trans hp
  · intro node ev e inbox _ _ _ hp _
    exact hp
  · intro node ev e inbox _ _ _ hp _ _
    exact (hrecord _ _).trans hp
  · intro node inbox hp
    exact hp

theorem drainInbox_outbox (node : DeviceNode) : node.drainInbox.2.outbox = node.outbox := by
  have hends := drainLoop_kept (kept_outbox node.outbox) (node.inbox.length + 1)
    (fun _ _ => Set.mem_univ _) rfl (Prod.eta (drainLoop (node.inbox.length + 1) node)).symm
  cases hres : (drainLoop (node.inbox.length + 1) node).1 with
  | ok u => exact hends.ok u hres
  | error e => exact hends.failed e hres

/-- The row of an event is written exactly if the next write does not fail. -/
theorem record_ok_iff (hv : Verified ev) : (node.record ev).1 = .ok () ↔ node.WritesOk 1 := by
  constructor
  · intro hok store hst b hb
    have hv' : verifyEvent ev = .ok () := hv
    unfold record at hok
    simp only [hst, SqliteStore.put, hv'] at hok
    cases hf : store.faults with
    | nil => simp [hf] at hb
    | cons b' bs =>
        have hb' : b = b' := by
          simpa [hf] using hb
        subst hb'
        cases b with
        | false => rfl
        | true => simp [SqliteStore.nextFails, hf] at hok
  · intro hw
    exact (record_writesOk (n := 0) hv hw).1

/-- An event reaches the outbox if it is the node's own, is taken at once and is written. -/
theorem commit_outbox (h : node.Sound) (ev : SignedEvent) (toOutbox : Bool) :
    (node.Takes ev ∧ node.WritesOk 1 ∧
      (node.commit ev toOutbox).2.outbox = node.outbox ++ if toOutbox then [ev] else []) ∨
    (¬ (node.Takes ev ∧ node.WritesOk 1) ∧ (node.commit ev toOutbox).2.outbox = node.outbox) := by
  by_cases hv : Verified ev
  · -- the three ways to end before the row is written leave the outbox alone
    rw [commit_verified hv]
    unfold ingestEvent
    split
    · next hknown => exact Or.inr ⟨fun ht => ht.1.2.1 hknown, rfl⟩
    next hnew =>
    split
    · next hwait =>
        rcases park_frame node ev with ⟨inbox, heq, _⟩
        refine Or.inr ⟨fun ht => ?_, by rw [heq]⟩
        rw [parentsOk_iff.2 ht.1.2.2.1] at hwait
        cases hwait
    next hok =>
    have hp : ∀ p ∈ ev.parents, p ∈ node.events := parentsOk_iff.1 (by simpa using hok)
    have hout : (node.dagIngest ev).2.outbox = node.outbox := rfl
    have hdur : (node.dagIngest ev).2.durable = node.durable := rfl
    rcases step_cases h.log hv hnew hp with ⟨hroom, node₁, hing, _⟩ | ⟨hroom, q, node₁, hing, _⟩
    · rw [hing] at hout hdur ⊢
      have hwrites : node₁.WritesOk 1 ↔ node.WritesOk 1 := by
        unfold WritesOk
        rw [hdur]
      have hrecord : (node₁.record ev).2.outbox = node.outbox := by
        rcases record_frame node₁ ev with ⟨store, heq⟩
        rw [heq]
        exact hout
      have hiff := (@record_ok_iff _ node₁ ev hv).trans hwrites
      dsimp only
      -- the event is queued between its row and the drain, which does not queue what it takes
      rcases hrun : node₁.record ev with ⟨res, node₂⟩
      rw [hrun] at hrecord hiff
      cases res with
      | error e => exact Or.inr ⟨fun ht => by simpa using hiff.2 ht.2, hrecord⟩
      | ok u =>
          refine Or.inl ⟨⟨hv, hnew, hp, hroom⟩, hiff.1 rfl, ?_⟩
          have hdrain := drainInbox_outbox
            (if toOutbox then { node₂ with outbox := node₂.outbox ++ [ev] } else node₂)
          have hqueued : (if toOutbox then { node₂ with outbox := node₂.outbox ++ [ev] } else node₂).outbox =
              node.outbox ++ if toOutbox then [ev] else [] := by
            cases toOutbox <;> simpa using hrecord
          rw [← hqueued, ← hdrain]
          dsimp only
          split
          next heq => rw [heq]
          next heq => rw [heq]
    · rw [hing] at hout ⊢
      exact Or.inr ⟨fun ht => hroom ht.1.2.2.2, hout⟩
  · rcases commit_unverified hv toOutbox with ⟨e, heq⟩
    rw [heq]
    exact Or.inr ⟨fun ht => hv ht.1.1, rfl⟩

/-! ## The log after a commit -/

/-- A drain after taking `ev` finds `x` parked, new, and its parents in the log or on the way there. -/
structure Releases (node : DeviceNode) (ev x : SignedEvent) : Prop where
  parked : x ∈ node.inbox
  new : x.id ∉ (node.take ev).events
  supplied : ∀ p ∈ x.parents, Supplied (node.take ev).logIds node.parked p

omit [Primitives] in
theorem mem_accepted_take (hnew : ev.id ∉ node.events) {node₁ : DeviceNode} (htook : Took node ev node₁) :
    x ∈ node₁.accepted ↔ x = ev ∨ x ∈ node.accepted := by
  have hmem : x ∈ node₁.accepted ↔ (if x.id = ev.id then some ev else node.events.lookup x.id) = some x := by
    rw [← lookup_take, ← htook.events]
    exact Iff.rfl
  rw [hmem]
  split
  · next hid =>
      rw [Option.some.injEq]
      refine ⟨fun h => Or.inl h.symm, ?_⟩
      rintro (rfl | hold)
      · rfl
      · exact absurd (hid ▸ HashMap.mem_of_lookup hold) hnew
  · next hne =>
      refine ⟨Or.inr, ?_⟩
      rintro (rfl | hold)
      · exact absurd rfl hne
      · exact hold

omit [Primitives] in
/-- What a drain, ended or cut short, adds to the log. -/
theorem released_of_grew {node₁ : DeviceNode} {pool : Set SignedEvent} (hnew : ev.id ∉ node.events)
    (htook : Took node ev node₁) (hpool : pool = node.parked) (hg : Grew pool node₁ node')
    (hx : x ∈ node'.accepted) : x ∈ node.accepted ∨ x = ev ∨ node.Releases ev x := by
  have hlog : node₁.logIds = (node.take ev).logIds := by
    unfold logIds
    rw [htook.events]
  rcases hg.fresh hx with hold | ⟨hno, hin⟩
  · rcases (mem_accepted_take hnew htook).1 hold with rfl | hold
    · exact Or.inr (Or.inl rfl)
    · exact Or.inl hold
  · rw [hpool] at hin hg
    refine Or.inr (Or.inr ⟨hin, htook.events ▸ hno, ?_⟩)
    intro p hp
    rcases hg.coherent.parent_accepted hx hp with ⟨z, hz, _⟩
    rw [← hlog]
    exact hg.supplied p (HashMap.mem_of_lookup hz)

/-- A commit adds the event it takes and what that releases, and nothing else. -/
theorem Outcome.accepted {res : Except SyncError Bool} (hv : Verified ev) (ho : Outcome node ev res node')
    (hx : x ∈ node'.accepted) : x ∈ node.accepted ∨ node.Takes ev ∧ (x = ev ∨ node.Releases ev x) := by
  have hparked : ∀ {node₁ : DeviceNode}, Took node ev node₁ → node₁.parked = node.parked := by
    intro node₁ htook
    unfold parked
    rw [htook.inbox]
  -- whether the drain ends or breaks off, it only adds what was released
  have hall : ∀ {node₁ : DeviceNode} {pool : Set SignedEvent}, ev.id ∉ node.events →
      (∀ p ∈ ev.parents, p ∈ node.events) → node.SameRoom ev → Took node ev node₁ →
      pool = node.parked → Grew pool node₁ node' →
      x ∈ node.accepted ∨ node.Takes ev ∧ (x = ev ∨ node.Releases ev x) := by
    intro node₁ pool hnew hp hroom htook hpool hg
    rcases released_of_grew hnew htook hpool hg hx with hold | hadded
    · exact Or.inl hold
    · exact Or.inr ⟨⟨hv, hnew, hp, hroom⟩, hadded⟩
  cases ho with
  | known _ => exact Or.inl hx
  | waits _ _ =>
      rcases park_frame node ev with ⟨inbox, heq, _⟩
      rw [heq] at hx
      exact Or.inl hx
  | refused _ _ _ hunt =>
      have hx' : node'.events.lookup x.id = some x := hx
      rw [hunt.events] at hx'
      exact Or.inl hx'
  | unwritten hnew hp hroom _ htook =>
      rcases (mem_accepted_take hnew htook).1 hx with rfl | hold
      · exact Or.inr ⟨⟨hv, hnew, hp, hroom⟩, Or.inl rfl⟩
      · exact Or.inl hold
  | drained hnew hp hroom htook hdr => exact hall hnew hp hroom htook (hparked htook) hdr.grew
  | broken hnew hp hroom htook hbrk => exact hall hnew hp hroom htook (hparked htook) hbrk.grew

/-- An event that a commit takes is in the log, whatever the drain does. -/
theorem Outcome.takes {res : Except SyncError Bool} (ho : Outcome node ev res node')
    (ht : node.Takes ev) : ev ∈ node'.accepted := by
  rcases ht with ⟨_, hnew, hp, hroom⟩
  cases ho with
  | known hmem => exact absurd hmem hnew
  | waits _ hwait =>
      rw [parentsOk_iff.2 hp] at hwait
      cases hwait
  | refused _ _ hno _ => exact absurd hroom hno
  | unwritten _ _ _ _ htook => exact (mem_accepted_take hnew htook).2 (Or.inl rfl)
  | drained _ _ _ htook hdr => exact hdr.grew.keeps ((mem_accepted_take hnew htook).2 (Or.inl rfl))
  | broken _ _ _ htook hbrk => exact hbrk.grew.keeps ((mem_accepted_take hnew htook).2 (Or.inl rfl))

/-- A drain that cannot fail takes all that is released. -/
theorem Outcome.releases {res : Except SyncError Bool} (hs : node.Sound) (hr : node.Reliable)
    (ho : Outcome node ev res node') (ht : node.Takes ev) (hstay : (node.take ev).DrainStaysInRoom)
    (hx : node.Releases ev x) : x ∈ node'.accepted := by
  rcases ht with ⟨_, hnew, hp, hroom⟩
  cases ho with
  | known hmem => exact absurd hmem hnew
  | waits _ hwait =>
      rw [parentsOk_iff.2 hp] at hwait
      cases hwait
  | refused _ _ hno _ => exact absurd hroom hno
  | unwritten _ _ _ hrel _ => exact absurd hr hrel
  | @drained node₁ _ _ _ _ htook hdr =>
      have hlog : node₁.logIds = (node.take ev).logIds := by
        unfold logIds
        rw [htook.events]
      have hin : x ∈ node₁.parked := by
        rw [parked, htook.inbox]
        exact hx.parked
      have hmem : x.id ∈ node'.events := by
        refine hdr.mem_events.2 (Causal.Supplied.item hin ?_)
        intro p hpx
        rw [hlog, parked, htook.inbox]
        exact hx.supplied p hpx
      rcases HashMap.mem_iff_lookup.1 hmem with ⟨e, he⟩
      rcases hdr.grew.fresh he with hold | ⟨_, hpool⟩
      · exact absurd (htook.events ▸ HashMap.mem_of_lookup hold) hx.new
      · -- parked events with one id are one
        have hEq : e = x := hs.parked_ext (htook.inbox ▸ hpool) hx.parked (hdr.grew.coherent.keyed he)
        rw [hEq] at he
        exact he
  | @broken _ node₁ _ _ _ _ htook hbrk =>
      -- a drain is cut short by a write or by an event of another room
      rcases hbrk.cause with hrel | ⟨y, hy, hlost⟩
      · exact absurd (htook.reliable hr) hrel
      · exact absurd ((staysInRoom_congr htook.events htook.inbox).2 hstay) (hbrk.not_staysInRoom hy hlost)

end DeviceNode

/-! ## Runs -/

inductive OutboxCall
  | commitLocal (ev : SignedEvent)
  | commitRemote (ev : SignedEvent)
  | popOutbox

def OutboxCall.event : OutboxCall → Option SignedEvent
  | .commitLocal ev => some ev
  | .commitRemote ev => some ev
  | .popOutbox => none

/-- A node, and what a run has popped from its outbox, submitted to `commit_local` and submitted at all. -/
structure OutboxRun where
  node : DeviceNode
  popped : List SignedEvent
  authored : List SignedEvent
  submitted : List SignedEvent

namespace OutboxRun

def start (d : DeviceId) (store : Option SqliteStore) : OutboxRun :=
  { node := { DeviceNode.new d with durable := store }
    popped := []
    authored := []
    submitted := [] }

/-- Every event ever pushed to the outbox. -/
def pushed (s : OutboxRun) : List SignedEvent :=
  s.popped ++ s.node.outbox

/-- The outbox got the events of the node's own that are in the log, and each of them once. -/
structure Exact (s : OutboxRun) : Prop where
  once : s.pushed.Nodup
  own : ∀ ev, ev ∈ s.pushed ↔ ev ∈ s.authored ∧ ev ∈ s.node.accepted

section Runs

variable [Primitives]

def commit (s : OutboxRun) (ev : SignedEvent) (toOutbox : Bool) : OutboxRun :=
  { s with
    node := (s.node.commit ev toOutbox).2
    authored := s.authored ++ if toOutbox then [ev] else []
    submitted := s.submitted ++ [ev] }

def step (s : OutboxRun) : OutboxCall → OutboxRun
  | .commitLocal ev => s.commit ev true
  | .commitRemote ev => s.commit ev false
  | .popOutbox =>
      { s with
        node := s.node.popOutbox.2
        popped := s.popped ++ s.node.popOutbox.1.toList }

/-- If the commit takes `ev`, the row of an event of the node's own is written, and no parked event of the
node's own is released. -/
structure CleanCommit (s : OutboxRun) (ev : SignedEvent) (toOutbox : Bool) : Prop where
  written : s.node.Takes ev → toOutbox = true → s.node.WritesOk 1
  releasesNone : s.node.Takes ev → ∀ x ∈ s.authored, ¬ s.node.Releases ev x

def Clean (s : OutboxRun) : OutboxCall → Prop
  | .commitLocal ev => s.CleanCommit ev true
  | .commitRemote ev => s.CleanCommit ev false
  | .popOutbox => True

/-- The call submits nothing that was submitted before. -/
def Fresh (s : OutboxRun) (call : OutboxCall) : Prop :=
  ∀ ev ∈ call.event, ev ∉ s.submitted

/-- What holds of every run. -/
structure Tracked (s : OutboxRun) : Prop where
  sound : s.node.Sound
  held : ∀ ev ∈ s.node.held, ev ∈ s.submitted
  authored : ∀ ev ∈ s.authored, ev ∈ s.submitted

theorem tracked_start (d : DeviceId) (store : Option SqliteStore) : Tracked (start d store) := by
  refine ⟨DeviceNode.Sound.new d store, ?_, ?_⟩
  · rintro ev (hl | hp)
    · simp [DeviceNode.accepted, start, DeviceNode.new] at hl
    · simp [DeviceNode.parked, start, DeviceNode.new] at hp
  · simp [start]

omit [Primitives] in
theorem exact_start (d : DeviceId) (store : Option SqliteStore) : Exact (start d store) := by
  refine ⟨by simp [pushed, start, DeviceNode.new], ?_⟩
  intro ev
  simp [pushed, start, DeviceNode.new]

variable {s : OutboxRun}

theorem Tracked.commit (h : Tracked s) (ev : SignedEvent) (toOutbox : Bool) :
    Tracked (s.commit ev toOutbox) := by
  have hlast : ev ∈ (s.commit ev toOutbox).submitted := by
    simp [OutboxRun.commit]
  have hkept : ∀ {x}, x ∈ s.submitted → x ∈ (s.commit ev toOutbox).submitted :=
    fun hx => List.mem_append_left _ hx
  refine ⟨h.sound.commit ev toOutbox, ?_, ?_⟩
  · by_cases hv : Verified ev
    · have ho := DeviceNode.commit_outcome h.sound hv toOutbox
      -- what the commit takes in was submitted now or before
      have hpool : ∀ {x}, x ∈ s.node.parked ∪ {ev} → x ∈ (s.commit ev toOutbox).submitted := by
        rintro x (hp | rfl)
        · exact hkept (h.held x (Or.inr hp))
        · exact hlast
      rintro x (hl | hp)
      · rcases (ho.grew h.sound.log).fresh hl with hold | ⟨_, hin⟩
        · exact hkept (h.held x (Or.inl hold))
        · exact hpool hin
      · exact hpool (ho.parked_subset hp)
    · rcases DeviceNode.commit_unverified hv toOutbox with ⟨e, heq⟩
      intro x hx
      rw [OutboxRun.commit, heq] at hx
      exact hkept (h.held x hx)
  · intro x hx
    rcases List.mem_append.1 hx with hx | hx
    · exact hkept (h.authored x hx)
    · cases toOutbox with
      | false => cases hx
      | true => exact List.mem_singleton.1 hx ▸ hlast

omit [Primitives] in
theorem popOutbox_frame (node : DeviceNode) : ∃ outbox, node.popOutbox.2 = { node with outbox := outbox } ∧
    node.popOutbox.1.toList ++ outbox = node.outbox := by
  rcases node with ⟨_, _, _, outbox, _, _⟩
  cases outbox with
  | nil => exact ⟨[], rfl, rfl⟩
  | cons ev outbox => exact ⟨outbox, rfl, rfl⟩

theorem Tracked.step (h : Tracked s) (call : OutboxCall) : Tracked (s.step call) := by
  cases call with
  | commitLocal ev => exact h.commit ev true
  | commitRemote ev => exact h.commit ev false
  | popOutbox =>
      rcases popOutbox_frame s.node with ⟨outbox, heq, _⟩
      refine ⟨?_, ?_, h.authored⟩
      · rw [OutboxRun.step, heq]
        exact ⟨h.sound.log.congr rfl (fun _ => rfl), h.sound.verified, h.sound.nodup⟩
      · intro ev hev
        rw [OutboxRun.step, heq] at hev
        exact h.held ev hev

/-- What a commit adds to the log, and what it adds to the outbox. -/
theorem accepted_commit (h : Tracked s) (ev : SignedEvent) (toOutbox : Bool) {x : SignedEvent} :
    (x ∈ s.node.accepted → x ∈ (s.commit ev toOutbox).node.accepted) ∧
    (s.node.Takes ev → ev ∈ (s.commit ev toOutbox).node.accepted) ∧
    (x ∈ (s.commit ev toOutbox).node.accepted →
      x ∈ s.node.accepted ∨ s.node.Takes ev ∧ (x = ev ∨ s.node.Releases ev x)) := by
  by_cases hv : Verified ev
  · have ho := DeviceNode.commit_outcome h.sound hv toOutbox
    exact ⟨(ho.grew h.sound.log).keeps, ho.takes, ho.accepted hv⟩
  · rcases DeviceNode.commit_unverified hv toOutbox with ⟨e, heq⟩
    have hsame : (s.commit ev toOutbox).node = s.node := by
      rw [OutboxRun.commit, heq]
    rw [hsame]
    exact ⟨fun hx => hx, fun ht => absurd ht.1 hv, Or.inl⟩

/-- A clean commit of an event that is new keeps the outbox exact. -/
theorem Exact.commit (hex : Exact s) (h : Tracked s) {ev : SignedEvent} {toOutbox : Bool}
    (hnew : ev ∉ s.submitted) (hclean : s.CleanCommit ev toOutbox) : Exact (s.commit ev toOutbox) := by
  have hunpushed : ev ∉ s.pushed := fun hin => hnew (h.authored ev ((hex.own ev).1 hin).1)
  have hunlogged : ev ∉ s.node.accepted := fun hin => hnew (h.held ev (Or.inl hin))
  -- of the node's own events only `ev` is added to the log
  have hold : ∀ {x}, x ∈ s.authored → x ∈ (s.commit ev toOutbox).node.accepted → x ∈ s.node.accepted := by
    intro x hown hx
    rcases (accepted_commit h ev toOutbox).2.2 hx with hacc | ⟨ht, rfl | hrel⟩
    · exact hacc
    · exact absurd (h.authored x hown) hnew
    · exact absurd hrel (hclean.releasesNone ht x hown)
  have hauth : ∀ x, x ∈ (s.commit ev toOutbox).authored ↔ x ∈ s.authored ∨ toOutbox = true ∧ x = ev := by
    intro x
    cases toOutbox <;> simp [OutboxRun.commit]
  rcases DeviceNode.commit_outbox h.sound ev toOutbox with ⟨htakes, _, hout⟩ | ⟨hno, hout⟩
  · -- taken and written: the log and the outbox get the same event, if it is the node's own
    have hpushed : (s.commit ev toOutbox).pushed = s.pushed ++ if toOutbox then [ev] else [] := by
      rw [pushed, OutboxRun.commit, hout, ← List.append_assoc]
      rfl
    refine ⟨?_, ?_⟩
    · rw [hpushed]
      cases toOutbox with
      | false => simpa using hex.once
      | true => exact List.nodup_append.2 ⟨hex.once, List.nodup_singleton ev, by
          rintro x hx y hy rfl
          exact hunpushed (List.mem_singleton.1 hy ▸ hx)⟩
    · intro x
      have hmem : x ∈ (s.commit ev toOutbox).pushed ↔ x ∈ s.pushed ∨ toOutbox = true ∧ x = ev := by
        rw [hpushed]
        cases toOutbox <;> simp
      rw [hmem, hauth, hex.own]
      constructor
      · rintro (⟨hown, hacc⟩ | ⟨hlocal, rfl⟩)
        · exact ⟨Or.inl hown, (accepted_commit h ev toOutbox).1 hacc⟩
        · exact ⟨Or.inr ⟨hlocal, rfl⟩, (accepted_commit (x := x) h x toOutbox).2.1 htakes⟩
      · rintro ⟨hown | hlast, hacc⟩
        · exact Or.inl ⟨hown, hold hown hacc⟩
        · exact Or.inr hlast
  · have hpushed : (s.commit ev toOutbox).pushed = s.pushed := by
      rw [pushed, OutboxRun.commit, hout]
      rfl
    refine ⟨by rw [hpushed]; exact hex.once, ?_⟩
    intro x
    rw [hpushed, hauth, hex.own]
    constructor
    · rintro ⟨hown, hacc⟩
      exact ⟨Or.inl hown, (accepted_commit h ev toOutbox).1 hacc⟩
    · rintro ⟨hown | ⟨hlocal, rfl⟩, hacc⟩
      · exact ⟨hown, hold hown hacc⟩
      · -- an event of the node's own that is not queued was not taken
        rcases (accepted_commit h x toOutbox).2.2 hacc with hin | ⟨ht, _⟩
        · exact absurd hin hunlogged
        · exact absurd ⟨ht, hclean.written ht hlocal⟩ hno

theorem Exact.step (hex : Exact s) (h : Tracked s) {call : OutboxCall} (hfresh : s.Fresh call)
    (hclean : s.Clean call) : Exact (s.step call) := by
  cases call with
  | commitLocal ev => exact hex.commit h (hfresh ev rfl) hclean
  | commitRemote ev => exact hex.commit h (hfresh ev rfl) hclean
  | popOutbox =>
      rcases popOutbox_frame s.node with ⟨outbox, heq, hsplit⟩
      have hpushed : (s.step .popOutbox).pushed = s.pushed := by
        rw [pushed, OutboxRun.step, heq, pushed, ← hsplit, ← List.append_assoc]
      have hacc : (s.step .popOutbox).node.accepted = s.node.accepted := by
        rw [OutboxRun.step, heq]
        rfl
      refine ⟨by rw [hpushed]; exact hex.once, ?_⟩
      intro ev
      rw [hpushed, hacc]
      exact hex.own ev

/-- Where an exact run stays exact, the row was written. -/
theorem Exact.written (h : Tracked s) {ev : SignedEvent} {toOutbox : Bool} (hnew : ev ∉ s.submitted)
    (hex : Exact s) (hex' : Exact (s.commit ev toOutbox)) (ht : s.node.Takes ev) (hlocal : toOutbox = true) :
    s.node.WritesOk 1 := by
  subst hlocal
  have hown : ev ∈ (s.commit ev true).authored := by
    simp [OutboxRun.commit]
  have hin := (hex'.own ev).2 ⟨hown, (accepted_commit (x := ev) h ev true).2.1 ht⟩
  rcases DeviceNode.commit_outbox h.sound ev true with ⟨_, hw, _⟩ | ⟨_, hout⟩
  · exact hw
  · rw [pushed, OutboxRun.commit, hout] at hin
    exact absurd (h.authored ev ((hex.own ev).1 hin).1) hnew

/-- Where it stays exact and the drain does not fail, nothing of the node's own was released. -/
theorem Exact.releasesNone (h : Tracked s) {ev : SignedEvent} {toOutbox : Bool} (hnew : ev ∉ s.submitted)
    (hex : Exact s) (hex' : Exact (s.commit ev toOutbox)) (hr : s.node.Reliable)
    (hstay : s.node.Takes ev → (s.node.take ev).DrainStaysInRoom) (ht : s.node.Takes ev) :
    ∀ x ∈ s.authored, ¬ s.node.Releases ev x := by
  intro x hown hrel
  have hacc : x ∈ (s.commit ev toOutbox).node.accepted :=
    (DeviceNode.commit_outcome h.sound ht.1 toOutbox).releases h.sound hr ht (hstay ht) hrel
  have hin := (hex'.own x).2 ⟨List.mem_append_left _ hown, hacc⟩
  -- it is not `ev`, so it was on the outbox already, and in the log
  have hne : x ≠ ev := by
    rintro rfl
    exact hnew (h.authored x hown)
  have hbefore : x ∈ s.pushed := by
    rcases DeviceNode.commit_outbox h.sound ev toOutbox with ⟨_, _, hout⟩ | ⟨_, hout⟩
    · rw [pushed, OutboxRun.commit, hout, ← List.append_assoc] at hin
      rcases List.mem_append.1 hin with hin | hin
      · exact hin
      · cases toOutbox with
        | false => cases hin
        | true => exact absurd (List.mem_singleton.1 hin) hne
    · rwa [pushed, OutboxRun.commit, hout] at hin
  exact hrel.new (DeviceNode.mem_take.2 (Or.inr (HashMap.mem_of_lookup ((hex.own x).1 hbefore).2)))

/-! ## The runs that keep the outbox exact -/

theorem along_fresh (calls : List OutboxCall) : ∀ {s : OutboxRun},
    (calls.filterMap OutboxCall.event).Nodup →
    (∀ ev ∈ calls.filterMap OutboxCall.event, ev ∉ s.submitted) → Runs.Along step Fresh s calls := by
  induction calls with
  | nil =>
      intro s _ _
      trivial
  | cons call calls ih =>
      intro s hnd hnew
      have hcommit : ∀ ev, call.event = some ev → (s.step call).submitted = s.submitted ++ [ev] := by
        intro ev hev
        cases call <;> cases hev <;> rfl
      cases hev : call.event with
      | none =>
          rw [List.filterMap_cons_none hev] at hnd hnew
          -- only a pop submits nothing
          have hsame : (s.step call).submitted = s.submitted := by
            cases call with
            | popOutbox => rfl
            | commitLocal ev => cases hev
            | commitRemote ev => cases hev
          refine ⟨?_, ih hnd (by rw [hsame]; exact hnew)⟩
          intro ev hin
          rw [hev] at hin
          cases hin
      | some ev =>
          rw [List.filterMap_cons_some hev] at hnd hnew
          rcases List.nodup_cons.1 hnd with ⟨hno, hnd⟩
          refine ⟨?_, ih hnd ?_⟩
          · intro ev' hin
            rw [hev] at hin
            cases hin
            exact hnew ev (by simp)
          · intro ev' hin hsub
            rw [hcommit ev hev] at hsub
            rcases List.mem_append.1 hsub with hold | hlast
            · exact hnew ev' (List.mem_cons_of_mem _ hin) hold
            · exact hno (List.mem_singleton.1 hlast ▸ hin)

/-- In every run of a new node that submits no event twice, calls that are clean keep the outbox exact. -/
theorem exact_always (d : DeviceId) (store : Option SqliteStore) (calls : List OutboxCall)
    (hdistinct : (calls.filterMap OutboxCall.event).Nodup)
    (hclean : Runs.Along step Clean (start d store) calls) :
    Runs.Always step Exact (start d store) calls := by
  have hfresh : Runs.Along step Fresh (start d store) calls := by
    refine along_fresh calls hdistinct ?_
    simp [start]
  let J : OutboxRun → Prop := fun s => Tracked s ∧ Exact s
  have hstep : ∀ s call, J s → Fresh s call ∧ Clean s call → J (step s call) := by
    rintro s call ⟨h, hex⟩ ⟨hnew, hok⟩
    exact ⟨h.step call, hex.step h hnew hok⟩
  exact Runs.always_of_invariant hstep (fun _ h => h.2) calls ⟨tracked_start d store, exact_start d store⟩
    (hfresh.and hclean)

/-- A drain that the call starts stays in the rooms. -/
def StaysInRoom (s : OutboxRun) (call : OutboxCall) : Prop :=
  ∀ ev ∈ call.event, s.node.Takes ev → (s.node.take ev).DrainStaysInRoom

theorem reliable_step (h : Tracked s) (hr : s.node.Reliable) (call : OutboxCall) :
    (s.step call).node.Reliable := by
  have hcommit : ∀ ev toOutbox, (s.commit ev toOutbox).node.Reliable := by
    intro ev toOutbox
    by_cases hv : Verified ev
    · exact ((DeviceNode.commit_outcome h.sound hv toOutbox).grew h.sound.log).reliable hr
    · rcases DeviceNode.commit_unverified hv toOutbox with ⟨e, heq⟩
      rw [OutboxRun.commit, heq]
      exact hr
  cases call with
  | commitLocal ev => exact hcommit ev true
  | commitRemote ev => exact hcommit ev false
  | popOutbox =>
      rcases popOutbox_frame s.node with ⟨outbox, heq, _⟩
      rw [OutboxRun.step, heq]
      exact hr

/-- Where no write fails and no drain leaves its room, no other run keeps it exact. -/
theorem exact_always_iff (d : DeviceId) (store : Option SqliteStore) (calls : List OutboxCall)
    (hdistinct : (calls.filterMap OutboxCall.event).Nodup) (hr : (start d store).node.Reliable)
    (hstay : Runs.Along step StaysInRoom (start d store) calls) :
    Runs.Always step Exact (start d store) calls ↔ Runs.Along step Clean (start d store) calls := by
  have hfresh : Runs.Along step Fresh (start d store) calls := by
    refine along_fresh calls hdistinct ?_
    simp [start]
  let J : OutboxRun → Prop := fun s => Tracked s ∧ s.node.Reliable
  have hstep : ∀ s call, J s → Fresh s call ∧ StaysInRoom s call → J (step s call) :=
    fun _ call h _ => ⟨h.1.step call, reliable_step h.1 h.2 call⟩
  refine Runs.always_iff_along hstep ?_ calls ⟨tracked_start d store, hr⟩ (exact_start d store)
    (hfresh.and hstay)
  rintro s call ⟨h, hrel⟩ ⟨hnew, hroom⟩ hex
  refine ⟨?_, hex.step h hnew⟩
  intro hex'
  cases call with
  | commitLocal ev =>
      exact ⟨hex.written h (hnew ev rfl) hex', hex.releasesNone h (hnew ev rfl) hex' hrel (hroom ev rfl)⟩
  | commitRemote ev =>
      exact ⟨hex.written h (hnew ev rfl) hex', hex.releasesNone h (hnew ev rfl) hex' hrel (hroom ev rfl)⟩
  | popOutbox => trivial

end Runs

/-! ## A run: the node's own reply waits for an event of another -/

section Example

open Checksum DeviceNode

attribute [local instance] Checksum.primitives

/-- `hello` releases `reply`, and no peer is ever offered it. -/
theorem exact_always_reply :
    ¬ ∀ (d : DeviceId) (store : Option SqliteStore) (calls : List OutboxCall),
      (calls.filterMap OutboxCall.event).Nodup → Runs.Always step Exact (start d store) calls := by
  intro h
  have hrun : ([OutboxCall.commitLocal reply, .commitRemote hello].filterMap OutboxCall.event).Nodup ∧
      ((start (device 2) none).step (.commitLocal reply)).authored = [reply] ∧
      (((start (device 2) none).step (.commitLocal reply)).step (.commitRemote hello)).pushed = [] ∧
      (((start (device 2) none).step (.commitLocal reply)).step
        (.commitRemote hello)).node.events.lookup reply.id = some reply := by
    decide +kernel
  rcases hrun with ⟨hdistinct, hown, hnone, hlog⟩
  have hend := (h (device 2) none _ hdistinct).2.2
  have hauthored : reply ∈ (((start (device 2) none).step (.commitLocal reply)).step
      (.commitRemote hello)).authored := by
    refine List.mem_append_left _ ?_
    rw [hown]
    exact List.mem_singleton_self _
  have hin := (hend.own reply).2 ⟨hauthored, hlog⟩
  rw [hnone] at hin
  cases hin

/-- The node's own `hello` releases a reply of another, and is popped. -/
theorem exact_always_hello : Runs.Always step Exact (start (device 2) none)
    [.commitRemote reply, .commitLocal hello, .popOutbox] := by
  have hrun : ([OutboxCall.commitRemote reply, .commitLocal hello, .popOutbox].filterMap
        OutboxCall.event).Nodup ∧
      ((start (device 2) none).step (.commitRemote reply)).authored = [] ∧
      ((start (device 2) none).step (.commitRemote reply)).node.durable = none := by
    decide +kernel
  rcases hrun with ⟨hdistinct, hnone, hmemory⟩
  refine exact_always (device 2) none _ hdistinct ⟨⟨?_, ?_⟩, ⟨?_, ?_⟩, trivial, trivial⟩
  · intro _ hlocal
    cases hlocal
  · intro _ x hx
    cases hx
  · intro _ _ store hst
    rw [hmemory] at hst
    cases hst
  · intro _ x hx
    rw [hnone] at hx
    cases hx

end Example

end OutboxRun

end Node
end Thunderducks
