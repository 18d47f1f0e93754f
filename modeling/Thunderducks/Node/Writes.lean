import Thunderducks.Node.Kept
import Thunderducks.Node.Loss

/-!
# Writes — a commit whose writes all succeed

A commit writes at most one row for the event it is given and one for each parked event.  If none of
these writes fails (`WritesOk`), the durable store makes no difference to what the commit answers:
`commit_inMemory` compares it with the same commit on a node without a store.
-/

namespace Thunderducks
namespace Node
namespace DeviceNode

open Lib Event

/-- None of the next `n` writes of the durable store fails. -/
def WritesOk (node : DeviceNode) (n : Nat) : Prop :=
  ∀ store, node.durable = some store → ∀ b ∈ store.faults.take n, b = false

/-- The node without its durable store. -/
def inMemory (node : DeviceNode) : DeviceNode :=
  { node with durable := none }

theorem WritesOk.mono {node : DeviceNode} {m n : Nat} (h : node.WritesOk n) (hle : m ≤ n) :
    node.WritesOk m :=
  fun store hst b hb => h store hst b (List.take_subset_take_left _ hle hb)

section Writes

variable [Primitives]

/-! ## Every write succeeds -/

theorem record_writesOk {node : DeviceNode} {ev : SignedEvent} {n : Nat} (hv : Verified ev)
    (h : node.WritesOk (n + 1)) :
    (node.record ev).1 = .ok () ∧ (node.record ev).2.WritesOk n := by
  have hv' : verifyEvent ev = .ok () := hv
  unfold record
  cases hd : node.durable with
  | none =>
      refine ⟨by simp, ?_⟩
      intro store hst
      cases hst
  | some store =>
      have hall := h store hd
      have hhead : store.nextFails = false := by
        unfold SqliteStore.nextFails
        cases hf : store.faults with
        | nil => rfl
        | cons b bs => exact hall b (by simp [hf])
      have htail : ∀ b ∈ store.faults.tail.take n, b = false := by
        cases hf : store.faults with
        | nil => simp
        | cons b bs =>
            intro c hc
            refine hall c ?_
            rw [hf, List.take_succ_cons]
            exact List.mem_cons_of_mem _ hc
      -- written again or for the first time: one write either way
      by_cases hmem : ev.id ∈ store.rows
      · simp only [SqliteStore.put, hv', hhead, hmem]
        refine ⟨by simp, ?_⟩
        intro store' hst'
        simp only [Bool.false_eq_true, if_false, if_true, Option.some.injEq] at hst'
        subst hst'
        exact htail
      · simp only [SqliteStore.put, hv', hhead, hmem]
        refine ⟨by simp, ?_⟩
        intro store' hst'
        simp only [Bool.false_eq_true, if_false, Option.some.injEq] at hst'
        subst hst'
        exact htail

theorem drainPass_writesOk (queue : List SignedEvent) :
    ∀ {node : DeviceNode} {rest : List SignedEvent} {progress : Bool},
      (∀ x ∈ queue, Verified x) → node.WritesOk (queue.length + rest.length) →
      (∃ p, (node.drainPass queue rest progress).1 = .ok p ∧
        (node.drainPass queue rest progress).2.WritesOk
          (node.drainPass queue rest progress).2.inbox.length) ∨
      ∃ e, (node.drainPass queue rest progress).1 = .error (.dag e) := by
  induction queue with
  | nil =>
      intro node rest progress _ hw
      refine Or.inl ⟨progress, rfl, ?_⟩
      simpa [drainPass, WritesOk] using hw
  | cons ev queue ih =>
      intro node rest progress hv hw
      have htail : ∀ x ∈ queue, Verified x := fun x hx => hv x (List.mem_cons_of_mem _ hx)
      have hless : node.WritesOk (queue.length + rest.length) := hw.mono (by simp)
      unfold drainPass
      split
      · exact ih htail hless
      split
      · -- the event moves from the queue to what is kept
        refine ih htail ?_
        refine hw.mono ?_
        simp only [List.length_append, List.length_cons, List.length_nil]
        omega
      have hdur : (node.dagIngest ev).2.durable = node.durable := rfl
      rcases hing : node.dagIngest ev with ⟨res₁, node₁⟩
      rw [hing] at hdur
      dsimp only at hdur
      have hlen : queue.length + rest.length + 1 ≤ (ev :: queue).length + rest.length := by
        rw [List.length_cons]
        omega
      have hw₁ : node₁.WritesOk (queue.length + rest.length + 1) := by
        intro store hst
        rw [hdur] at hst
        exact hw.mono hlen store hst
      cases res₁ with
      | error e => exact Or.inr ⟨e, rfl⟩
      | ok b =>
          cases b with
          | false => exact ih htail (hw₁.mono (Nat.le_succ _))
          | true =>
              rcases record_writesOk (hv ev (by simp)) hw₁ with ⟨hok, hw₂⟩
              dsimp only
              rcases hrecord : node₁.record ev with ⟨res₂, node₂⟩
              rw [hrecord] at hok hw₂
              dsimp only at hok
              subst hok
              exact ih htail hw₂

theorem drainLoop_writesOk (fuel : Nat) : ∀ {node : DeviceNode}, (∀ x ∈ node.inbox, Verified x) →
    node.WritesOk node.inbox.length →
    (drainLoop fuel node).1 = .ok () ∨ ∃ e, (drainLoop fuel node).1 = .error (.dag e) := by
  induction fuel with
  | zero =>
      intro node _ _
      exact Or.inl rfl
  | succ fuel ih =>
      intro node hv hw
      have hkept : Kept (fun _ => True) (fun _ => True) {ev | Verified ev} :=
        ⟨fun _ _ _ _ _ _ _ => trivial, fun _ _ _ _ _ _ _ _ => trivial,
          fun _ _ _ _ _ _ _ _ _ => trivial, fun _ _ _ _ _ _ _ _ _ _ => trivial, fun _ _ _ => trivial⟩
      have hpass := @drainPass_writesOk _ node.inbox node [] false hv (by simpa using hw)
      unfold drainLoop
      rcases hrun : node.drainPass node.inbox [] false with ⟨res₁, node₁⟩
      rw [hrun] at hpass
      have hv₁ := (drainPass_kept hkept node.inbox hv (by simp) trivial hrun).2
      rcases hpass with ⟨p, hp, hw₁⟩ | ⟨e, he⟩
      · dsimp only at hp hw₁
        subst hp
        cases p with
        | false => exact Or.inl rfl
        | true => exact ih hv₁ hw₁
      · dsimp only at he
        subst he
        exact Or.inr ⟨e, rfl⟩

/-! ## The store makes no difference -/

theorem record_inMemory (node : DeviceNode) (ev : SignedEvent) :
    node.inMemory.record ev = (.ok (), (node.record ev).2.inMemory) := by
  rcases record_frame node ev with ⟨store, hframe⟩
  rw [hframe]
  rfl

theorem drainPass_inMemory (queue : List SignedEvent) :
    ∀ {node : DeviceNode} {rest : List SignedEvent} {progress : Bool},
      (∀ e, (node.drainPass queue rest progress).1 ≠ .error (.store e)) →
      node.inMemory.drainPass queue rest progress =
        ((node.drainPass queue rest progress).1, (node.drainPass queue rest progress).2.inMemory) := by
  induction queue with
  | nil =>
      intro node rest progress _
      rfl
  | cons ev queue ih =>
      intro node rest progress hno
      -- the pass reads nothing of the store before it writes the row
      have hknown : ev.id ∈ node.inMemory.events ↔ ev.id ∈ node.events := Iff.rfl
      have hparents : node.inMemory.parentsOk ev = node.parentsOk ev := rfl
      have hdag : node.inMemory.dagIngest ev = ((node.dagIngest ev).1, (node.dagIngest ev).2.inMemory) :=
        rfl
      unfold drainPass at hno ⊢
      simp only [hknown, hparents, hdag]
      split
      next hmem =>
        simp only [hmem, if_true] at hno
        exact ih hno
      next hnew =>
      simp only [hnew, if_false] at hno
      split
      next hwait =>
        simp only [hwait, if_true] at hno
        exact ih hno
      next hok =>
      simp only [hok] at hno
      rcases hing : node.dagIngest ev with ⟨res₁, node₁⟩
      rw [hing] at hno
      cases res₁ with
      | error e => rfl
      | ok b =>
          cases b with
          | false => exact ih hno
          | true =>
              dsimp only at hno ⊢
              rw [record_inMemory]
              rcases hrecord : node₁.record ev with ⟨res₂, node₂⟩
              rw [hrecord] at hno
              cases res₂ with
              | error e => exact absurd rfl (hno e)
              | ok u => exact ih hno

theorem drainLoop_inMemory (fuel : Nat) : ∀ {node : DeviceNode},
    (∀ e, (drainLoop fuel node).1 ≠ .error (.store e)) →
    drainLoop fuel node.inMemory = ((drainLoop fuel node).1, (drainLoop fuel node).2.inMemory) := by
  induction fuel with
  | zero =>
      intro node _
      rfl
  | succ fuel ih =>
      intro node hno
      have hinbox : node.inMemory.inbox = node.inbox := rfl
      have hpass := @drainPass_inMemory _ node.inbox node [] false
      unfold drainLoop at hno ⊢
      rw [hinbox]
      rcases hrun : node.drainPass node.inbox [] false with ⟨res₁, node₁⟩
      rw [hrun] at hno hpass
      cases res₁ with
      | error e =>
          have hne : ∀ e', (Except.error e : Except SyncError Bool) ≠ .error (.store e') := by
            intro e' heq
            cases heq
            exact hno e' rfl
          rw [hpass hne]
      | ok b =>
          rw [hpass (by simp)]
          cases b with
          | false => rfl
          | true => exact ih hno

/-- A drain in which no write fails does the same on a node without a store. -/
theorem drainInbox_inMemory {node : DeviceNode} (hv : ∀ x ∈ node.inbox, Verified x)
    (hw : node.WritesOk node.inbox.length) :
    node.inMemory.drainInbox = (node.drainInbox.1, node.drainInbox.2.inMemory) := by
  refine drainLoop_inMemory (node.inbox.length + 1) ?_
  intro e he
  rcases drainLoop_writesOk (node.inbox.length + 1) hv hw with hok | ⟨e', hdagErr⟩
  · rw [he] at hok
    cases hok
  · rw [he] at hdagErr
    cases hdagErr

/-- Without a failing write a commit answers what it answers on a node without a store. -/
theorem commit_inMemory {node : DeviceNode} {ev : SignedEvent} (hs : node.Sound) (hv : Verified ev)
    (hw : node.WritesOk (node.inbox.length + 1)) (toOutbox : Bool) :
    (node.inMemory.commit ev toOutbox).1 = (node.commit ev toOutbox).1 := by
  have hknown : ev.id ∈ node.inMemory.events ↔ ev.id ∈ node.events := Iff.rfl
  have hparents : node.inMemory.parentsOk ev = node.parentsOk ev := rfl
  have hdag : node.inMemory.dagIngest ev = ((node.dagIngest ev).1, (node.dagIngest ev).2.inMemory) :=
    rfl
  rw [commit_verified hv, commit_verified hv]
  unfold ingestEvent
  simp only [hknown, hparents, hdag]
  split
  · rfl
  split
  · rfl
  have hdur : (node.dagIngest ev).2.durable = node.durable := rfl
  have hinbox : (node.dagIngest ev).2.inbox = node.inbox := rfl
  rcases hing : node.dagIngest ev with ⟨res₁, node₁⟩
  rw [hing] at hdur hinbox
  dsimp only at hdur hinbox
  have hw₁ : node₁.WritesOk (node.inbox.length + 1) := by
    intro store hst
    rw [hdur] at hst
    exact hw store hst
  cases res₁ with
  | error e => rfl
  | ok b =>
      cases b with
      | false => rfl
      | true =>
          rcases record_writesOk hv hw₁ with ⟨hok, hw₂⟩
          have hframe := record_inbox node₁ ev
          dsimp only
          rw [record_inMemory]
          rcases hrecord : node₁.record ev with ⟨res₂, node₂⟩
          rw [hrecord] at hok hw₂ hframe
          dsimp only at hok hw₂ hframe
          subst hok
          dsimp only
          have hinbox₂ : node₂.inbox = node.inbox := hframe.trans hinbox
          have hv₂ : ∀ x ∈ node₂.inbox, Verified x := by
            rw [hinbox₂]
            exact hs.verified
          rw [← hinbox₂] at hw₂
          -- the drain starts from the same node, with the event queued for the outbox or not
          cases toOutbox with
          | false =>
              have hsame := drainInbox_inMemory hv₂ hw₂
              simp only [Bool.false_eq_true, if_false, hsame]
              rcases node₂.drainInbox with ⟨res₃, node₃⟩
              cases res₃ <;> rfl
          | true =>
              have hsame := @drainInbox_inMemory _ { node₂ with outbox := node₂.outbox ++ [ev] } hv₂ hw₂
              have hqueue : { node₂.inMemory with outbox := node₂.inMemory.outbox ++ [ev] } =
                  { node₂ with outbox := node₂.outbox ++ [ev] }.inMemory := rfl
              simp only [if_true, hqueue, hsame]
              generalize DeviceNode.drainInbox { node₂ with outbox := node₂.outbox ++ [ev] } = out
              rcases out with ⟨res₃, node₃⟩
              cases res₃ <;> rfl

/-- A commit that takes its event, writes without a failure and drains within the rooms succeeds. -/
theorem commit_takes_ok {node : DeviceNode} {ev : SignedEvent} (hs : node.Sound)
    (htakes : node.Takes ev) (hw : node.WritesOk (node.inbox.length + 1))
    (hstay : (node.take ev).DrainStaysInRoom) (toOutbox : Bool) :
    (node.commit ev toOutbox).1 = .ok true := by
  rcases htakes with ⟨hv, hnew, hp, hroom⟩
  have hs' : node.inMemory.Sound := ⟨hs.log.congr rfl (fun _ => rfl), hs.verified, hs.nodup⟩
  have hr' : node.inMemory.Reliable := by
    intro store hst
    cases hst
  -- writes that succeed are as good as none
  rw [← commit_inMemory hs hv hw]
  have ho := commit_outcome hs' hv toOutbox
  revert ho
  generalize (node.inMemory.commit ev toOutbox).1 = res
  generalize (node.inMemory.commit ev toOutbox).2 = node'
  intro ho
  cases ho with
  | known hmem => exact absurd hmem hnew
  | waits _ hwait =>
      rw [show node.inMemory.parentsOk ev = true from parentsOk_iff.2 hp] at hwait
      cases hwait
  | refused _ _ hother _ => exact absurd hroom hother
  | unwritten _ _ _ hrel _ => exact absurd hr' hrel
  | drained _ _ _ _ _ => rfl
  | broken _ _ _ htook hbrk =>
      rcases hbrk.cause with hrel | ⟨x, hx, hlost⟩
      · exact absurd (htook.reliable hr') hrel
      · refine absurd ?_ (hbrk.not_staysInRoom hx hlost)
        exact (staysInRoom_congr htook.events htook.inbox).2 hstay

end Writes

end DeviceNode
end Node
end Thunderducks
