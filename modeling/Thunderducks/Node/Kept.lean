import Thunderducks.Node.Commit

/-!
# Kept — what a commit keeps, read off its steps

A commit shows events to their DAGs and takes them, one after the other, until it is done or an error
ends it.  `Kept P E pool` says what each of these steps does to a property `P` of the node, and that an
error on the way leaves `E`; `ingestEvent_kept` carries it through the drain to the end of the call.
-/

namespace Thunderducks
namespace Node
namespace DeviceNode

open Lib Event

section Kept

variable [Primitives]

/-- `P` does not notice the inbox; showing an event of `pool` to its DAG and taking it keep `P`; an
event that its DAG refuses, and one whose row is not written, leave `E`. -/
structure Kept (P E : DeviceNode → Prop) (pool : Set SignedEvent) : Prop where
  known : ∀ node ev, ev ∈ pool → ev.id ∉ node.events → node.parentsOk ev = true → P node →
    (node.dagIngest ev).1 = .ok false → P (node.dagIngest ev).2
  take : ∀ node ev, ev ∈ pool → ev.id ∉ node.events → node.parentsOk ev = true → P node →
    (node.dagIngest ev).1 = .ok true → ((node.dagIngest ev).2.record ev).1 = .ok () →
    P ((node.dagIngest ev).2.record ev).2
  refused : ∀ node ev e inbox, ev ∈ pool → ev.id ∉ node.events → node.parentsOk ev = true → P node →
    (node.dagIngest ev).1 = .error e → E { (node.dagIngest ev).2 with inbox := inbox }
  unwritten : ∀ node ev e inbox, ev ∈ pool → ev.id ∉ node.events → node.parentsOk ev = true → P node →
    (node.dagIngest ev).1 = .ok true → ((node.dagIngest ev).2.record ev).1 = .error e →
    E { ((node.dagIngest ev).2.record ev).2 with inbox := inbox }
  inbox : ∀ node inbox, P node → P { node with inbox := inbox }

/-- `P` where the call succeeds, `E` where it fails. -/
structure Ends {α : Type} (P E : DeviceNode → Prop) (res : Except SyncError α) (node : DeviceNode) :
    Prop where
  ok : ∀ a, res = .ok a → P node
  failed : ∀ e, res = .error e → E node

variable {P E : DeviceNode → Prop} {pool : Set SignedEvent}

omit [Primitives] in
theorem Ends.of_ok {α : Type} {a : α} {node : DeviceNode} (h : P node) : Ends P E (.ok a) node :=
  ⟨fun _ _ => h, fun _ he => absurd he (by simp)⟩

omit [Primitives] in
theorem Ends.of_error {α : Type} {e : SyncError} {node : DeviceNode} (h : E node) :
    Ends (α := α) P E (.error e) node :=
  ⟨fun _ ha => absurd ha (by simp), fun _ _ => h⟩

theorem drainPass_kept (h : Kept P E pool) (queue : List SignedEvent) :
    ∀ {node : DeviceNode} {rest : List SignedEvent} {progress : Bool} {res : Except SyncError Bool}
      {node' : DeviceNode},
      (∀ x ∈ queue, x ∈ pool) → (∀ x ∈ rest, x ∈ pool) → P node →
      node.drainPass queue rest progress = (res, node') →
      Ends P E res node' ∧ ∀ x ∈ node'.inbox, x ∈ pool := by
  induction queue with
  | nil =>
      intro node rest progress res node' _ hrest hp hrun
      cases hrun
      exact ⟨Ends.of_ok (h.inbox node rest hp), hrest⟩
  | cons ev queue ih =>
      intro node rest progress res node' hqueue hrest hp hrun
      have hev : ev ∈ pool := hqueue ev (by simp)
      have htail : ∀ x ∈ queue, x ∈ pool := fun x hx => hqueue x (List.mem_cons_of_mem _ hx)
      unfold drainPass at hrun
      -- known events go, events that wait come after the rest
      split at hrun
      · exact ih htail hrest hp hrun
      next hnew =>
      split at hrun
      · refine ih htail ?_ hp hrun
        intro x hx
        rcases List.mem_append.1 hx with hx | hx
        · exact hrest x hx
        · rw [List.mem_singleton.1 hx]
          exact hev
      next hok =>
      have hparents : node.parentsOk ev = true := by
        simpa using hok
      -- what `dagIngest` and `record` return decides which of the steps it was
      have hknown := h.known node ev hev hnew hparents hp
      have htake := h.take node ev hev hnew hparents hp
      have hrefused := fun e => h.refused node ev e queue hev hnew hparents hp
      have hunwritten := fun e => h.unwritten node ev e queue hev hnew hparents hp
      rcases hing : node.dagIngest ev with ⟨res₁, node₁⟩
      rw [hing] at hrun hknown htake hrefused hunwritten
      cases res₁ with
      | error e =>
          cases hrun
          exact ⟨Ends.of_error (hrefused e rfl), htail⟩
      | ok b =>
          cases b with
          | false => exact ih htail hrest (hknown rfl) hrun
          | true =>
              dsimp only at hrun htake hunwritten
              rcases hrecord : node₁.record ev with ⟨res₂, node₂⟩
              rw [hrecord] at hrun htake hunwritten
              cases res₂ with
              | error e =>
                  cases hrun
                  exact ⟨Ends.of_error (hunwritten e rfl rfl), htail⟩
              | ok u => exact ih htail hrest (htake rfl rfl) hrun

theorem drainLoop_kept (h : Kept P E pool) (fuel : Nat) : ∀ {node : DeviceNode}
    {res : Except SyncError Unit} {node' : DeviceNode}, (∀ x ∈ node.inbox, x ∈ pool) → P node →
    drainLoop fuel node = (res, node') → Ends P E res node' := by
  induction fuel with
  | zero =>
      intro node res node' _ hp hrun
      cases hrun
      exact Ends.of_ok hp
  | succ fuel ih =>
      intro node res node' hin hp hrun
      unfold drainLoop at hrun
      rcases hpass : node.drainPass node.inbox [] false with ⟨res₁, node₁⟩
      rw [hpass] at hrun
      rcases drainPass_kept h node.inbox hin (by simp) hp hpass with ⟨hends, hin₁⟩
      cases res₁ with
      | error e =>
          cases hrun
          exact Ends.of_error (hends.failed e rfl)
      | ok b =>
          cases b with
          | false =>
              cases hrun
              exact Ends.of_ok (hends.ok false rfl)
          | true => exact ih hin₁ (hends.ok true rfl) hrun

/-- A commit keeps `P` or leaves `E`, if queueing for the outbox keeps `P`. -/
theorem ingestEvent_kept (h : Kept P E pool) {node node' : DeviceNode} {ev : SignedEvent}
    {toOutbox : Bool} {res : Except SyncError Bool}
    (hout : toOutbox = true → ∀ node outbox, P node → P { node with outbox := outbox })
    (hin : ∀ x ∈ node.inbox, x ∈ pool) (hev : ev ∈ pool) (hp : P node)
    (hrun : node.ingestEvent ev toOutbox = (res, node')) : Ends P E res node' := by
  unfold ingestEvent at hrun
  split at hrun
  · cases hrun
    exact Ends.of_ok hp
  next hnew =>
  split at hrun
  · rcases park_frame node ev with ⟨inbox, heq, _⟩
    rw [heq] at hrun
    cases hrun
    exact Ends.of_ok (h.inbox node inbox hp)
  next hok =>
  have hparents : node.parentsOk ev = true := by
    simpa using hok
  have hknown := h.known node ev hev hnew hparents hp
  have htake := h.take node ev hev hnew hparents hp
  have hrefused := fun e inbox => h.refused node ev e inbox hev hnew hparents hp
  have hunwritten := fun e inbox => h.unwritten node ev e inbox hev hnew hparents hp
  have hinbox : (node.dagIngest ev).2.inbox = node.inbox := rfl
  rcases hing : node.dagIngest ev with ⟨res₁, node₁⟩
  rw [hing] at hrun hknown htake hinbox hrefused hunwritten
  dsimp only at hinbox
  cases res₁ with
  | error e =>
      cases hrun
      exact Ends.of_error (hrefused e node'.inbox rfl)
  | ok b₁ =>
      cases b₁ with
      | false =>
          cases hrun
          exact Ends.of_ok (hknown rfl)
      | true =>
          have hframe := record_inbox node₁ ev
          dsimp only at hrun htake hunwritten
          rcases hrecord : node₁.record ev with ⟨res₂, node₂⟩
          rw [hrecord] at hrun htake hframe hunwritten
          dsimp only at hframe
          cases res₂ with
          | error e =>
              cases hrun
              exact Ends.of_error (hunwritten e node'.inbox rfl rfl)
          | ok u =>
              have hp₂ : P node₂ := htake rfl rfl
              have hpool : ∀ x ∈ node₂.inbox, x ∈ pool := by
                rw [hframe, hinbox]
                exact hin
              -- what the drain starts from, with the event queued for the outbox or not
              let node₃ := if toOutbox then { node₂ with outbox := node₂.outbox ++ [ev] } else node₂
              have hp₃ : P node₃ := by
                cases toOutbox with
                | false => exact hp₂
                | true => exact hout rfl node₂ (node₂.outbox ++ [ev]) hp₂
              have hpool₃ : ∀ x ∈ node₃.inbox, x ∈ pool := by
                cases toOutbox with
                | false => exact hpool
                | true => exact hpool
              dsimp only at hrun
              split at hrun
              next heq =>
                cases hrun
                exact Ends.of_error ((drainLoop_kept h _ hpool₃ hp₃ heq).failed _ rfl)
              next heq =>
                cases hrun
                exact Ends.of_ok ((drainLoop_kept h _ hpool₃ hp₃ heq).ok () rfl)

end Kept

end DeviceNode
end Node
end Thunderducks
