import Thunderducks.Lib.Lockout
import Thunderducks.Lib.Runs
import Thunderducks.Node.OwnerSessions

/-!
# RecoveryLimit — how often a recovery code can be guessed (`recovery_login` in `td-node/src/rpc.rs`)

The fifth wrong code starts the count of failures anew and locks the handler for a minute, up to but not
including the end of that minute.  `OwnerState.lockout` reads the two fields as a `Lockout`; the wrong codes
that are compared with the stored hash are its failures, so that no minute holds more than five.
-/

namespace Thunderducks
namespace Node

open Lib Event

/-- A login with what its handling draws. -/
structure LoginTry where
  draw : Draw
  req : RecoveryLoginRequest

/-- The code is refused as too short. -/
def LoginTry.isShort (t : LoginTry) : Bool :=
  (Text.trim t.req.recoveryCode).utf8ByteSize < 8

/-- The answers that leave the code unread. -/
def Response.Unread (resp : Response) : Prop :=
  resp = .error 400 "recovery_code required" none ∨
    ∃ secs, resp = .error 429 ("too many failed attempts; retry in " ++ toString secs ++ "s")
      (some (max secs 1))

def invalidCode : Response :=
  .error 401 "invalid recovery code" none

namespace OwnerState

/-! ## One login -/

/-- The handler compares the hash of the code with the stored one. -/
def compares (st : OwnerState) (t : LoginTry) : Bool :=
  !t.isShort && (st.recoveryLocked t.draw.now).isNone && st.claim.claimed && st.claim.recoveryHash.isSome

/-- The two fields as a lock. -/
def lockout (st : OwnerState) : Lockout :=
  { failures := st.recoveryFailures
    lockUntil := st.recoveryLockUntil }

theorem recoveryLocked_eq_none_iff {st : OwnerState} {now : Instant} :
    st.recoveryLocked now = none ↔ st.lockout.locked now = false := by
  unfold recoveryLocked Lockout.locked lockout
  cases st.recoveryLockUntil with
  | none => simp
  | some t =>
      dsimp only
      by_cases h : t > now
      · simp [h]
      · simp [h]

/-- The count saturates far above the limit, so that it is the count of the lock. -/
theorem lockout_noteRecoveryFailure (st : OwnerState) (now : Instant) :
    (st.noteRecoveryFailure now).lockout = st.lockout.fail 5 (Instant.secs 60) now := by
  unfold noteRecoveryFailure Lockout.fail lockout
  dsimp only
  by_cases h : st.recoveryFailures + 1 ≥ 5
  · have hsat : min (st.recoveryFailures + 1) (2 ^ 32 - 1) ≥ 5 := by omega
    rw [if_pos h, if_pos hsat]
  · have hsat : min (st.recoveryFailures + 1) (2 ^ 32 - 1) = st.recoveryFailures + 1 := by omega
    rw [if_neg h, hsat, if_neg h]

section Login

variable [Primitives] [Unicode]

def login (st : OwnerState) (t : LoginTry) : Response × OwnerState :=
  st.recoveryLogin t.draw t.req

/-- What one login does on a claimed node with a stored hash. -/
inductive LoginTurn (st : OwnerState) (t : LoginTry) : Response → OwnerState → Prop
  | unread {resp : Response} : st.compares t = false → (t.isShort = true ∨ st.lockout.locked t.draw.now = true) →
      resp.Unread → LoginTurn st t resp st
  | wrong {st' : OwnerState} : st.compares t = true → st' = st.noteRecoveryFailure t.draw.now →
      LoginTurn st t invalidCode st'
  | right {body : RecoveryLoginResponse} {st' : OwnerState} : st.compares t = true →
      LoginTurn st t (.login body) st'

theorem login_turn {st : OwnerState} (t : LoginTry) (hclaimed : st.claim.claimed = true)
    (hhash : st.claim.recoveryHash.isSome = true) : LoginTurn st t (st.login t).1 (st.login t).2 := by
  rcases Option.isSome_iff_exists.1 hhash with ⟨expected, hexpected⟩
  unfold login recoveryLogin
  dsimp only
  by_cases hshort : (Text.trim t.req.recoveryCode).utf8ByteSize < 8
  · rw [if_pos hshort]
    have hs : t.isShort = true := decide_eq_true hshort
    exact LoginTurn.unread (by simp [compares, hs]) (Or.inl hs) (Or.inl rfl)
  · rw [if_neg hshort]
    have hs : t.isShort = false := decide_eq_false hshort
    cases hlock : st.recoveryLocked t.draw.now with
    | some secs =>
        have hlocked : st.lockout.locked t.draw.now = true := by
          by_contra hopen
          rw [recoveryLocked_eq_none_iff.2 (by simpa using hopen)] at hlock
          cases hlock
        exact LoginTurn.unread (by simp [compares, hlock]) (Or.inr hlocked) (Or.inr ⟨secs, rfl⟩)
    | none =>
        have hcompares : st.compares t = true := by
          simp [compares, hs, hlock, hclaimed, hhash]
        dsimp only
        rw [if_neg (by simp [hclaimed]), hexpected]
        dsimp only
        split
        · exact LoginTurn.wrong hcompares rfl
        · exact LoginTurn.right hcompares

omit [Primitives] [Unicode] in
theorem noteRecoveryFailure_claim (st : OwnerState) (now : Instant) :
    (st.noteRecoveryFailure now).claim = st.claim := by
  unfold noteRecoveryFailure
  dsimp only
  split
  · rfl
  · rfl

/-! ## Runs of logins -/

/-- The times at which a code is compared. -/
def comparedAt : OwnerState → List LoginTry → List Instant
  | _, [] => []
  | st, t :: tries =>
      let rest := comparedAt (st.login t).2 tries
      if st.compares t then t.draw.now :: rest else rest

/-- The attempts that come as far as the lock. -/
def attempts (tries : List LoginTry) : List Nat :=
  (tries.filter fun t => !t.isShort).map fun t => t.draw.now

/-- The node that the logins leave behind. -/
def afterLogins (st : OwnerState) (tries : List LoginTry) : OwnerState :=
  Runs.run (fun st t => (st.login t).2) st tries

/-- No login of the run succeeds. -/
def NoneSucceeds (st : OwnerState) (tries : List LoginTry) : Prop :=
  ∀ resp ∈ Runs.answers login st tries, ∀ body, resp ≠ .login body

variable {st : OwnerState} {tries : List LoginTry}

/-- What the turns of a run without success are, one by one. -/
theorem NoneSucceeds.cons {t : LoginTry} (h : NoneSucceeds st (t :: tries)) :
    (∀ body, (st.login t).1 ≠ .login body) ∧ NoneSucceeds (st.login t).2 tries :=
  ⟨fun body => h _ (by simp [Runs.answers]) body,
    fun resp hresp => h resp (by simp [Runs.answers, hresp])⟩

/-- A code with another hash than the stored one does not log in, whatever else is asked first. -/
theorem login_wrong {t : LoginTry} {expected : String} (hhash : st.claim.recoveryHash = some expected)
    (hwrong : sameHash (hashRecovery (Text.trim t.req.recoveryCode)) expected = false) :
    (∀ body, (st.login t).1 ≠ .login body) ∧ (st.login t).2.claim = st.claim := by
  unfold login recoveryLogin
  dsimp only
  split
  · exact ⟨by simp, rfl⟩
  split
  · exact ⟨by simp, rfl⟩
  split
  · exact ⟨by simp, rfl⟩
  rw [hhash]
  dsimp only
  rw [if_pos hwrong]
  exact ⟨by simp, st.noteRecoveryFailure_claim t.draw.now⟩

theorem noneSucceeds_of_wrong {expected : String} (tries : List LoginTry) : ∀ {st : OwnerState},
    st.claim.recoveryHash = some expected →
    (∀ t ∈ tries, sameHash (hashRecovery (Text.trim t.req.recoveryCode)) expected = false) →
    NoneSucceeds st tries := by
  induction tries with
  | nil =>
      intro st _ _ resp hresp
      cases hresp
  | cons t tries ih =>
      intro st hhash hwrong resp hresp
      rcases login_wrong hhash (hwrong t (by simp)) with ⟨hfails, hclaim⟩
      rw [Runs.answers] at hresp
      rcases List.mem_cons.1 hresp with rfl | hresp
      · exact hfails
      · exact ih (by rw [hclaim]; exact hhash) (fun t' ht' => hwrong t' (List.mem_cons_of_mem _ ht')) resp
          hresp

/-- The codes compared are the failures of the lock. -/
theorem comparedAt_eq_failTimes (tries : List LoginTry) : ∀ {st : OwnerState}, st.claim.claimed = true →
    st.claim.recoveryHash.isSome = true → NoneSucceeds st tries →
    comparedAt st tries = Lockout.failTimes 5 (Instant.secs 60) st.lockout (attempts tries) := by
  induction tries with
  | nil =>
      intro st _ _ _
      rfl
  | cons t tries ih =>
      intro st hclaimed hhash hnone
      rcases hnone.cons with ⟨hfails, hrest⟩
      have hturn := st.login_turn t hclaimed hhash
      unfold comparedAt
      dsimp only
      generalize st.login t = out at hturn hfails hrest
      rcases out with ⟨resp, st'⟩
      cases hturn with
      | unread hcompares hwhy _ =>
          rw [hcompares, if_neg (by decide)]
          rw [ih hclaimed hhash hrest]
          -- a short code never comes to the lock, a locked one changes nothing
          by_cases hshort : t.isShort = true
          · have hskip : attempts (t :: tries) = attempts tries := by
              simp [attempts, hshort]
            rw [hskip]
          · have hlong : attempts (t :: tries) = t.draw.now :: attempts tries := by
              simp [attempts, hshort]
            rw [hlong, Lockout.failTimes, if_pos (hwhy.resolve_left hshort)]
      | wrong hcompares hnext =>
          have hlong : attempts (t :: tries) = t.draw.now :: attempts tries := by
            have hshort : t.isShort = false := by
              by_contra hs
              simp [compares, hs] at hcompares
            simp [attempts, hshort]
          have hopen : st.lockout.locked t.draw.now = false := by
            refine recoveryLocked_eq_none_iff.1 ?_
            by_contra hlock
            simp [compares, hlock] at hcompares
          dsimp only at hnext
          have hclaim : st'.claim = st.claim := by
            rw [hnext]
            exact st.noteRecoveryFailure_claim t.draw.now
          dsimp only at hrest ⊢
          rw [if_pos hcompares, hlong, Lockout.failTimes, if_neg (by simp [hopen]),
            ih (by rw [hclaim]; exact hclaimed) (by rw [hclaim]; exact hhash) hrest, hnext,
            lockout_noteRecoveryFailure]
      | right hcompares => exact absurd rfl (hfails _)

theorem afterLogins_cons (st : OwnerState) (t : LoginTry) (tries : List LoginTry) :
    st.afterLogins (t :: tries) = (st.login t).2.afterLogins tries := by
  simp only [afterLogins, Runs.run, List.foldl_cons]

/-- The claim stays what it is in a run without success. -/
theorem afterLogins_claim (tries : List LoginTry) : ∀ {st : OwnerState}, st.claim.claimed = true →
    st.claim.recoveryHash.isSome = true → NoneSucceeds st tries →
    (st.afterLogins tries).claim = st.claim := by
  induction tries with
  | nil =>
      intro st _ _ _
      rfl
  | cons t tries ih =>
      intro st hclaimed hhash hnone
      rcases hnone.cons with ⟨hfails, hrest⟩
      have hclaim : (st.login t).2.claim = st.claim := by
        have hturn := st.login_turn t hclaimed hhash
        generalize st.login t = out at hturn hfails
        rcases out with ⟨resp, st'⟩
        cases hturn with
        | unread _ _ _ => rfl
        | wrong _ hnext =>
            rw [hnext]
            exact st.noteRecoveryFailure_claim t.draw.now
        | right _ => exact absurd rfl (hfails _)
      rw [afterLogins_cons, ih (by rw [hclaim]; exact hclaimed) (by rw [hclaim]; exact hhash) hrest, hclaim]

/-- A run without success after its first logins. -/
theorem NoneSucceeds.rest (before : List LoginTry) : ∀ {st : OwnerState} {after : List LoginTry},
    NoneSucceeds st (before ++ after) → NoneSucceeds (st.afterLogins before) after := by
  induction before with
  | nil =>
      intro st after h
      exact h
  | cons t before ih =>
      intro st after h
      rw [List.cons_append] at h
      rw [afterLogins_cons]
      exact ih h.cons.2

/-- No minute of the run sees more than five wrong codes compared; whatever else is tried is refused
unread. -/
structure GuessesBounded (st : OwnerState) (tries : List LoginTry) : Prop where
  few : ∀ start, (Lockout.window start (Instant.secs 60) (comparedAt st tries)).length ≤ 5
  wrong : ∀ before t after, tries = before ++ t :: after → (st.afterLogins before).compares t = true →
    ((st.afterLogins before).login t).1 = invalidCode
  unread : ∀ before t after, tries = before ++ t :: after → (st.afterLogins before).compares t = false →
    ((st.afterLogins before).login t).1.Unread

/-- On a claimed node with a stored hash, in every run of logins at nondecreasing times of which none
succeeds. -/
theorem recovery_guesses_bounded (st : OwnerState) (tries : List LoginTry) (hclaimed : st.claim.claimed = true)
    (hhash : st.claim.recoveryHash.isSome = true)
    (hsorted : tries.Pairwise fun a b => a.draw.now ≤ b.draw.now) (hnone : NoneSucceeds st tries) :
    GuessesBounded st tries := by
  have hturn : ∀ {before t after}, tries = before ++ t :: after →
      LoginTurn (st.afterLogins before) t ((st.afterLogins before).login t).1
        ((st.afterLogins before).login t).2 ∧
        ∀ body, ((st.afterLogins before).login t).1 ≠ .login body := by
    intro before t after hsplit
    -- the claim is what it was at the start, as nobody got in before
    have hbefore : NoneSucceeds st before := by
      intro resp hresp
      refine hnone resp ?_
      rw [hsplit, Runs.answers_append]
      exact List.mem_append_left _ hresp
    have hclaim := afterLogins_claim before hclaimed hhash hbefore
    refine ⟨login_turn t (by rw [hclaim]; exact hclaimed) (by rw [hclaim]; exact hhash), ?_⟩
    have hwhole : NoneSucceeds st (before ++ t :: after) := by
      rw [← hsplit]
      exact hnone
    exact (NoneSucceeds.rest before hwhole).cons.1
  refine ⟨?_, ?_, ?_⟩
  · intro start
    rw [comparedAt_eq_failTimes tries hclaimed hhash hnone]
    refine Lockout.length_window_le (by decide) start ?_
    exact List.Pairwise.map _ (fun _ _ h => h) (hsorted.filter _)
  · intro before t after hsplit hcompares
    rcases hturn hsplit with ⟨hlogin, hfails⟩
    generalize (st.afterLogins before).login t = out at hlogin hfails ⊢
    rcases out with ⟨resp, st'⟩
    cases hlogin with
    | unread hno _ _ => simp [hno] at hcompares
    | wrong _ _ => rfl
    | right _ => exact absurd rfl (hfails _)
  · intro before t after hsplit hcompares
    rcases hturn hsplit with ⟨hlogin, _⟩
    generalize (st.afterLogins before).login t = out at hlogin ⊢
    rcases out with ⟨resp, st'⟩
    cases hlogin with
    | unread _ _ hresp => exact hresp
    | wrong hyes _ => simp [hyes] at hcompares
    | right hyes => simp [hyes] at hcompares

end Login

/-! ## Seven guesses, the sixth within the lock -/

section Guesses

attribute [local instance] Checksum.primitives RpcState.asciiUppercase

def guessed : OwnerState :=
  OwnerState.new (Checksum.device 1)
    { claimed := true
      displayName := some "Ada"
      recoveryHash := some (hashRecovery "correct-horse")
      claimedAtMs := some 1000 }

def guess (sec : Nat) : LoginTry :=
  { draw := RpcState.drawAt (Instant.secs sec)
    req := { recoveryCode := "battery-staple" } }

def guesses : List LoginTry :=
  [0, 1, 2, 3, 4, 5, 64].map guess

theorem noneSucceeds_guesses : NoneSucceeds guessed guesses := by
  refine @noneSucceeds_of_wrong _ _ (hashRecovery "correct-horse") guesses guessed rfl ?_
  intro t ht
  have hcode : sameHash (hashRecovery (Text.trim "battery-staple")) (hashRecovery "correct-horse") = false := by
    decide +kernel
  rcases List.mem_map.1 ht with ⟨sec, _, rfl⟩
  exact hcode

theorem recovery_guesses_bounded_seven : GuessesBounded guessed guesses := by
  have hsorted : guesses.Pairwise fun a b => a.draw.now ≤ b.draw.now := by
    decide +kernel
  exact recovery_guesses_bounded guessed guesses rfl rfl hsorted noneSucceeds_guesses

/-- The guess within the lock is not compared, the one at its end is. -/
example : comparedAt guessed guesses = [0, 1, 2, 3, 4, 64].map Instant.secs := by
  rw [comparedAt_eq_failTimes guesses rfl rfl noneSucceeds_guesses]
  decide +kernel

end Guesses

end OwnerState

end Node
end Thunderducks
