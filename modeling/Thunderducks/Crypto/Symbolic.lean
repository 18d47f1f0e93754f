import Thunderducks.Crypto.RelaySeal

/-!
# Symbolic — an Olm ratchet and an AEAD to run

An Olm message carries its kind, its position and the place of its plaintext in a code book, and a
session remembers the positions it has decrypted: each message key is used up by its first
decryption, as in the library.  The AEAD appends a fixed tag and checks it.  The concrete runs of
this development use them.
-/

namespace Thunderducks
namespace Crypto
namespace Symbolic

open Lib

structure Account where
  identity : String
  deriving DecidableEq

structure Session where
  sent : Nat
  received : List Nat
  deriving DecidableEq

/-- `p` for a pre-key message, `n` for a normal one, then the position, then the place in the book. -/
def message (preKey : Bool) (position place : Nat) : String :=
  String.ofList [if preKey then 'p' else 'n', Char.ofNat (48 + position), Char.ofNat (48 + place)]

def isPreKey (m : String) : Bool :=
  m.toList.head? = some 'p'

def position (m : String) : Nat :=
  ((m.toList.drop 1).headD '0').toNat - 48

def plaintext (book : List Bytes) (m : String) : Bytes :=
  book.getD (((m.toList.drop 2).headD '0').toNat - 48) []

def decrypt (book : List Bytes) (session : Session) (m : String) :
    Except String Bytes × Session :=
  if position m ∈ session.received then
    (.error "missing message key", session)
  else
    (.ok (plaintext book m), { session with received := position m :: session.received })

@[reducible] def olm (book : List Bytes) : Olm :=
  { Account := Account
    Session := Session
    Message := String
    CurveKey := String
    curveFromBase64 := some
    identityKey := Account.identity
    messageToJson := fun m => m
    messageFromJson := some
    isPreKey := isPreKey
    createOutboundSession := fun account _ _ => (.ok { sent := 0, received := [] }, account)
    createInboundSession := fun account _ m =>
      (.ok ({ sent := 0, received := [position m] }, plaintext book m), account)
    encrypt := fun session plain =>
      (.ok (message (session.sent = 0) session.sent (book.idxOf plain)),
        { session with sent := session.sent + 1 })
    decrypt := decrypt book }

def tag : Bytes :=
  List.replicate 16 7

@[reducible] def aead : Aead :=
  { encrypt := fun _ _ plain => some (plain ++ tag)
    decrypt := fun _ _ ct =>
      if ct.drop (ct.length - 16) = tag then some (ct.take (ct.length - 16)) else none }

end Symbolic
end Crypto
end Thunderducks
