import Thunderducks.Crypto.E2ee

/-!
# OneTimeKeys — publishing Olm keys (`publish_keys` of `td-crypto/src/e2ee.rs`)

An account holds one-time keys that it has not handed out, and keys that it has handed out and that no
session has used.  The texts are base64.
-/

namespace Thunderducks
namespace Crypto

open Lib Event

/-- The one-time keys of a vodozemac account. -/
class OneTimeKeys [Olm] where
  /-- `one_time_keys()`: the keys not marked as published, in the order they are listed. -/
  unpublished : Olm.Account → List String
  /-- The keys marked as published that no session has used. -/
  published : Olm.Account → List String
  /-- `generate_one_time_keys(n)` -/
  generate : Olm.Account → Nat → Olm.Account
  /-- `mark_keys_as_published()` -/
  markPublished : Olm.Account → Olm.Account

variable [Olm] [OneTimeKeys]

namespace E2eeDevice

/-- The account that `publish_keys` takes a key from. -/
def stocked (account : Olm.Account) : Olm.Account :=
  if (OneTimeKeys.unpublished account).isEmpty then OneTimeKeys.generate account 10 else account

/-- One key is handed out, and all are marked as published. -/
def publishKeys (dev : E2eeDevice) : Except E2eeError OlmDeviceKeys × E2eeDevice :=
  let account := stocked dev.account
  match OneTimeKeys.unpublished account with
  | [] => (.error (.sessionCreation "no one-time keys"), { dev with account := account })
  | otk :: _ =>
      let account := OneTimeKeys.markPublished account
      (.ok
        { deviceId := dev.deviceId
          curve25519B64 := Olm.identityKey account
          oneTimeKeyB64 := otk },
        { dev with account := account })

end E2eeDevice

end Crypto
end Thunderducks
