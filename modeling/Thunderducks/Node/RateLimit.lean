import Thunderducks.Lib.HashMap
import Thunderducks.Lib.Instant
import Thunderducks.Lib.Text

/-!
# RateLimit — the per-client request windows of the RPC server (`td-node/src/rpc.rs`)
-/

namespace Thunderducks
namespace Node

open Lib

structure RateWindow where
  start : Instant
  count : Nat
  deriving DecidableEq

structure RateRule where
  /-- Requests allowed per window. -/
  limit : Nat
  /-- Window length. -/
  window : Instant
  deriving DecidableEq

/-- Sliding-window counters keyed by client IP + bucket name. -/
structure RateLimitBook where
  windows : HashMap String RateWindow

namespace RateLimitBook

def empty : RateLimitBook :=
  { windows := ∅ }

/-- The key of a client's bucket. -/
def bucketKey (ip bucket : String) : String :=
  ip ++ "|" ++ bucket

/-- The window of a bucket at `now`: a new one when there is none or the old one has run out. -/
def current (book : RateLimitBook) (key : String) (now : Instant) (rule : RateRule) : RateWindow :=
  let entry := (book.windows.lookup key).getD { start := now, count := 0 }
  if Instant.since now entry.start ≥ rule.window then
    { start := now, count := 0 }
  else
    entry

/-- Opportunistic prune when map grows large. -/
def prune (book : RateLimitBook) (now : Instant) : RateLimitBook :=
  if book.windows.entries.length > 4096 then
    { book with windows := book.windows.retain fun _ w => w.start + Instant.secs 120 > now }
  else
    book

/-- Admit the request, or say how long to wait. -/
def check (book : RateLimitBook) (now : Instant) (ip bucket : String) (rule : RateRule) :
    Except Instant Unit × RateLimitBook :=
  let key := bucketKey ip bucket
  let entry := book.current key now rule
  if entry.count ≥ rule.limit then
    let elapsed := Instant.since now entry.start
    let retry := if elapsed ≤ rule.window then rule.window - elapsed else Instant.secs 1
    (.error retry, { book with windows := book.windows.insert key entry })
  else
    let entry := { entry with count := entry.count + 1 }
    (.ok (), { book with windows := book.windows.insert key entry }.prune now)

end RateLimitBook

/-- `limit` requests a minute. -/
def perMinute (limit : Nat) : RateRule :=
  { limit := limit
    window := Instant.secs 60 }

def rateRuleFor (path method : String) : RateRule :=
  let isMethod := Text.eqIgnoreAsciiCase method
  -- Sensitive auth / claim paths — tight.
  if path = "/v1/recovery/login" ∨ path = "/v1/claim" ∧ isMethod "POST" = true then
    perMinute 10
  else if path = "/v1/pair/redeem" then
    perMinute 20
  -- Streaming / long-poll: allow steady traffic but cap.
  else if path = "/v1/messages/stream" ∨ path = "/v1/messages/wait" then
    perMinute 120
  -- Writes vs reads.
  else if isMethod "POST" = true ∨ isMethod "PUT" = true ∨ isMethod "DELETE" = true ∨
      isMethod "PATCH" = true then
    perMinute 180
  else
    perMinute 600

end Node
end Thunderducks
