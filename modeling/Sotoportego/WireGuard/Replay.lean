import Sotoportego.WireGuard.Crypto

/-!
# The receive window

`_ReplayValidate`, which `WGPeer` and `WireGuardBackend` carry in identical copies:
an RFC 6479 bitmap over the counter plus one.
-/

set_option autoImplicit false

namespace Sotoportego.WireGuard

def kReplayBits : UInt64 := 64
def kReplayBlocks : UInt64 := 128
def kReplayWindow : UInt64 := kReplayBits * (kReplayBlocks - 1)
def kRejectAfterMessages : UInt64 :=
  (0xFFFFFFFFFFFFFFFF : UInt64) - ((1 : UInt64) <<< (13 : UInt64)) - 1

structure ReplayWindow where
  /-- The greatest counter seen plus one. -/
  counter : UInt64 := 0
  bitmap : Vector UInt64 128 := Vector.replicate 128 0

namespace ReplayWindow

/-- The loop that zeroes the blocks `current + 1 .. current + count`. -/
def clearBlocks (bitmap : Vector UInt64 128) (current : Nat) : Nat → Vector UInt64 128
  | 0 => bitmap
  | count + 1 =>
      (clearBlocks bitmap current count).set ((count + 1 + current) % 128) 0
        (Nat.mod_lt _ (by decide))

/-- The part under `counter > fReplayCounter`. -/
def advance (window : ReplayWindow) (counter : UInt64) : ReplayWindow :=
  if counter > window.counter then
    let index := counter >>> 6
    let indexCurrent := window.counter >>> 6
    let top := index - indexCurrent
    let top := if top > kReplayBlocks then kReplayBlocks else top
    { counter, bitmap := clearBlocks window.bitmap indexCurrent.toNat top.toNat }
  else window

/-- The part that tests and sets the counter's bit. -/
def record (window : ReplayWindow) (counter : UInt64) : ReplayWindow × Bool :=
  let index := (counter >>> 6).toNat % 128
  have inside : index < 128 := Nat.mod_lt _ (by decide)
  let bit : UInt64 := 1 <<< (counter &&& (kReplayBits - 1))
  if window.bitmap[index] &&& bit ≠ 0 then (window, false)
  else ({ window with bitmap := window.bitmap.set index (window.bitmap[index] ||| bit) }, true)

def validate (window : ReplayWindow) (counter : UInt64) : ReplayWindow × Bool :=
  if counter ≥ kRejectAfterMessages then (window, false)
  else
    let counter := counter + 1
    if kReplayWindow + counter < window.counter then (window, false)
    else (window.advance counter).record counter

end ReplayWindow

end Sotoportego.WireGuard
