import WirelessBridge.System.Exhaustion

/-!
# When the manager gives a client up

A client that every pass of the manager finds disconnected is tried at once and then at intervals,
and given up when its attempts are spent. The passes of such an outage are polls of the client's
budget and nothing else, so that the manager gives up when `Lib.Budget.giveUps` says so.
-/

namespace System

open Lib

variable {κ : Type*}

variable {name : Str} {client : κ} {info : ConnectionInfo} {items items' s t : ConnTable κ}
  {e : ConnEvent κ} {blk : ConServiceBlk κ} {itrTime : ℤ} {tr : List (ConnTable κ × ConnEvent κ)}

/-! ### One pass -/

end System
