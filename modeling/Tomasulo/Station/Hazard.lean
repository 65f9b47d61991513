import Tomasulo.Station.Pool

/-!
# Memory hazards

A load waits for older stores that conflict with it, a store for older loads and stores.  Two
computed addresses conflict if they are equal.  As long as one of them is not computed, they
conflict if base register and offset are the same: accesses through different registers, or at
different offsets, may pass each other then, even if they turn out to touch one cell.  Age is the
order of fetching, so several instances of one instruction of a loop are told apart.
-/

namespace Tomasulo.Pool

/-- Whether an older instruction of some kind holds the address of a slot. -/
def olderConflict (pool : Pool) (slot : Slot) (kind : Slot → Bool) : Bool :=
  match slot.address with
  | none => false
  | some address =>
      pool.occupied.any fun other =>
        other.slot.seq < slot.seq && kind other.slot &&
          other.slot.address.any (Address.aliases · address)

/-- Whether the load in a station has to wait for an older store. -/
def loadBlocked (pool : Pool) (id : Nat) : Bool :=
  (pool.slot? id).any fun slot => pool.olderConflict slot Slot.isStore

/-- Whether the store in a station has to wait for an older load or store. -/
def storeBlocked (pool : Pool) (id : Nat) : Bool :=
  (pool.slot? id).any fun slot =>
    pool.olderConflict slot fun other => other.isLoad || other.isStore

end Tomasulo.Pool
