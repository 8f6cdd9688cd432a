import Mathlib.Algebra.Order.Ring.Nat

/-!
A clock of `w` bits: the true time modulo `2 ^ w`.

* `toNat_elapsed_le`: a difference of two readings never exceeds the true time between them.
* `toNat_elapsed`: it is the true time, wherever that fits into the clock.
-/

namespace SmartScale.WrappedClock

variable {w : Nat}

/-- What the clock shows at a true time. -/
def tick (w time : Nat) : BitVec w := BitVec.ofNat w time

/-- The true time between two readings, modulo `2 ^ w`. -/
theorem toNat_elapsed_mod {last now : Nat} (order : last ≤ now) :
    (tick w now - tick w last).toNat = (now - last) % 2 ^ w := by
  have later : tick w now = tick w (now - last) + tick w last := by
    rw [tick, tick, tick, ← BitVec.ofNat_add, Nat.sub_add_cancel order]
  rw [later, BitVec.add_sub_cancel, tick, BitVec.toNat_ofNat]

theorem toNat_elapsed_le {last now : Nat} (order : last ≤ now) :
    (tick w now - tick w last).toNat ≤ now - last := by
  rw [toNat_elapsed_mod order]
  exact Nat.mod_le _ _

theorem toNat_elapsed {last now : Nat} (order : last ≤ now) (fits : now - last < 2 ^ w) :
    (tick w now - tick w last).toNat = now - last := by
  rw [toNat_elapsed_mod order, Nat.mod_eq_of_lt fits]

end SmartScale.WrappedClock
