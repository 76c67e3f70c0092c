import Mathlib.Order.Basic

/-! Machine words in their numerical order. -/

instance linearOrderUInt16 : LinearOrder UInt16 where
  le_refl := UInt16.le_refl
  le_trans := fun _ _ _ => UInt16.le_trans
  lt_iff_le_not_ge := fun a b => by
    rw [UInt16.lt_iff_toNat_lt, UInt16.le_iff_toNat_le, UInt16.le_iff_toNat_le]
    omega
  le_antisymm := fun _ _ => UInt16.le_antisymm
  le_total := UInt16.le_total
  toDecidableLE := inferInstance
  toDecidableEq := inferInstance
  toDecidableLT := inferInstance
