import Mathlib

-- Rust's checked and saturating operations on fixed-width integers.

namespace UInt64

def checkedAdd (a b : UInt64) : Option UInt64 :=
  if a.toNat + b.toNat < 2 ^ 64 then some (a + b) else none

def saturatingOfNat (n : Nat) : UInt64 :=
  .ofNat <| min n (2 ^ 64 - 1)

def saturatingAdd (a b : UInt64) : UInt64 :=
  saturatingOfNat (a.toNat + b.toNat)

def saturatingSub (a b : UInt64) : UInt64 :=
  .ofNat (a.toNat - b.toNat)

def saturatingMul (a b : UInt64) : UInt64 :=
  saturatingOfNat (a.toNat * b.toNat)

def saturatingPow (a : UInt64) (exponent : Nat) : UInt64 :=
  saturatingOfNat (a.toNat ^ exponent)

theorem toNat_of_checkedAdd {a b c : UInt64} (h : checkedAdd a b = some c) :
    c.toNat = a.toNat + b.toNat := by
  unfold checkedAdd at h
  split at h
  case isTrue hl =>
    cases h
    rw [UInt64.toNat_add, Nat.mod_eq_of_lt hl]
  case isFalse => cases h

theorem toNat_saturatingSub (a b : UInt64) : (a.saturatingSub b).toNat = a.toNat - b.toNat := by
  have := a.toNat_lt
  rw [saturatingSub, UInt64.toNat_ofNat', Nat.mod_eq_of_lt]
  omega

theorem toNat_saturatingAdd (a b : UInt64) :
    (a.saturatingAdd b).toNat = min (a.toNat + b.toNat) (2 ^ 64 - 1) := by
  rw [saturatingAdd, saturatingOfNat, UInt64.toNat_ofNat', Nat.mod_eq_of_lt]
  omega

end UInt64

namespace UInt8

def saturatingAdd (a b : UInt8) : UInt8 :=
  .ofNat <| min (a.toNat + b.toNat) 255

theorem toNat_saturatingAdd (a b : UInt8) :
    (a.saturatingAdd b).toNat = min (a.toNat + b.toNat) 255 := by
  rw [saturatingAdd, UInt8.toNat_ofNat', Nat.mod_eq_of_lt]
  omega

end UInt8

namespace UInt32

def saturatingAdd (a b : UInt32) : UInt32 :=
  .ofNat <| min (a.toNat + b.toNat) (2 ^ 32 - 1)

end UInt32
