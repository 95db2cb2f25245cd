import AnotherDimension.Library.Bytes

-- Slices of a byte string by offset, and the inverses of its encodings.

namespace Bytes

-- `&bytes[start..stop]`, and nothing where Rust would panic.
def slice? (bytes : Bytes) (start stop : Nat) : Option Bytes :=
  if start ≤ stop ∧ stop ≤ bytes.length then
    some (bytes.drop start |>.take (stop - start))
  else
    none

theorem slice?_add {bytes : Bytes} {start width : Nat} (h : start + width ≤ bytes.length) :
    bytes.slice? start (start + width) = some (bytes.drop start |>.take width) := by
  rw [slice?, if_pos ⟨Nat.le_add_right _ _, h⟩, Nat.add_sub_cancel_left]

theorem ofNat_toNat (bytes : Bytes) : ofNat bytes.length (toNat bytes) = bytes := by
  induction bytes using List.reverseRecOn
  case nil => rfl
  case append_singleton bytes byte hi =>
    have hb := byte.toNat_lt
    have hd : (256 * toNat bytes + byte.toNat) / 256 = toNat bytes := by omega
    have hm : UInt8.ofNat (256 * toNat bytes + byte.toNat) = byte := by
      refine UInt8.toNat_inj.mp ?_
      rw [UInt8.toNat_ofNat']
      omega
    rw [toNat_append_singleton, List.length_append, List.length_singleton, ofNat, hd, hm, hi]

theorem ofNat_toNat_of_length {width : Nat} {bytes : Bytes} (h : bytes.length = width) :
    ofNat width (toNat bytes) = bytes :=
  h ▸ ofNat_toNat bytes

theorem utf8_of_fromUtf8 {bytes : Bytes} {s : String} (h : fromUtf8 bytes = some s) :
    utf8 s = bytes := by
  unfold fromUtf8 String.fromUTF8? at h
  split at h
  case isTrue  => cases h; simp [utf8, String.fromUTF8]
  case isFalse => cases h

end Bytes
