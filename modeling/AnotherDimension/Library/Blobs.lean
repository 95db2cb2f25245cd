import AnotherDimension.Library.Slices

-- Byte strings behind their lengths, one after the other.

namespace Bytes

-- `usize::checked_add`
def checkedAdd (a b : Nat) : Option Nat :=
  if a + b < 2 ^ 64 then some (a + b) else none

theorem checkedAdd_eq_some {a b c : Nat} : checkedAdd a b = some c ↔ a + b < 2 ^ 64 ∧ a + b = c := by
  simp [checkedAdd]

-- What `append_blob` writes.
def blob (value : Bytes) : Bytes :=
  ofNat 8 value.length ++ value

@[simp]
theorem length_blob (value : Bytes) : (blob value).length = 8 + value.length := by
  simp [blob]

-- The blob at the offset, and the offset behind it.
def readBlob (bytes : Bytes) (offset : Nat) : Option (Bytes × Nat) := do
  let endLength ← checkedAdd offset 8
  if endLength > bytes.length then
    none
  else
    let stop ← checkedAdd endLength (toNat (bytes.drop offset |>.take 8))
    if stop > bytes.length then
      none
    else
      return (bytes.drop endLength |>.take (stop - endLength), stop)

theorem readBlob_blob {before value after : Bytes} {offset : Nat} (hb : before.length = offset)
    (hl : (before ++ (blob value ++ after)).length < 2 ^ 64) :
    readBlob (before ++ (blob value ++ after)) offset = some (value, offset + (8 + value.length)) := by
  have hn : toNat (ofNat 8 value.length) = value.length := by
    refine toNat_ofNat_of_lt ?_
    simp at hl
    omega
  have hs : ((before ++ (blob value ++ after)).drop offset).take 8 = ofNat 8 value.length := by
    rw [blob, List.append_assoc]
    exact slice_append hb (length_ofNat 8 _)
  have hv : ((before ++ (blob value ++ after)).drop (offset + 8)).take value.length = value := by
    rw [← List.drop_drop, List.drop_left' hb, blob, List.append_assoc,
      List.drop_left' (length_ofNat 8 _), List.take_left' rfl]
  have h₁ : checkedAdd offset 8 = some (offset + 8) := by
    refine checkedAdd_eq_some.mpr ⟨?_, rfl⟩
    simp at hl
    omega
  have h₂ : checkedAdd (offset + 8) value.length = some (offset + 8 + value.length) := by
    refine checkedAdd_eq_some.mpr ⟨?_, rfl⟩
    simp at hl
    omega
  have hle : offset + 8 + value.length ≤ (before ++ (blob value ++ after)).length := by
    simp
    omega
  rw [readBlob, h₁]
  simp only [Option.bind_eq_bind, Option.bind_some, hs, hn, h₂]
  rw [if_neg (by omega), if_neg (by omega), Nat.add_sub_cancel_left, hv, Nat.add_assoc]
  rfl

-- A blob that is read lies in the input, behind its length.
theorem eq_of_readBlob {bytes value : Bytes} {offset stop : Nat}
    (h : readBlob bytes offset = some (value, stop)) :
    bytes.drop offset = blob value ++ bytes.drop stop ∧ stop = offset + (8 + value.length) ∧
      stop ≤ bytes.length ∧ stop < 2 ^ 64 := by
  unfold readBlob at h
  have ⟨endLength, h₁, h⟩ := Option.bind_eq_some_iff.mp h
  obtain ⟨_, rfl⟩ := checkedAdd_eq_some.mp h₁
  split at h
  case isTrue  => cases h
  case isFalse hl =>
    have ⟨stop', h₂, h⟩ := Option.bind_eq_some_iff.mp h
    obtain ⟨_, rfl⟩ := checkedAdd_eq_some.mp h₂
    split at h
    case isTrue  => cases h
    case isFalse hs =>
      cases h
      rw [Nat.add_sub_cancel_left]
      generalize hn : toNat ((bytes.drop offset).take 8) = n at *
      have hw : ((bytes.drop offset).take 8).length = 8 := by
        rw [List.length_take, List.length_drop]
        omega
      have hv : ((bytes.drop (offset + 8)).take n).length = n := by
        rw [List.length_take, List.length_drop]
        omega
      refine ⟨?_, by omega, by omega, by omega⟩
      rw [blob, hv, ← hn, ofNat_toNat_of_length hw, hn]
      simp only [← List.drop_drop, List.append_assoc, List.take_append_drop]

end Bytes
