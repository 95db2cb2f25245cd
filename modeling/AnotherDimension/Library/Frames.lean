import AnotherDimension.Library.Bytes

-- Byte strings behind their lengths determine what they were made of.

namespace Bytes

variable {width : Nat} {a b x y : Bytes}

theorem ofNat_inj {m n : Nat} (hm : m < 256 ^ width) (hn : n < 256 ^ width)
    (h : ofNat width m = ofNat width n) : m = n := by
  rw [← toNat_ofNat_of_lt hm, h, toNat_ofNat_of_lt hn]

theorem ofNat_append_inj {m n : Nat} (hm : m < 256 ^ width) (hn : n < 256 ^ width)
    (h : ofNat width m ++ x = ofNat width n ++ y) : m = n ∧ x = y := by
  have ⟨h₁, h₂⟩ := List.append_inj h (by simp)
  exact ⟨ofNat_inj hm hn h₁, h₂⟩

theorem framed_append_inj (ha : a.length < 256 ^ width) (hb : b.length < 256 ^ width)
    (h : ofNat width a.length ++ a ++ x = ofNat width b.length ++ b ++ y) : a = b ∧ x = y := by
  rw [List.append_assoc, List.append_assoc] at h
  have ⟨hl, ht⟩ := ofNat_append_inj ha hb h
  exact List.append_inj ht hl

end Bytes
