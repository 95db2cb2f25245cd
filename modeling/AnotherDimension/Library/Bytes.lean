import Mathlib

-- Byte strings, fixed-width big-endian integers and UTF-8.

abbrev Bytes := List UInt8

-- An array of exactly `n` bytes.
abbrev ByteBlock (n : Nat) := { bytes : Bytes // bytes.length = n }

-- `[byte; n]`
def ByteBlock.fill (n : Nat) (byte : UInt8) : ByteBlock n :=
  ⟨.replicate n byte, List.length_replicate⟩

namespace Bytes

-- The lowest `width` bytes of `n`, most significant byte first.
def ofNat : (width n : Nat) → Bytes
  | 0, _         => []
  | width + 1, n => ofNat width (n / 256) ++ [UInt8.ofNat n]

def toNat (bytes : Bytes) : Nat :=
  bytes.foldl (fun n byte => 256 * n + byte.toNat) 0

@[simp]
theorem length_ofNat (width n : Nat) : (ofNat width n).length = width := by
  induction width generalizing n <;> simp [ofNat, *]

theorem toNat_append_singleton (bytes : Bytes) (byte : UInt8) :
    toNat (bytes ++ [byte]) = 256 * toNat bytes + byte.toNat := by
  simp [toNat]

theorem toNat_ofNat (width n : Nat) : toNat (ofNat width n) = n % 256 ^ width := by
  induction width generalizing n
  case zero => simp [ofNat, toNat, Nat.mod_one]
  case succ width hi =>
    have hb : (UInt8.ofNat n).toNat = n % 256 := UInt8.toNat_ofNat'
    rw [ofNat, toNat_append_singleton, hi, hb, Nat.pow_succ', Nat.mod_mul, Nat.add_comm]

theorem toNat_ofNat_of_lt {width n : Nat} (h : n < 256 ^ width) : toNat (ofNat width n) = n := by
  rw [toNat_ofNat, Nat.mod_eq_of_lt h]

theorem toNat_lt (bytes : Bytes) : toNat bytes < 256 ^ bytes.length := by
  induction bytes using List.reverseRecOn
  case nil => simp [toNat]
  case append_singleton bytes byte hi =>
    have := byte.toNat_lt
    rw [toNat_append_singleton, List.length_append, List.length_singleton, Nat.pow_succ]
    omega

-- The bytes from `offset` on, `width` of them, when they are the middle part of the whole.
theorem slice_append {before middle after : Bytes} {offset width : Nat}
    (hb : before.length = offset) (hm : middle.length = width) :
    ((before ++ (middle ++ after)).drop offset).take width = middle := by
  rw [List.drop_left' hb, List.take_left' hm]

-- `str::as_bytes`
def utf8 (s : String) : Bytes :=
  s.toByteArray.data.toList

-- `String::from_utf8`
def fromUtf8 (bytes : Bytes) : Option String :=
  String.fromUTF8? ⟨bytes.toArray⟩

@[simp]
theorem length_utf8 (s : String) : (utf8 s).length = s.utf8ByteSize :=
  rfl

@[simp]
theorem fromUtf8_utf8 (s : String) : fromUtf8 (utf8 s) = some s := by
  have h : (⟨(utf8 s).toArray⟩ : ByteArray) = s.toByteArray := by simp [utf8]
  simp [fromUtf8, String.fromUTF8?, h, s.isValidUTF8, String.fromUTF8]

def hexDigit (n : Nat) : Char :=
  "0123456789abcdef".toList.getD n '0'

-- Two hexadecimal digits for every byte.
def toHex (bytes : Bytes) : String :=
  .ofList <| bytes.flatMap fun byte => [hexDigit (byte.toNat / 16), hexDigit (byte.toNat % 16)]

theorem hexDigit_injOn : ∀ m < 16, ∀ n < 16, hexDigit m = hexDigit n → m = n := by
  decide

theorem length_toHex (bytes : Bytes) : (toHex bytes).length = 2 * bytes.length := by
  have h : (toHex bytes).toList.length = 2 * bytes.length := by
    rw [toHex, String.toList_ofList]
    induction bytes <;> simp_all
    omega
  exact h

theorem toHex_injective : Function.Injective toHex := by
  intro bytes₁ bytes₂ h
  replace h := congrArg String.toList h
  simp only [toHex, String.toList_ofList] at h
  induction bytes₁ generalizing bytes₂
  case nil            => cases bytes₂ <;> simp_all
  case cons b₁ bs₁ hi =>
    match bytes₂ with
    | []       => simp at h
    | b₂ :: bs =>
      simp only [List.flatMap_cons, List.cons_append, List.nil_append, List.cons.injEq] at h
      have h₁ := b₁.toNat_lt
      have h₂ := b₂.toNat_lt
      have hq := hexDigit_injOn _ (by omega) _ (by omega) h.left
      have hr := hexDigit_injOn _ (by omega) _ (by omega) h.right.left
      have hb : b₁ = b₂ := UInt8.toNat_inj.mp (by omega)
      rw [hb, hi h.right.right]

end Bytes
