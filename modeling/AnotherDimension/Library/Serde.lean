import AnotherDimension.Library.Fallible
import AnotherDimension.Library.JsonReader
import AnotherDimension.Library.Slices

-- Types that are written as JSON and read back, as `serde` and `serde_json` do it.

class Serde (α : Type) where
  write : α → Option String
  read  : JsonValue → Option α

-- What is written is a JSON value, and it is read as what was written.
class LawfulSerde (α : Type) [Serde α] : Prop where
  reads : ∀ {a : α} {text : String}, Serde.write a = some text →
    ∃ value, Json.Reads text value ∧ Serde.read value = some a

namespace Serde

-- `serde_json::to_vec`
def toVec {α : Type} [Serde α] (a : α) : Option Bytes :=
  (write a).map Bytes.utf8

-- `serde_json::from_slice`
def fromSlice {α : Type} [Serde α] (bytes : Bytes) : Option α := do
  read (← Json.read (← Bytes.fromUtf8 bytes))

instance : Serde UInt64 where
  write n := some (Json.number n)
  read    := JsonValue.asU64

instance : Serde UInt32 where
  write n  := some (Json.number n.toUInt64)
  read value := do
    let n ← value.asU64
    if n.toNat < 2 ^ 32 then return n.toUInt32 else none

instance : Serde UInt8 where
  write n  := some (Json.number n.toUInt64)
  read value := do
    let n ← value.asU64
    if n.toNat < 2 ^ 8 then return n.toUInt8 else none

section

variable {α β : Type} [Serde α] [Serde β]

instance : Serde (List α) where
  write as := (as.mapM write).map Json.array
  read value := do (← value.asArray).mapM read

-- A tuple is an array of its parts.
instance : Serde (α × β) where
  write p := do return Json.array [← write p.fst, ← write p.snd]
  read value :=
    match value.asArray with
    | some [first, second] => do return (← read first, ← read second)
    | _                    => none

end

end Serde

namespace LawfulSerde

open Serde

instance : LawfulSerde UInt64 where
  reads {n text} h := by
    cases h
    exact ⟨.u64 n, Json.reads_u64 n, JsonValue.asU64_u64 n⟩

instance : LawfulSerde UInt32 where
  reads {n text} h := by
    cases h
    have hn := n.toNat_lt
    exact ⟨.u64 n.toUInt64, Json.reads_u64 _, by simpa [Serde.read] using hn⟩

instance : LawfulSerde UInt8 where
  reads {n text} h := by
    cases h
    have hn := n.toNat_lt
    exact ⟨.u64 n.toUInt64, Json.reads_u64 _, by simpa [Serde.read] using hn⟩

section

variable {α β : Type} [Serde α] [Serde β] [LawfulSerde α] [LawfulSerde β]

instance : LawfulSerde (List α) where
  reads {as text} h := by
    obtain ⟨texts, ht, rfl⟩ := Option.map_eq_some_iff.mp h
    replace ht := Option.mapM_eq_some_iff.mp ht
    clear h
    obtain ⟨values, hv, hr⟩ : ∃ values, List.Forall₂ Json.Reads texts values ∧
        values.mapM read = some as := by
      induction ht
      case nil => exact ⟨[], .nil, rfl⟩
      case cons a text as texts ha _ hi =>
        obtain ⟨value, hv, hr⟩ := reads ha
        obtain ⟨values, hvs, hrs⟩ := hi
        exact ⟨value :: values, .cons hv hvs, by simp [hr, hrs]⟩
    exact ⟨.array values, Json.reads_array hv, by simp [Serde.read, JsonValue.asArray, hr]⟩

instance : LawfulSerde (α × β) where
  reads {p text} h := by
    obtain ⟨first, second⟩ := p
    simp only [write, Option.bind_eq_bind, Option.bind_eq_some_iff, Option.pure_def,
      Option.some.injEq] at h
    obtain ⟨text₁, h₁, text₂, h₂, rfl⟩ := h
    obtain ⟨value₁, hv₁, hr₁⟩ := reads h₁
    obtain ⟨value₂, hv₂, hr₂⟩ := reads h₂
    refine ⟨.array [value₁, value₂], Json.reads_array (.cons hv₁ <| .cons hv₂ .nil), ?_⟩
    simp [Serde.read, JsonValue.asArray, hr₁, hr₂]

end

end LawfulSerde

namespace Serde

section

variable {α β : Type} [Serde α] [Serde β]

-- Where every item can be written, a list can.
theorem exists_toVec_list (h : ∀ a : α, (toVec a).isSome) :
    ∃ text : α → String, ∀ as : List α, toVec as = some (Bytes.utf8 (Json.array (as.map text))) := by
  have hw (a : α) : ∃ text, write a = some text := by
    simpa [toVec, Option.isSome_iff_exists] using h a
  choose text ht using hw
  refine ⟨text, fun as => ?_⟩
  have hm : as.mapM write = some (as.map text) := by
    refine Option.mapM_eq_some_iff.mpr <| List.forall₂_map_right_iff.mpr ?_
    exact List.forall₂_same.mpr fun a _ => ht a
  simp [toVec, write, hm]

theorem isSome_toVec_list (h : ∀ a : α, (toVec a).isSome) (as : List α) : (toVec as).isSome := by
  obtain ⟨text, ht⟩ := exists_toVec_list h
  simp [ht]

theorem utf8ByteSize_elements_of_sublist {texts texts' : List String} (h : texts'.Sublist texts) :
    (Json.elements texts').utf8ByteSize ≤ (Json.elements texts).utf8ByteSize := by
  have hcons (text : String) (texts : List String) :
      (Json.elements (text :: texts)).utf8ByteSize =
        text.utf8ByteSize + if texts = [] then 0 else 1 + (Json.elements texts).utf8ByteSize := by
    have hc : ",".utf8ByteSize = 1 := by decide
    cases texts
    case nil  => rfl
    case cons => simp [Json.elements, String.utf8ByteSize_append, hc, Nat.add_assoc]
  induction h
  case slnil => exact le_rfl
  case cons texts' texts text _ hi =>
    rw [hcons]
    split
    case isTrue he  =>
      rw [he] at hi
      exact hi.trans (Nat.zero_le _)
    case isFalse => omega
  case cons_cons texts' texts text hs hi =>
    rw [hcons, hcons]
    split
    case isTrue  => split <;> omega
    case isFalse hn =>
      rw [if_neg fun he : texts = [] => hn (List.sublist_nil.mp (he ▸ hs))]
      omega

-- A list with fewer items is not longer.
theorem length_toVec_of_sublist (h : ∀ a : α, (toVec a).isSome) {as as' : List α}
    (hs : as'.Sublist as) {bytes bytes' : Bytes} (hb : toVec as = some bytes)
    (hb' : toVec as' = some bytes') : bytes'.length ≤ bytes.length := by
  obtain ⟨text, ht⟩ := exists_toVec_list h
  cases (ht as).symm.trans hb
  cases (ht as').symm.trans hb'
  have := utf8ByteSize_elements_of_sublist (hs.map text)
  simp only [Bytes.length_utf8, Json.array, String.utf8ByteSize_append]
  omega

theorem toVec_pair {first : α} {second : β} {key : Bytes} (h : toVec (first, second) = some key) :
    ∃ bytes₁ bytes₂, toVec first = some bytes₁ ∧ toVec second = some bytes₂ := by
  obtain ⟨text, ht, rfl⟩ := Option.map_eq_some_iff.mp h
  simp only [write, Option.bind_eq_bind, Option.bind_eq_some_iff] at ht
  obtain ⟨text₁, h₁, text₂, h₂, _⟩ := ht
  exact ⟨Bytes.utf8 text₁, Bytes.utf8 text₂, by simp [toVec, h₁], by simp [toVec, h₂]⟩

theorem toVec_pair_of {first : α} {second : β} {bytes₁ bytes₂ : Bytes}
    (h₁ : toVec first = some bytes₁) (h₂ : toVec second = some bytes₂) :
    ∃ key, toVec (first, second) = some key := by
  obtain ⟨text₁, ht₁, rfl⟩ := Option.map_eq_some_iff.mp h₁
  obtain ⟨text₂, ht₂, rfl⟩ := Option.map_eq_some_iff.mp h₂
  exact ⟨Bytes.utf8 (Json.array [text₁, text₂]), by simp [toVec, write, ht₁, ht₂]⟩

end

variable {α : Type} [Serde α] [LawfulSerde α] {a a' : α} {bytes : Bytes}

theorem fromSlice_toVec (h : toVec a = some bytes) : fromSlice bytes = some a := by
  obtain ⟨text, ht, rfl⟩ := Option.map_eq_some_iff.mp h
  obtain ⟨value, hv, hr⟩ := LawfulSerde.reads ht
  simp [fromSlice, hv.read, hr]

theorem toVec_injective (h : toVec a = some bytes) (h' : toVec a' = some bytes) : a = a' :=
  Option.some.inj <| (fromSlice_toVec h).symm.trans (fromSlice_toVec h')

end Serde
