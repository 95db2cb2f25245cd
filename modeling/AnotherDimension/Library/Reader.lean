import AnotherDimension.Library.Bytes

-- Readers that know the texts of some values, for texts that tell the values apart.

namespace Reader

variable {α β : Type} {encode : α → Bytes} {value : α → β} {as : List α} {a : α}

def of (encode : α → Bytes) (value : α → β) (as : List α) (bytes : Bytes) : Option β :=
  (as.find? (encode · = bytes)).map value

theorem of_encode_of_congr (hv : ∀ b ∈ as, encode b = encode a → value b = value a) (ha : a ∈ as) :
    of encode value as (encode a) = some (value a) := by
  cases hf : as.find? (encode · = encode a)
  case none       => simpa using List.find?_eq_none.mp hf a ha
  case some found =>
    have he : encode found = encode a := by simpa using List.find?_some hf
    simp [of, hf, hv found (List.mem_of_find?_eq_some hf) he]

theorem of_encode (hn : (as.map fun a => (encode a).length).Nodup) (ha : a ∈ as) :
    of encode value as (encode a) = some (value a) :=
  of_encode_of_congr
    (fun _ hb he => congrArg value <| List.inj_on_of_nodup_map hn hb ha (congrArg _ he)) ha

theorem of_singleton (encode : α → Bytes) (a : α) : of encode id [a] (encode a) = some a :=
  of_encode (List.nodup_singleton _) (List.mem_singleton_self a)

end Reader
