import AnotherDimension.Identity.Registry
import AnotherDimension.Library.Lines

-- How the relay checks a signed invite.

namespace Relay

-- `u8::from_str_radix` of two characters: a plus sign may stand before one digit.
def hexPair (c₁ c₂ : Char) : Option UInt8 := do
  let high ← if c₁ = '+' then some 0 else Bytes.hexValue c₁
  let low  ← Bytes.hexValue c₂
  return .ofNat (16 * high + low)

def hexPairs : List Char → Option Bytes
  | []             => some []
  | [_]            => none
  | c₁ :: c₂ :: cs => do
    let byte  ← hexPair c₁ c₂
    let bytes ← hexPairs cs
    return byte :: bytes

-- `hex_decode` of the relay. A character of several bytes is no digit.
def hexDecode (value : String) : Option Bytes :=
  hexPairs value.toList

-- The checks on the lines of a payload, with its signature.
def validateLines (ed25519 : Ed25519) (payload : Bytes) (signature : ByteBlock 64)
    (expectedOrigin : String) (now : UInt64) : List String → Bool
  | header :: account :: _ :: codeHash :: expiresAt :: origin :: rest =>
    let account := (Text.stripPrefix "ad1pk" account).getD ""
    match (hexDecode account).bind (ByteBlock.ofBytes 32), Text.parseU64 expiresAt with
    | some key, some expiresAt =>
      rest.length ≤ 2 && header = "another-dimension/invite/v1" && now < expiresAt &&
        origin = expectedOrigin && (hexDecode codeHash).isSome &&
        ed25519.verify key payload signature
    | _, _                     => false
  | _ => false

def validateInvite (ed25519 : Ed25519) (invite expectedOrigin : String) (now : UInt64) : Bool :=
  match Text.split '.' invite with
  | [kind, payload, signature] =>
    match hexDecode payload, (hexDecode signature).bind (ByteBlock.ofBytes 64) with
    | some payload, some signature =>
      kind = "ADDAINV1" && match Bytes.fromUtf8 payload with
        | none      => false
        | some text =>
          validateLines ed25519 payload signature expectedOrigin now (Text.split '\n' text)
    | _, _                         => false
  | _                          => false

theorem hexDecode_toHex (bytes : Bytes) : hexDecode (Bytes.toHex bytes) = some bytes := by
  have hp : ∀ n < 16, Bytes.hexDigit n ≠ '+' := by decide
  rw [hexDecode, Bytes.toHex, String.toList_ofList]
  induction bytes
  case nil          => rfl
  case cons b bs hi =>
    have hb := b.toNat_lt
    have hh := Bytes.hexValue_hexDigit (b.toNat / 16) (by omega)
    have hl := Bytes.hexValue_hexDigit (b.toNat % 16) (by omega)
    have hd : 16 * (b.toNat / 16) + b.toNat % 16 = b.toNat := by omega
    have hpair : hexPair (Bytes.hexDigit (b.toNat / 16)) (Bytes.hexDigit (b.toNat % 16)) = some b := by
      simp only [hexPair, if_neg (hp (b.toNat / 16) (by omega)), hh, hl, Option.bind_eq_bind,
        Option.bind_some, hd, UInt8.ofNat_toNat, pure]
    simp only [List.flatMap_cons, List.cons_append, List.nil_append, hexPairs, hpair, hi]
    rfl

end Relay
