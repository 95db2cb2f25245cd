import AnotherDimension.Library.Aead
import AnotherDimension.Library.FileProgram
import AnotherDimension.Storage.Records

-- The bytes of the store file and of the revision marker beside it.

abbrev Salt := ByteBlock 16

abbrev Nonce := ByteBlock 12

abbrev DatabaseKey := ByteBlock 32

namespace Storage

def fileMagic : Bytes := Bytes.utf8 "ADSTORE1"

def fileVersion : UInt8 := 1

structure ParsedFile where
  salt       : Salt
  revision   : UInt64
  nonce      : Nonce
  ciphertext : Bytes

def associatedData (salt : Salt) (revision : UInt64) : Bytes :=
  fileMagic ++ [fileVersion] ++ salt.val ++ Bytes.ofNat 8 revision.toNat

def encodeFile (salt : Salt) (revision : UInt64) (nonce : Nonce) (ciphertext : Bytes) : Bytes :=
  fileMagic ++ [fileVersion] ++ salt.val ++ Bytes.ofNat 8 revision.toNat ++ nonce.val ++ ciphertext

def parseFile (bytes : Bytes) : Except StorageError ParsedFile :=
  if h : bytes.length < 61 ∨ bytes.take 8 ≠ fileMagic ∨ bytes[8]? ≠ some fileVersion then
    .error .corruptStore
  else
    have hl : 61 ≤ bytes.length := Nat.not_lt.mp (not_or.mp h).left
    .ok {
      salt       := ⟨bytes.drop 9 |>.take 16, by simp; omega⟩
      revision   := .ofNat <| Bytes.toNat (bytes.drop 25 |>.take 8)
      nonce      := ⟨bytes.drop 33 |>.take 12, by simp; omega⟩
      ciphertext := bytes.drop 45
    }

theorem parseFile_encodeFile (salt : Salt) (revision : UInt64) (nonce : Nonce) {ciphertext : Bytes}
    (h : 16 ≤ ciphertext.length) :
    parseFile (encodeFile salt revision nonce ciphertext) =
      .ok { salt, revision, nonce, ciphertext } := by
  have hm : fileMagic.length = 8 := by decide
  have hs := salt.property
  have hr := Bytes.length_ofNat 8 revision.toNat
  have hn := nonce.property
  have hh : (fileMagic ++ [fileVersion]).length = 9 := by simp [hm]
  generalize hb : encodeFile salt revision nonce ciphertext = bytes
  rw [encodeFile] at hb
  have h₀ : bytes.take 8 = fileMagic := by
    rw [← hb]
    simp only [List.append_assoc]
    exact List.take_left' hm
  have h₁ : bytes[8]? = some fileVersion := by
    rw [← hb]
    simp [hm]
  have h₂ : (bytes.drop 9).take 16 = salt.val := by
    rw [← hb]
    simp only [List.append_assoc (fileMagic ++ [fileVersion]), List.append_assoc salt.val]
    exact Bytes.slice_append hh hs
  have h₃ : (bytes.drop 25).take 8 = Bytes.ofNat 8 revision.toNat := by
    rw [← hb, List.append_assoc _ nonce.val, List.append_assoc _ (Bytes.ofNat 8 _)]
    exact Bytes.slice_append (by simp [hm, hs]) hr
  have h₄ : (bytes.drop 33).take 12 = nonce.val := by
    rw [← hb, List.append_assoc _ nonce.val]
    exact Bytes.slice_append (by simp [hm, hs, hr]) hn
  have h₅ : bytes.drop 45 = ciphertext := by
    rw [← hb]
    exact List.drop_left' <| by simp [hm, hs, hr, hn]
  have hl : ¬bytes.length < 61 := by
    rw [← hb]
    simp [hm, hs, hr, hn]
    omega
  have hv : Bytes.toNat (Bytes.ofNat 8 revision.toNat) = revision.toNat :=
    Bytes.toNat_ofNat_of_lt revision.toNat_lt
  simp [parseFile, hl, h₀, h₁, h₂, h₃, h₄, h₅, hv]

def markerPath (path : FilePath) : FilePath :=
  path ++ ".revision"

theorem markerPath_ne (path : FilePath) : markerPath path ≠ path := by
  intro h
  have := congrArg String.utf8ByteSize h
  simp [markerPath, String.utf8ByteSize_append] at this

-- `revision.to_string().as_bytes()`
def markerBytes (revision : UInt64) : Bytes :=
  Bytes.utf8 (Text.formatU64 revision)

-- The text of a marker file; a file that is not UTF-8 cannot be read as a string.
def parseMarker (bytes : Bytes) : Except StorageError UInt64 :=
  match Bytes.fromUtf8 bytes with
  | none      => .error .io
  | some text => (Text.parseU64 (Text.trim text)).elim (.error .corruptStore) .ok

@[simp]
theorem parseMarker_markerBytes (revision : UInt64) :
    parseMarker (markerBytes revision) = .ok revision := by
  simp [parseMarker, markerBytes, Text.trim_formatU64, Text.parseU64_formatU64]

end Storage
