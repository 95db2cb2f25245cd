import AnotherDimension.Cli.Artifact
import AnotherDimension.Cli.Theorems.Directory
import AnotherDimension.Daemon.RecoveryRoutes
import AnotherDimension.Library.Reader
import AnotherDimension.Storage.Theorems.Artifact
import AnotherDimension.Storage.Theorems.Sealed

-- When an exported recovery artifact can be staged, and to what it opens.

open FileProgram Storage EncryptedStore

namespace Text

-- The part before the first occurrence of a character.
theorem splitOnce_singleton {c : Char} {before after : List Char} (h : c ∉ before) :
    splitOnce [c] (before ++ c :: after) = some (before, after) := by
  induction before
  case nil => simp [splitOnce]
  case cons b before hi =>
    obtain ⟨hb, hn⟩ := not_or.mp <| List.mem_cons.not.mp h
    have hp : ¬[c].isPrefixOf (b :: (before ++ c :: after)) := by simp [hb]
    rw [List.cons_append, splitOnce, if_neg hp, hi hn]
    rfl

-- The part behind a pattern that stands at the start.
theorem splitOnce_append {pattern after : List Char} (h : pattern ≠ []) :
    splitOnce pattern (pattern ++ after) = some ([], after) := by
  match pattern, h with
  | c :: cs, _ => simp [splitOnce]

end Text

namespace Daemon

variable {services : ArtifactServices} {artifact head : Bytes} {disk : Disk}
  {store : EncryptedStore}

-- The request that hands an artifact to the daemon.
def stageRequest (head artifact : Bytes) : ApiRequest where
  head := head
  body := Bytes.utf8 ("\x7b\"artifact_hex\":\"" ++ Bytes.toHex artifact ++ "\"\x7d")

theorem length_stageRequest (head artifact : Bytes) :
    (stageRequest head artifact).body.length = 2 * artifact.length + 19 := by
  have h₁ : "\x7b\"artifact_hex\":\"".utf8ByteSize = 17 := by decide
  have h₂ : "\"\x7d".utf8ByteSize = 2 := by decide
  simp only [stageRequest, Bytes.length_utf8, String.utf8ByteSize_append, Bytes.utf8ByteSize_toHex,
    h₁, h₂]
  omega

theorem jsonString_stageRequest (h : artifact ≠ []) :
    jsonString (stageRequest head artifact).body "artifact_hex" >>= hexDecode = some artifact := by
  have hplain : ∀ n < 16, Bytes.hexDigit n ≠ '"' ∧ Bytes.hexDigit n ≠ '\\' ∧
      Text.isControl (Bytes.hexDigit n) = false := by decide
  have hchar {c : Char} (hc : c ∈ (Bytes.toHex artifact).toList) :
      c ≠ '"' ∧ c ≠ '\\' ∧ Text.isControl c = false := by
    have ⟨n, hn, hc⟩ := Bytes.mem_toHex hc
    exact hc ▸ hplain n hn
  have hne : (Bytes.toHex artifact).toList ≠ [] := by
    intro he
    have hl := congrArg List.length he
    rw [String.length_toList, Bytes.length_toHex] at hl
    exact h <| List.length_eq_zero_iff.mp (by simpa using hl)
  have hkey : ("\"" ++ "artifact_hex" ++ "\":\"").toList = "\"artifact_hex\":\"".toList := by decide
  have hopen : "\x7b\"artifact_hex\":\"".toList = '\x7b' :: "\"artifact_hex\":\"".toList := by decide
  have h₁ : Text.splitOnce "\"artifact_hex\":\"".toList
      ("\x7b\"artifact_hex\":\"" ++ Bytes.toHex artifact ++ "\"\x7d").toList =
        some (['\x7b'], (Bytes.toHex artifact).toList ++ ['"', '\x7d']) := by
    rw [String.toList_append, String.toList_append, hopen, List.cons_append, List.cons_append,
      List.append_assoc, Text.splitOnce, if_neg (by simp), Text.splitOnce_append (by decide)]
    rfl
  have h₂ : Text.splitOnce ['"'] ((Bytes.toHex artifact).toList ++ ['"', '\x7d']) =
      some ((Bytes.toHex artifact).toList, ['\x7d']) :=
    Text.splitOnce_singleton fun hc => (hchar hc).left rfl
  have hs : '\\' ∉ (Bytes.toHex artifact).toList := fun hc => (hchar hc).right.left rfl
  have ha : (Bytes.toHex artifact).toList.any Text.isControl = false :=
    List.any_eq_false.mpr fun c hc => by simp [(hchar hc).right.right]
  have he : (Bytes.toHex artifact).toList.isEmpty = false := by simpa using hne
  have he' : (Bytes.toHex artifact).isEmpty = false := by
    simpa [String.isEmpty, Bytes.utf8ByteSize_toHex] using h
  simp only [jsonString, stageRequest, Bytes.fromUtf8_utf8, Option.bind_eq_bind, Option.bind_some,
    hkey, h₁, h₂, hs, ha, he]
  simp [hexDecode, he', Bytes.fromHex_toHex]

theorem recoveryStage_run_iff (ha : artifact ≠ []) (hl : store.locked = false) :
    ((recoveryStage services store (stageRequest head artifact)).run disk).snd.status = 202 ↔
      head.length + 2 * artifact.length + 19 ≤ maxRequestBytes ∧
        (parseRecoveryArtifact services artifact).isOk := by
  have hb := length_stageRequest head artifact
  have hw : ((stageRequest head artifact).head ++ (stageRequest head artifact).body).length =
      head.length + 2 * artifact.length + 19 := by
    rw [List.length_append, hb]
    exact (Nat.add_assoc _ _ _).symm
  by_cases hsize : head.length + 2 * artifact.length + 19 ≤ maxRequestBytes
  case neg =>
    refine iff_of_false ?_ fun h => hsize h.left
    rw [recoveryStage, hw, if_pos (Nat.not_le.mp hsize)]
    split_ifs <;> simp [run]
  case pos =>
    rw [recoveryStage, hw, hb, if_neg (by omega), if_neg (by omega), jsonString_stageRequest ha]
    cases hp : parseRecoveryArtifact services artifact <;>
      simp [stageRecoveryArtifact, hl, hp, run, hsize, Except.isOk, Except.toBool, run_bind,
        -atomicWrite_bind]

end Daemon

namespace Cli

theorem markerPath_storePath (dataDir : FilePath) :
    Storage.markerPath (storePath dataDir) = revisionPath dataDir := by
  simp [Storage.markerPath, storePath, revisionPath, String.append_assoc]

variable {α : Type} {path : FilePath} {disk disk' : Disk} {fates rest : List Fate}

theorem isFile_exec {a : α} {f : Bool → FileProgram α}
    (h : (isFile path >>= f).exec disk fates = (disk', some (a, rest))) :
    ∃ present fates', (f present).exec disk fates' = (disk', some (a, rest)) := by
  match fates with
  | []                  => cases h
  | .succeeds :: fates  => exact ⟨_, fates, h⟩
  | .untouched :: fates => exact ⟨_, fates, h⟩
  | .replaced :: fates  => exact ⟨_, fates, h⟩

theorem readFile_exec {a : α} {f : Bytes → FileProgram (Except CliError α)}
    (h : ((readFile path).andThen f).exec disk fates = (disk', some (.ok a, rest))) :
    ∃ bytes fates', disk path = some bytes ∧
      (f bytes).exec disk fates' = (disk', some (.ok a, rest)) := by
  obtain _ | ⟨_ | _ | _, fates⟩ := fates
  case nil            => cases h
  case cons.untouched => cases h
  case cons.replaced  => cases h
  case cons.succeeds  =>
    simp only [readFile, perform_bind, pure_eq_done, step_andThen, exec, FileOp.answer,
      FileOp.effect] at h
    cases hb : disk path
    case none       => rw [hb] at h; cases h
    case some bytes => rw [hb] at h; exact ⟨bytes, fates, rfl, h⟩

end Cli

namespace Session

variable {aead : Aead} {kdf : String → Salt → Option DatabaseKey} {services : ArtifactServices}
  {dataDir : FilePath} {credential : Credential} {s : Session} {now : UInt64}
  {artifact head store marker : Bytes}

-- An artifact that the daemon or the command line hands out.
inductive Exports (aead : Aead) (services : ArtifactServices) (dataDir : FilePath) (s : Session)
    (now : UInt64) : Bytes → Prop
  | daemon {store nonce fates disk reply store' rest artifact} :
    s.store = some store →
    (Daemon.recoveryExport aead services store nonce now).exec s.disk fates =
      (disk, some ((reply, store'), rest)) →
    reply = ⟨200, Daemon.exportBody artifact⟩ →
    Exports aead services dataDir s now artifact
  | commandLine {output fates disk message rest artifact} :
    (Cli.exportRecovery services dataDir output now).exec s.disk fates =
      (disk, some (.ok message, rest)) →
    disk output = some artifact →
    Exports aead services dataDir s now artifact

theorem exportBody_injective : Function.Injective Daemon.exportBody := by
  intro bytes₁ bytes₂ h
  unfold Daemon.exportBody at h
  exact Bytes.toHex_injective <| (String.append_right_inj _).mp <| (String.append_left_inj _).mp h

theorem exportRecoveryArtifact_exec {store : EncryptedStore} {disk disk' : Disk}
    {fates rest : List Fate}
    (h : (store.exportRecoveryArtifact services now).exec disk fates =
      (disk', some (.ok artifact, rest))) :
    ∃ bytes marker, disk store.path = some bytes ∧ disk store.markerPath = some marker ∧
      artifact = recoveryArtifact services now bytes marker := by
  unfold exportRecoveryArtifact at h
  split at h
  case isTrue  => cases h
  case isFalse =>
    obtain _ | ⟨_ | _ | _, fates⟩ := fates
    case nil            => cases h
    case cons.untouched => cases h
    case cons.replaced  => cases h
    case cons.succeeds  =>
      cases hb : disk store.path
      case none       => simp [exec, FileOp.answer, hb] at h
      case some bytes =>
        simp only [perform_bind, exec, FileOp.answer, FileOp.effect, hb, Option.elim] at h
        obtain _ | ⟨_ | _ | _, fates⟩ := fates
        case nil            => cases h
        case cons.untouched => cases h
        case cons.replaced  => cases h
        case cons.succeeds  =>
          cases hm : disk store.markerPath
          case none        => simp [exec, FileOp.answer, hm] at h
          case some marker =>
            simp only [exec, FileOp.answer, FileOp.effect, hm, Option.elim] at h
            cases h
            exact ⟨bytes, marker, rfl, rfl, rfl⟩

theorem recoveryExport_exec {store store' : EncryptedStore} {nonce : Option Nonce}
    {disk disk' : Disk} {fates rest : List Fate}
    (h : (Daemon.recoveryExport aead services store nonce now).exec disk fates =
      (disk', some ((⟨200, Daemon.exportBody artifact⟩, store'), rest))) :
    ∃ bytes marker, disk store.path = some bytes ∧ disk store.markerPath = some marker ∧
      artifact = recoveryArtifact services now bytes marker := by
  rw [Daemon.recoveryExport, exec_bind] at h
  split at h
  case h_1                   => cases h
  case h_2 result fates hx =>
    cases result
    case error => cases h
    case ok exported =>
      have ha : exported = artifact := by
        rw [exec_bind] at h
        split at h
        case h_1 => cases h
        case h_2 =>
          split at h
          case h_1 => cases h
          case h_2 =>
            simp only [pure_eq_done, exec, Prod.mk.injEq, Option.some.injEq, Daemon.ApiReply.mk.injEq] at h
            exact exportBody_injective h.right.left.left.right
      exact ha ▸ exportRecoveryArtifact_exec hx

theorem exportRecovery_exec {output : FilePath} {message : String} {disk disk' : Disk}
    {fates rest : List Fate}
    (h : (Cli.exportRecovery services dataDir output now).exec disk fates =
      (disk', some (.ok message, rest))) :
    ∃ bytes marker, disk (Cli.storePath dataDir) = some bytes ∧
      disk (Cli.revisionPath dataDir) = some marker ∧
      disk' output = some (recoveryArtifact services now bytes marker) := by
  unfold Cli.exportRecovery at h
  have ⟨hasStore, _, h⟩ := Cli.isFile_exec h
  split at h
  case isTrue  => cases h
  case isFalse =>
    have ⟨hasMarker, _, h⟩ := Cli.isFile_exec h
    split at h
    case isTrue  => cases h
    case isFalse =>
      have ⟨hasOutput, _, h⟩ := Cli.isFile_exec h
      split at h
      case isTrue  => cases h
      case isFalse =>
        have ⟨bytes, _, hb, h⟩ := Cli.readFile_exec h
        have ⟨marker, fates, hm, h⟩ := Cli.readFile_exec h
        refine ⟨bytes, marker, hb, hm, ?_⟩
        match fates with
        | []                               => cases h
        | .untouched :: _ | .replaced :: _ => cases h
        | .succeeds :: _                   => cases h; exact Function.update_self _ _ _

theorem Exports.eq (hs : ∀ store, s.store = some store → store.path = Cli.storePath dataDir)
    (h : s.Exports aead services dataDir now artifact) :
    ∃ store marker, s.disk (Cli.storePath dataDir) = some store ∧
      s.disk (Cli.revisionPath dataDir) = some marker ∧
      artifact = recoveryArtifact services now store marker := by
  cases h
  case daemon hstore hx hr =>
    have hp := hs _ hstore
    obtain ⟨bytes, marker, hb, hm, ha⟩ := recoveryExport_exec (hr ▸ hx)
    rw [EncryptedStore.markerPath, hp, Cli.markerPath_storePath] at hm
    exact ⟨bytes, marker, hp ▸ hb, hm, ha⟩
  case commandLine hx ho   =>
    obtain ⟨bytes, marker, hb, hm, ha⟩ := exportRecovery_exec hx
    exact ⟨bytes, marker, hb, hm, Option.some.inj <| ho.symm.trans ha⟩

-- An exported artifact is accepted again as the two files it was made of, and these open to the same
-- records wherever they are installed.
structure RoundTrips (aead : Aead) (kdf : String → Salt → Option DatabaseKey)
    (services : ArtifactServices) (dataDir : FilePath) (credential : Credential) (s : Session)
    (head artifact : Bytes) : Prop where
  staged   : ∀ target disk, target.locked = false →
    ((Daemon.recoveryStage services target (Daemon.stageRequest head artifact)).run
      disk).snd.status = 202
  restored : ∃ store marker records, s.disk (Cli.storePath dataDir) = some store ∧
    s.disk (Cli.revisionPath dataDir) = some marker ∧
    parseRecoveryArtifact services artifact = .ok (store, marker) ∧
    ((credential.opening aead kdf <| Cli.storePath dataDir).run s.disk).snd.map (·.records) =
      .ok records ∧
    ∀ path disk, disk path = some store → disk (Storage.markerPath path) = some marker →
      ((credential.opening aead kdf path).run disk).snd.map (·.records) = .ok records

-- The marker names the revision of the store file, and the artifact fits into a request in hexadecimal.
def CanReturn (dataDir : FilePath) (s : Session) (now : UInt64) (head : Bytes) : Prop :=
  ∃ store marker, s.disk (Cli.storePath dataDir) = some store ∧
    s.disk (Cli.revisionPath dataDir) = some marker ∧ RevisionsAgree store marker ∧
    head.length + 2 * artifactSize now store marker + 19 ≤ Daemon.maxRequestBytes

theorem parseMarker_of_markerRevision {revision : UInt64}
    (h : markerRevision marker = some revision) : parseMarker marker = .ok revision := by
  have ⟨text, ht, hp⟩ := Option.bind_eq_some_iff.mp h
  simp [parseMarker, ht, hp]

-- Files that are sealed for the credential and agree on the revision open, wherever they are.
theorem opening_of_revisionsAgree {sealedStore : EncryptedStore}
    (hs : sealedStore.IsSealed aead store) (hf : credential.Fits kdf sealedStore)
    (ha : RevisionsAgree store marker) {path : FilePath} {disk : Disk}
    (hstore : disk path = some store) (hmarker : disk (Storage.markerPath path) = some marker) :
    ((credential.opening aead kdf path).run disk).snd.map (·.records) =
      .ok sealedStore.records := by
  have ⟨nonce, ciphertext, plaintext, hp, hd⟩ := hs
  have ⟨parsed, hp', hm⟩ := ha
  cases hp.symm.trans hp'
  have ho : { sealedStore with path, locked := false }.OnFiles aead disk :=
    ⟨rfl, ⟨store, hstore, nonce, ciphertext, plaintext, hp, hd⟩,
      ⟨marker, hmarker, parseMarker_of_markerRevision hm⟩⟩
  have hf' : credential.Fits kdf { sealedStore with path, locked := false } := hf.of_eq rfl rfl
  rw [Credential.run_opening hf' ho]
  rfl

-- In every state of every run, an exported artifact can be returned exactly under this condition.
theorem roundTrips_iff_canReturn {s₀ : Session} {store₀ : EncryptedStore} {episodes : List Episode}
    (start : s₀.store = some store₀ ∧
      credential.Starts aead kdf (Cli.storePath dataDir) s₀.disk store₀)
    (state : s ∈ Run.states (live aead kdf (Cli.storePath dataDir) credential) s₀ episodes)
    (exported : s.Exports aead services dataDir now artifact)
    (reads : ∀ store marker, s.disk (Cli.storePath dataDir) = some store →
      s.disk (Cli.revisionPath dataDir) = some marker →
      services.readManifest (RecoveryManifest.of services now store marker).bytes =
        some (.of services now store marker)) :
    s.RoundTrips aead kdf services dataDir credential head artifact ↔
      s.CanReturn dataDir now head := by
  have hsealed := Run.invariant_states (fun _ _ h => IsSealed.live h)
    (IsSealed.start start.left start.right) s state
  obtain ⟨store, marker, hstore, hmarker, rfl⟩ := exported.eq fun store h =>
    (hsealed.running store h).left
  obtain ⟨_, sealedStore, hb, hs, hf⟩ := hsealed.file
  cases hb.symm.trans hstore
  have hlen : (recoveryArtifact services now store marker).length = artifactSize now store marker :=
    length_recoveryArtifact
  have hne : recoveryArtifact services now store marker ≠ [] := fun h => by
    simp [h, artifactSize] at hlen
  constructor
  case mp =>
    rintro ⟨hstage, _, _, _, hstore', hmarker', hparse, _⟩
    cases hstore'.symm.trans hstore
    cases hmarker'.symm.trans hmarker
    obtain ⟨_, _, ha⟩ := parseRecoveryArtifact_eq_ok_iff.mp hparse
    have hfits := (Daemon.recoveryStage_run_iff hne rfl).mp <|
      hstage { sealedStore with locked := false } s.disk rfl
    exact ⟨store, marker, hstore, hmarker, ha, hlen ▸ hfits.left⟩
  case mpr =>
    rintro ⟨_, _, hstore', hmarker', ha, hsize⟩
    cases hstore'.symm.trans hstore
    cases hmarker'.symm.trans hmarker
    have hmax : Daemon.maxRequestBytes ≤ maxRecoveryArtifactBytes := by decide
    have hbound : maxRecoveryArtifactBytes < 2 ^ 64 := by decide
    have hparse := parseRecoveryArtifact_eq_ok_iff.mpr
      ⟨by omega, framed_recoveryArtifact (reads _ _ hstore hmarker) (by omega), ha⟩
    refine ⟨fun target disk hl => ?_, store, marker, sealedStore.records, hstore, hmarker, hparse,
      ?_, fun path disk => opening_of_revisionsAgree hs hf ha⟩
    case refine_1 =>
      exact (Daemon.recoveryStage_run_iff hne hl).mpr ⟨hlen ▸ hsize, by rw [hparse]; rfl⟩
    case refine_2 =>
      rw [← Cli.markerPath_storePath] at hmarker
      exact opening_of_revisionsAgree hs hf ha hstore hmarker

def samplePath : FilePath :=
  Cli.storePath "data"

def sampleCredential : Credential :=
  .passphrase Directory.samplePassphrase

def sampleProfile : Session :=
  ⟨Directory.sample.disk, Directory.sample.store⟩

theorem sampleProfile_starts : ∃ store, sampleProfile.store = some store ∧
    sampleCredential.Starts .sample Directory.sampleKdf samplePath sampleProfile.disk store := by
  have ⟨store, hs⟩ : ∃ store, sampleProfile.store = some store :=
    Option.isSome_iff_exists.mp (by decide)
  refine ⟨store, hs, emptyDisk, .inl ⟨some sampleStore.salt, sampleNonce, Prod.ext rfl ?_⟩⟩
  simp only [sampleProfile, Directory.sample, Except.toOption] at hs
  split at hs
  case h_1 h => exact (Option.some.inj hs) ▸ h
  case h_2   => cases hs

-- The profile after a put; with three fates the process dies before it writes the marker.
def samplePut (fates : Nat) : Session :=
  sampleProfile.live .sample Directory.sampleKdf samplePath sampleCredential
    (.op (.put .device "a" [1]) sampleNonce (.replicate fates .succeeds))

-- The SHA-256 digests of the store file and of the two markers.
def profileSha256 (bytes : Bytes) : ByteBlock 32 :=
  if bytes = markerBytes 0 then
    firstMarkerDigest
  else if bytes = markerBytes 1 then
    secondMarkerDigest
  else
    ⟨[227, 81, 88, 196, 246, 23, 169, 40, 104, 251, 227, 35, 31, 147, 152, 109, 59, 45, 75, 51,
      39, 42, 174, 47, 106, 149, 214, 182, 231, 8, 47, 92], rfl⟩

def profileFile (s : Session) : Bytes :=
  (s.disk samplePath).getD []

def profileMarker (s : Session) : Bytes :=
  (s.disk <| Cli.revisionPath "data").getD []

def profileServices (s : Session) : ArtifactServices where
  sha256       := profileSha256
  readManifest := Reader.of RecoveryManifest.bytes id
    [.of ⟨profileSha256, fun _ => none⟩ 1700000000 (profileFile s) (profileMarker s)]

def profileArtifact (s : Session) : Bytes :=
  recoveryArtifact (profileServices s) 1700000000 (profileFile s) (profileMarker s)

theorem profileArtifact_exported (n : Nat) (h : n = 3 ∨ n = 4) :
    (samplePut n).Exports .sample (profileServices <| samplePut n) "data" 1700000000
      (profileArtifact <| samplePut n) := by
  let message := "encrypted recovery exported to backup\nkeep it offline and separate from the device"
  have hx : ((Cli.exportRecovery (profileServices <| samplePut n) "data" "backup" 1700000000).exec
      (samplePut n).disk (.replicate 6 .succeeds)).snd = some (.ok message, []) := by
    obtain rfl | rfl := h <;> decide
  obtain ⟨store, marker, hs, hm, ho⟩ := exportRecovery_exec (Prod.ext rfl hx)
  have hstore : profileFile (samplePut n) = store := congrArg (·.getD []) hs
  have hmarker : profileMarker (samplePut n) = marker := congrArg (·.getD []) hm
  refine .commandLine (Prod.ext rfl hx) ?_
  rw [profileArtifact, hstore, hmarker]
  exact ho

theorem profileServices_readManifest (s : Session) :
    (profileServices s).readManifest
      (RecoveryManifest.of (profileServices s) 1700000000 (profileFile s) (profileMarker s)).bytes =
      some (.of (profileServices s) 1700000000 (profileFile s) (profileMarker s)) := by
  have hm : RecoveryManifest.of (profileServices s) = .of ⟨profileSha256, fun _ => none⟩ := rfl
  have hr : (profileServices s).readManifest = Reader.of RecoveryManifest.bytes id
    [.of ⟨profileSha256, fun _ => none⟩ 1700000000 (profileFile s) (profileMarker s)] := rfl
  rw [hm, hr, Reader.of_singleton]

-- The files of the profile after the put, and the revisions they name.
set_option maxRecDepth 10000 in
theorem samplePut_files (n : Nat) (h : n = 3 ∨ n = 4) :
    (samplePut n).disk samplePath = some (profileFile <| samplePut n) ∧
    (samplePut n).disk (Cli.revisionPath "data") = some (profileMarker <| samplePut n) ∧
    (parseFile <| profileFile <| samplePut n).map (·.revision) = .ok 1 ∧
    markerRevision (profileMarker <| samplePut n) = some (.ofNat (n - 3)) := by
  obtain rfl | rfl := h <;> decide

-- The store file is one revision ahead of the marker.
theorem interruptedPut_not_roundTrips :
    (∃ store, sampleProfile.store = some store ∧
      sampleCredential.Starts .sample Directory.sampleKdf samplePath sampleProfile.disk store) ∧
    (samplePut 3).Exports .sample (profileServices <| samplePut 3) "data" 1700000000
      (profileArtifact <| samplePut 3) ∧
    ¬(samplePut 3).RoundTrips .sample Directory.sampleKdf (profileServices <| samplePut 3) "data"
      sampleCredential [] (profileArtifact <| samplePut 3) := by
  refine ⟨sampleProfile_starts, profileArtifact_exported 3 (.inl rfl), fun h => ?_⟩
  obtain ⟨store, marker, _, hs, hm, hp, _⟩ := h.restored
  obtain ⟨hstore, hmarker, hfile, hrevision⟩ := samplePut_files 3 (.inl rfl)
  cases hs.symm.trans hstore
  cases hm.symm.trans hmarker
  have ha := (parseRecoveryArtifact_eq_ok_iff.mp hp).right.right
  exact absurd ((revisionsAgree_iff hfile hrevision).mp ha) (by decide)

theorem finishedPut_roundTrips :
    (samplePut 4).CanReturn "data" 1700000000 [] ∧
    (samplePut 4).RoundTrips .sample Directory.sampleKdf (profileServices <| samplePut 4) "data"
      sampleCredential [] (profileArtifact <| samplePut 4) := by
  obtain ⟨hstore, hmarker, hfile, hrevision⟩ := samplePut_files 4 (.inr rfl)
  have ha := (revisionsAgree_iff hfile hrevision).mpr rfl
  have hc : (samplePut 4).CanReturn "data" 1700000000 [] :=
    ⟨_, _, hstore, hmarker, ha, by decide⟩
  have ⟨_, hs⟩ := sampleProfile_starts
  have state : samplePut 4 ∈ Run.states
      (live .sample Directory.sampleKdf samplePath sampleCredential) sampleProfile
      [.op (.put .device "a" [1]) sampleNonce (.replicate 4 .succeeds)] :=
    Run.foldl_mem_states
  refine ⟨hc, (roundTrips_iff_canReturn hs state
    (profileArtifact_exported 4 (.inr rfl)) fun store marker hs hm => ?_).mpr hc⟩
  cases hs.symm.trans hstore
  cases hm.symm.trans hmarker
  exact profileServices_readManifest _

end Session
