import AnotherDimension.Library.Serde

-- The storage that the MLS library writes to: a bounded map of bytes, in which every value stands
-- under the label of its kind and its serialized key.

inductive EncryptedMlsStorageError
  | unsupportedValueTypeBytes
  | unsupportedMethod
  | serializationError
  | storageLimit
  deriving DecidableEq, Repr

inductive EntityLabel
  | keyPackage
  | psk
  | encryptionKeyPair
  | signatureKeyPair
  | epochKeyPairs
  | tree
  | groupContext
  | interimTranscriptHash
  | confirmationTag
  | joinConfig
  | ownLeafNodes
  | groupState
  | queuedProposal
  | proposalQueueRefs
  | ownLeafNodeIndex
  | epochSecrets
  | resumptionPskStore
  | messageSecrets
  deriving DecidableEq, Repr

namespace EntityLabel

def text : EntityLabel → String
  | keyPackage            => "KeyPackage"
  | psk                   => "Psk"
  | encryptionKeyPair     => "EncryptionKeyPair"
  | signatureKeyPair      => "SignatureKeyPair"
  | epochKeyPairs         => "EpochKeyPairs"
  | tree                  => "Tree"
  | groupContext          => "GroupContext"
  | interimTranscriptHash => "InterimTranscriptHash"
  | confirmationTag       => "ConfirmationTag"
  | joinConfig            => "MlsGroupJoinConfig"
  | ownLeafNodes          => "OwnLeafNodes"
  | groupState            => "GroupState"
  | queuedProposal        => "QueuedProposal"
  | proposalQueueRefs     => "ProposalQueueRefs"
  | ownLeafNodeIndex      => "OwnLeafNodeIndex"
  | epochSecrets          => "EpochSecrets"
  | resumptionPskStore    => "ResumptionPsk"
  | messageSecrets        => "MessageSecrets"

def bytes (label : EntityLabel) : Bytes :=
  Bytes.utf8 label.text

-- The kinds whose values are inserted without a look at the limits.
def isInserted : EntityLabel → Bool
  | signatureKeyPair | groupContext | interimTranscriptHash | confirmationTag => true
  | _                                                                         => false

-- The kinds whose values are lists that grow.
def isList : EntityLabel → Bool
  | ownLeafNodes | proposalQueueRefs => true
  | _                                => false

-- The kinds that make up the proposal queue.
def isQueue : EntityLabel → Bool
  | queuedProposal | proposalQueueRefs => true
  | _                                  => false

end EntityLabel

structure EncryptedMlsStorage where
  values : Std.ExtTreeMap Bytes Bytes

namespace EncryptedMlsStorage

open Serde

def currentVersion : Nat := 1

def maxMlsValues : Nat := 4096

def maxMlsValueBytes : Nat := 4 * 1024 * 1024

-- `EncryptedMlsStorage::default`
def empty : EncryptedMlsStorage := ⟨∅⟩

def buildKeyFromVec (label : EntityLabel) (key : Bytes) : Bytes :=
  label.bytes ++ key ++ Bytes.ofNat 2 currentVersion

abbrev Result (α : Type) := Except EncryptedMlsStorageError α

-- What `serde_json` gives, with its error as the storage's.
def orSerializationError {α : Type} (result : Option α) : Result α :=
  result.elim (.error .serializationError) .ok

section

variable (storage : EncryptedMlsStorage) (label : EntityLabel)

def write (key value : Bytes) : Result Unit × EncryptedMlsStorage :=
  if value.length > maxMlsValueBytes then
    (.error .storageLimit, storage)
  else if !storage.values.contains (buildKeyFromVec label key) ∧
      storage.values.size ≥ maxMlsValues then
    (.error .storageLimit, storage)
  else
    (.ok (), ⟨storage.values.insert (buildKeyFromVec label key) value⟩)

-- The list under the key, and the storage in which there is one.
def listEntry (key : Bytes) : Bytes × EncryptedMlsStorage :=
  (storage.values.getD (buildKeyFromVec label key) (Bytes.utf8 "[]"),
    ⟨storage.values.insertIfNew (buildKeyFromVec label key) (Bytes.utf8 "[]")⟩)

-- A list that is too long or too large stays as it is, but the entry is there from then on.
def append (key value : Bytes) : Result Unit × EncryptedMlsStorage :=
  let (listBytes, storage) := storage.listEntry label key
  match (fromSlice listBytes : Option (List Bytes)) with
  | none      => (.error .serializationError, storage)
  | some list =>
    if list.length ≥ maxMlsValues then
      (.error .storageLimit, storage)
    else
      match toVec (list ++ [value]) with
      | none         => (.error .serializationError, storage)
      | some encoded =>
        if encoded.length > maxMlsValueBytes then
          (.error .storageLimit, storage)
        else
          (.ok (), ⟨storage.values.insert (buildKeyFromVec label key) encoded⟩)

-- The first item that is equal to the value is removed.
def removeItem (key value : Bytes) : Result Unit × EncryptedMlsStorage :=
  let (listBytes, storage) := storage.listEntry label key
  match (fromSlice listBytes : Option (List Bytes)) with
  | none      => (.error .serializationError, storage)
  | some list =>
    match toVec (list.erase value) with
    | none         => (.error .serializationError, storage)
    | some encoded => (.ok (), ⟨storage.values.insert (buildKeyFromVec label key) encoded⟩)

def read {ν : Type} [Serde ν] (key : Bytes) : Result (Option ν) :=
  match storage.values[buildKeyFromVec label key]? with
  | none       => .ok none
  | some value => (orSerializationError (fromSlice value)).map some

def readList {ν : Type} [Serde ν] (key : Bytes) : Result (List ν) :=
  match storage.values[buildKeyFromVec label key]? with
  | none           => .ok []
  | some listBytes =>
    match (fromSlice listBytes : Option (List Bytes)) with
    | none      => .error .serializationError
    | some list => orSerializationError (list.mapM fromSlice)

def delete (key : Bytes) : Result Unit × EncryptedMlsStorage :=
  (.ok (), ⟨storage.values.erase (buildKeyFromVec label key)⟩)

-- The methods of one kind of value differ in the label only. A key or a value that cannot be
-- serialized ends the call before the storage is touched.

def writeSerialized (key value : Option Bytes) : Result Unit × EncryptedMlsStorage :=
  match key, value with
  | some key, some value => storage.write label key value
  | _, _                 => (.error .serializationError, storage)

-- These go around `write`, and so around its limits.
def insertSerialized (key value : Option Bytes) : Result Unit × EncryptedMlsStorage :=
  match key, value with
  | some key, some value => (.ok (), ⟨storage.values.insert (buildKeyFromVec label key) value⟩)
  | _, _                 => (.error .serializationError, storage)

def appendSerialized (key value : Option Bytes) : Result Unit × EncryptedMlsStorage :=
  match key, value with
  | some key, some value => storage.append label key value
  | _, _                 => (.error .serializationError, storage)

def deleteSerialized (key : Option Bytes) : Result Unit × EncryptedMlsStorage :=
  match key with
  | some key => storage.delete label key
  | none     => (.error .serializationError, storage)

def readSerialized {ν : Type} [Serde ν] (key : Option Bytes) : Result (Option ν) := do
  storage.read label (← orSerializationError key)

def readListSerialized {ν : Type} [Serde ν] (key : Option Bytes) : Result (List ν) := do
  storage.readList label (← orSerializationError key)

end

section

variable (storage : EncryptedMlsStorage) {κ ν : Type} [Serde κ] [Serde ν]

def writeTree (groupId : κ) (tree : ν) :=
  storage.writeSerialized .tree (toVec groupId) (toVec tree)

def writeInterimTranscriptHash (groupId : κ) (interimTranscriptHash : ν) :=
  storage.insertSerialized .interimTranscriptHash (toVec groupId) (toVec interimTranscriptHash)

def writeContext (groupId : κ) (groupContext : ν) :=
  storage.insertSerialized .groupContext (toVec groupId) (toVec groupContext)

def writeConfirmationTag (groupId : κ) (confirmationTag : ν) :=
  storage.insertSerialized .confirmationTag (toVec groupId) (toVec confirmationTag)

def writeSignatureKeyPair (publicKey : κ) (signatureKeyPair : ν) :=
  storage.insertSerialized .signatureKeyPair (toVec publicKey) (toVec signatureKeyPair)

def writeKeyPackage (hashRef : κ) (keyPackage : ν) :=
  storage.writeSerialized .keyPackage (toVec hashRef) (toVec keyPackage)

def writePsk (pskId : κ) (psk : ν) :=
  storage.writeSerialized .psk (toVec pskId) (toVec psk)

def writeEncryptionKeyPair (publicKey : κ) (keyPair : ν) :=
  storage.writeSerialized .encryptionKeyPair (toVec publicKey) (toVec keyPair)

def writeGroupState (groupId : κ) (groupState : ν) :=
  storage.writeSerialized .groupState (toVec groupId) (toVec groupState)

def writeMessageSecrets (groupId : κ) (messageSecrets : ν) :=
  storage.writeSerialized .messageSecrets (toVec groupId) (toVec messageSecrets)

def writeResumptionPskStore (groupId : κ) (resumptionPskStore : ν) :=
  storage.writeSerialized .resumptionPskStore (toVec groupId) (toVec resumptionPskStore)

def writeOwnLeafIndex (groupId : κ) (ownLeafIndex : ν) :=
  storage.writeSerialized .ownLeafNodeIndex (toVec groupId) (toVec ownLeafIndex)

def writeGroupEpochSecrets (groupId : κ) (groupEpochSecrets : ν) :=
  storage.writeSerialized .epochSecrets (toVec groupId) (toVec groupEpochSecrets)

def writeMlsJoinConfig (groupId : κ) (config : ν) :=
  storage.writeSerialized .joinConfig (toVec groupId) (toVec config)

def appendOwnLeafNode (groupId : κ) (leafNode : ν) :=
  storage.appendSerialized .ownLeafNodes (toVec groupId) (toVec leafNode)

def tree (groupId : κ) : Result (Option ν) :=
  storage.readSerialized .tree (toVec groupId)

def groupContext (groupId : κ) : Result (Option ν) :=
  storage.readSerialized .groupContext (toVec groupId)

def interimTranscriptHash (groupId : κ) : Result (Option ν) :=
  storage.readSerialized .interimTranscriptHash (toVec groupId)

def confirmationTag (groupId : κ) : Result (Option ν) :=
  storage.readSerialized .confirmationTag (toVec groupId)

def signatureKeyPair (publicKey : κ) : Result (Option ν) :=
  storage.readSerialized .signatureKeyPair (toVec publicKey)

def keyPackage (hashRef : κ) : Result (Option ν) :=
  storage.readSerialized .keyPackage (toVec hashRef)

def psk (pskId : κ) : Result (Option ν) :=
  storage.readSerialized .psk (toVec pskId)

def encryptionKeyPair (publicKey : κ) : Result (Option ν) :=
  storage.readSerialized .encryptionKeyPair (toVec publicKey)

def groupState (groupId : κ) : Result (Option ν) :=
  storage.readSerialized .groupState (toVec groupId)

def messageSecrets (groupId : κ) : Result (Option ν) :=
  storage.readSerialized .messageSecrets (toVec groupId)

def resumptionPskStore (groupId : κ) : Result (Option ν) :=
  storage.readSerialized .resumptionPskStore (toVec groupId)

def ownLeafIndex (groupId : κ) : Result (Option ν) :=
  storage.readSerialized .ownLeafNodeIndex (toVec groupId)

def groupEpochSecrets (groupId : κ) : Result (Option ν) :=
  storage.readSerialized .epochSecrets (toVec groupId)

def mlsGroupJoinConfig (groupId : κ) : Result (Option ν) :=
  storage.readSerialized .joinConfig (toVec groupId)

def ownLeafNodes (groupId : κ) : Result (List ν) :=
  storage.readListSerialized .ownLeafNodes (toVec groupId)

def queuedProposalRefs (groupId : κ) : Result (List ν) :=
  storage.readListSerialized .proposalQueueRefs (toVec groupId)

def deleteSignatureKeyPair (publicKey : κ) :=
  storage.deleteSerialized .signatureKeyPair (toVec publicKey)

def deleteEncryptionKeyPair (publicKey : κ) :=
  storage.deleteSerialized .encryptionKeyPair (toVec publicKey)

def deleteKeyPackage (hashRef : κ) :=
  storage.deleteSerialized .keyPackage (toVec hashRef)

def deletePsk (pskId : κ) :=
  storage.deleteSerialized .psk (toVec pskId)

def deleteGroupState (groupId : κ) :=
  storage.deleteSerialized .groupState (toVec groupId)

def deleteMessageSecrets (groupId : κ) :=
  storage.deleteSerialized .messageSecrets (toVec groupId)

def deleteAllResumptionPskSecrets (groupId : κ) :=
  storage.deleteSerialized .resumptionPskStore (toVec groupId)

def deleteOwnLeafIndex (groupId : κ) :=
  storage.deleteSerialized .ownLeafNodeIndex (toVec groupId)

def deleteGroupEpochSecrets (groupId : κ) :=
  storage.deleteSerialized .epochSecrets (toVec groupId)

def deleteOwnLeafNodes (groupId : κ) :=
  storage.deleteSerialized .ownLeafNodes (toVec groupId)

def deleteGroupConfig (groupId : κ) :=
  storage.deleteSerialized .joinConfig (toVec groupId)

def deleteTree (groupId : κ) :=
  storage.deleteSerialized .tree (toVec groupId)

def deleteConfirmationTag (groupId : κ) :=
  storage.deleteSerialized .confirmationTag (toVec groupId)

def deleteContext (groupId : κ) :=
  storage.deleteSerialized .groupContext (toVec groupId)

def deleteInterimTranscriptHash (groupId : κ) :=
  storage.deleteSerialized .interimTranscriptHash (toVec groupId)

end

-- The key pairs of an epoch stand under three serializations, one after the other.
section

variable {γ ε ν : Type} [Serde γ] [Serde ε] [Serde ν]

def epochKeyPairsId (groupId : γ) (epoch : ε) (leafIndex : UInt32) : Option Bytes := do
  return (← toVec groupId) ++ (← toVec epoch) ++ (← toVec leafIndex)

variable (storage : EncryptedMlsStorage)

def writeEncryptionEpochKeyPairs (groupId : γ) (epoch : ε) (leafIndex : UInt32)
    (keyPairs : List ν) :=
  storage.writeSerialized .epochKeyPairs (epochKeyPairsId groupId epoch leafIndex) (toVec keyPairs)

def encryptionEpochKeyPairs (groupId : γ) (epoch : ε) (leafIndex : UInt32) : Result (List ν) :=
  (storage.readSerialized .epochKeyPairs (epochKeyPairsId groupId epoch leafIndex)).map
    (·.getD [])

def deleteEncryptionEpochKeyPairs (groupId : γ) (epoch : ε) (leafIndex : UInt32) :=
  storage.deleteSerialized .epochKeyPairs (epochKeyPairsId groupId epoch leafIndex)

end

section

variable {γ ρ π : Type} [Serde γ] [Serde ρ] [Serde π] (storage : EncryptedMlsStorage)

-- The proposal is written under its group and reference, and the reference is put on the list of
-- the group.
def queueProposal (groupId : γ) (proposalRef : ρ) (proposal : π) :
    Result Unit × EncryptedMlsStorage :=
  match storage.writeSerialized .queuedProposal (toVec (groupId, proposalRef)) (toVec proposal) with
  | (.error e, storage) => (.error e, storage)
  | (.ok (), storage)   =>
    storage.appendSerialized .proposalQueueRefs (toVec groupId) (toVec proposalRef)

def queuedProposals (groupId : γ) : Result (List (ρ × π)) := do
  let refs : List ρ ← storage.queuedProposalRefs groupId
  refs.mapM fun proposalRef => do
    let key ← orSerializationError <| toVec (groupId, proposalRef)
    match ← storage.read .queuedProposal key with
    | none          => .error .serializationError
    | some proposal => .ok (proposalRef, proposal)

def removeProposal (groupId : γ) (proposalRef : ρ) : Result Unit × EncryptedMlsStorage :=
  match toVec groupId, toVec proposalRef with
  | some key, some value =>
    match storage.removeItem .proposalQueueRefs key value with
    | (.error e, storage) => (.error e, storage)
    | (.ok (), storage)   =>
      storage.deleteSerialized .queuedProposal (toVec (groupId, proposalRef))
  | _, _                 => (.error .serializationError, storage)

-- The keys that `clear_proposal_queue` removes for the proposals have no label and no version.
def removeRaw (groupId : γ) : List ρ → EncryptedMlsStorage → Result Unit × EncryptedMlsStorage
  | [], storage                   => (.ok (), storage)
  | proposalRef :: refs, storage =>
    match toVec (groupId, proposalRef) with
    | none     => (.error .serializationError, storage)
    | some key => removeRaw groupId refs ⟨storage.values.erase key⟩

variable (ρ) in
def clearProposalQueue (groupId : γ) : Result Unit × EncryptedMlsStorage :=
  match (storage.queuedProposalRefs groupId : Result (List ρ)) with
  | .error e => (.error e, storage)
  | .ok refs =>
    match removeRaw groupId refs storage with
    | (.error e, storage) => (.error e, storage)
    | (.ok (), storage)   => storage.deleteSerialized .proposalQueueRefs (toVec groupId)

end

end EncryptedMlsStorage

-- A call that can change the storage, with what it was given in its serialization. The methods of
-- the kinds outside of the proposal queue are the first four.
inductive MlsStorageCall (γ ρ π : Type)
  | write (label : EntityLabel) (key value : Option Bytes)
    (h : !label.isInserted ∧ !label.isList ∧ !label.isQueue)
  | insert (label : EntityLabel) (key value : Option Bytes) (h : label.isInserted)
  | delete (label : EntityLabel) (key : Option Bytes) (h : !label.isQueue)
  | appendOwnLeafNode (groupId leafNode : Option Bytes)
  | queueProposal (groupId : γ) (proposalRef : ρ) (proposal : π)
  | removeProposal (groupId : γ) (proposalRef : ρ)
  | clearProposalQueue (groupId : γ)

namespace EncryptedMlsStorage

variable {γ ρ π : Type} [Serde γ] [Serde ρ] [Serde π]

def call (storage : EncryptedMlsStorage) :
    MlsStorageCall γ ρ π → Result Unit × EncryptedMlsStorage
  | .write label key value _                     => storage.writeSerialized label key value
  | .insert label key value _                    => storage.insertSerialized label key value
  | .delete label key _                          => storage.deleteSerialized label key
  | .appendOwnLeafNode groupId leafNode          =>
    storage.appendSerialized .ownLeafNodes groupId leafNode
  | .queueProposal groupId proposalRef proposal => storage.queueProposal groupId proposalRef proposal
  | .removeProposal groupId proposalRef          => storage.removeProposal groupId proposalRef
  | .clearProposalQueue groupId                  => storage.clearProposalQueue ρ groupId

end EncryptedMlsStorage
