import AnotherDimension.Storage.Store

-- The store as the rest of the daemon sees it: records in memory, the record maps the store file
-- has held, and for every commit to come whether it succeeds. The files themselves are left to
-- `EncryptedStore`, whose operations this store abstracts from.

open Storage

-- How the file steps of a commit end. A commit that is reported as failed leaves the store file as
-- it was, or has already replaced it.
inductive CommitOutcome
  | done
  | refused
  | replaced
  deriving DecidableEq, Repr

-- The newest revision comes first.
structure DurableStore where
  store     : EncryptedStore
  revisions : List Records
  outcomes  : List CommitOutcome
  deriving DecidableEq

namespace DurableStore

variable (s : DurableStore)

-- What a restart finds.
def durable : Records :=
  s.revisions.headD ∅

def records : Records :=
  s.store.records

def get (cls : RecordClass) (key : String) : Option Bytes :=
  s.store.get cls key

-- `records_with_prefix`
def recordsWithPrefix (cls : RecordClass) (start : String) : List (String × Bytes) :=
  if s.store.locked then
    []
  else
    s.records.toList
      |>.filter (fun entry => entry.fst.fst = cls && start.toList.isPrefixOf entry.fst.snd.toList)
      |>.map (fun entry => (entry.fst.snd, entry.snd))
      |>.take maxRecords

def withRecords (records : Records) : DurableStore :=
  { s with store := { s.store with records } }

-- Commits without an outcome of their own succeed.
def commit : Except StorageError Unit × DurableStore :=
  if s.store.locked then
    (.error .locked, s)
  else if s.records.size > maxRecords then
    (.error .tooManyRecords, s)
  else
    match s.store.revision.checkedAdd 1 with
    | none          => (.error .rollbackDetected, s)
    | some revision =>
      let revisions := s.records :: s.revisions
      match s.outcomes with
      | []                    => (.ok (), { s with store := { s.store with revision }, revisions })
      | .done :: outcomes     =>
        (.ok (), { store := { s.store with revision }, revisions, outcomes })
      | .refused :: outcomes  => (.error .io, { s with outcomes })
      | .replaced :: outcomes => (.error .io, { s with revisions, outcomes })

-- Every operation commits its new records, and takes them back when that fails.
def commitRecords (records : Records) : Except StorageError Unit × DurableStore :=
  match (s.withRecords records).commit with
  | (.ok (), s')   => (.ok (), s')
  | (.error e, s') => (.error e, s'.withRecords s.records)

def put (cls : RecordClass) (key : String) (value : Bytes) :
    Except StorageError Unit × DurableStore :=
  if s.store.locked then
    (.error .locked, s)
  else
    match validateRecordKey key with
    | .error e => (.error e, s)
    | .ok ()   =>
      if value.length > maxValueBytes then
        (.error .recordTooLarge, s)
      else
        s.commitRecords <| s.records.insert (cls, key) value

def delete (cls : RecordClass) (key : String) : Except StorageError Bool × DurableStore :=
  if s.store.locked then
    (.error .locked, s)
  else
    match s.records[(cls, key)]? with
    | none   => (.ok false, s)
    | some _ =>
      let (result, s') := s.commitRecords <| s.records.erase (cls, key)
      (result.map fun _ => true, s')

def applyBatch (mutations : List RecordMutation) : Except StorageError Unit × DurableStore :=
  if s.store.locked then
    (.error .locked, s)
  else
    match RecordMutation.applyEach mutations s.records with
    | (.error e, records) => (.error e, s.withRecords records)
    | (.ok (), records)   => s.commitRecords records

def perform : StoreOp → Except StorageError Unit × DurableStore
  | .put cls key value    => s.put cls key value
  | .delete cls key       => ((s.delete cls key).fst.map fun _ => (), (s.delete cls key).snd)
  | .applyBatch mutations => s.applyBatch mutations

def lock : DurableStore :=
  { s with store := { s.store with records := ∅, locked := true } }

-- A new process opens the store file.
def reopened (outcomes : List CommitOutcome) : DurableStore where
  store     := { s.store with records := s.durable, locked := false }
  revisions := s.revisions
  outcomes  := outcomes

end DurableStore
