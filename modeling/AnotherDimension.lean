import AnotherDimension.Library.Aead
import AnotherDimension.Library.Blobs
import AnotherDimension.Library.Bytes
import AnotherDimension.Library.Chunks
import AnotherDimension.Library.CrashLogic
import AnotherDimension.Library.Decode
import AnotherDimension.Library.Fallible
import AnotherDimension.Library.FileProgram
import AnotherDimension.Library.Frames
import AnotherDimension.Library.Integers
import AnotherDimension.Library.Json
import AnotherDimension.Library.JsonValue
import AnotherDimension.Library.Lines
import AnotherDimension.Library.OrderedMap
import AnotherDimension.Library.Reader
import AnotherDimension.Library.Run
import AnotherDimension.Library.Slices
import AnotherDimension.Library.Text
import AnotherDimension.Library.Uri
import AnotherDimension.Storage.Artifact
import AnotherDimension.Storage.Cursor
import AnotherDimension.Storage.Durable
import AnotherDimension.Storage.File
import AnotherDimension.Storage.Open
import AnotherDimension.Storage.Records
import AnotherDimension.Storage.Store
import AnotherDimension.Storage.Theorems.Artifact
import AnotherDimension.Storage.Theorems.Atomic
import AnotherDimension.Storage.Theorems.Batch
import AnotherDimension.Storage.Theorems.Codec
import AnotherDimension.Storage.Theorems.Crash
import AnotherDimension.Storage.Theorems.Durable
import AnotherDimension.Storage.Theorems.Frame
import AnotherDimension.Storage.Theorems.Holds
import AnotherDimension.Storage.Theorems.Open
import AnotherDimension.Storage.Theorems.Reopen
import AnotherDimension.Storage.Theorems.Rollback
import AnotherDimension.Storage.Theorems.Sealed
import AnotherDimension.Identity.Attestation
import AnotherDimension.Identity.Certificate
import AnotherDimension.Identity.DeviceLink
import AnotherDimension.Identity.Registry
import AnotherDimension.Identity.Summary
import AnotherDimension.Identity.Theorems.DeviceLink
import AnotherDimension.Identity.Theorems.Messages
import AnotherDimension.Identity.Theorems.Registry
import AnotherDimension.Cli.Artifact
import AnotherDimension.Cli.Pending
import AnotherDimension.Cli.Recovery
import AnotherDimension.Cli.Theorems.Artifact
import AnotherDimension.Cli.Theorems.Directory
import AnotherDimension.Cli.Theorems.Pending
import AnotherDimension.Cli.Theorems.Rotate
import AnotherDimension.Cli.Theorems.Steps
import AnotherDimension.Delivery.Endpoint
import AnotherDimension.Delivery.Envelope
import AnotherDimension.Delivery.Ledger
import AnotherDimension.Delivery.Persist
import AnotherDimension.Delivery.Theorems.Envelope
import AnotherDimension.Delivery.Theorems.Received
import AnotherDimension.Delivery.Theorems.Restore
import AnotherDimension.Delivery.Theorems.Size
import AnotherDimension.Pairing.Peer
import AnotherDimension.Pairing.Persist
import AnotherDimension.Pairing.Session
import AnotherDimension.Pairing.Theorems.Restore
import AnotherDimension.Pairing.Theorems.Safety
import AnotherDimension.Pairing.Theorems.Steps
import AnotherDimension.Pairing.Theorems.Trust
import AnotherDimension.Contacts.Directory
import AnotherDimension.Contacts.Persist
import AnotherDimension.Contacts.Theorems.Restore
import AnotherDimension.Attachments.Codec
import AnotherDimension.Attachments.Descriptor
import AnotherDimension.Attachments.WorkArea
import AnotherDimension.Attachments.Theorems.Codec
import AnotherDimension.Attachments.Theorems.Layout
import AnotherDimension.Attachments.Theorems.Seal
import AnotherDimension.Attachments.Theorems.WorkArea
import AnotherDimension.Messages.Payload
import AnotherDimension.Mls.Catalog
import AnotherDimension.Mls.Session
import AnotherDimension.Mls.Theorems.Removal
import AnotherDimension.Invites.Receipt
import AnotherDimension.Invites.Signed
import AnotherDimension.Invites.Theorems.Agreement
import AnotherDimension.Invites.Theorems.Receipt
import AnotherDimension.Bridge.Session
import AnotherDimension.Bridge.Theorems.Session
import AnotherDimension.Daemon.Admission
import AnotherDimension.Daemon.DeviceChange
import AnotherDimension.Daemon.Maintenance
import AnotherDimension.Daemon.MessageList
import AnotherDimension.Daemon.Operations
import AnotherDimension.Daemon.Outbox
import AnotherDimension.Daemon.Receive
import AnotherDimension.Daemon.RecoveryRoutes
import AnotherDimension.Daemon.State
import AnotherDimension.Daemon.Theorems.Acknowledged
import AnotherDimension.Daemon.Theorems.Admission
import AnotherDimension.Daemon.Theorems.Deletion
import AnotherDimension.Daemon.Theorems.DeviceChange
import AnotherDimension.Daemon.Theorems.Inbound
import AnotherDimension.Daemon.Theorems.Locality
import AnotherDimension.Daemon.Theorems.Maintenance
import AnotherDimension.Daemon.Theorems.MessageList
import AnotherDimension.Daemon.Theorems.Operations
import AnotherDimension.Daemon.Theorems.Receive
import AnotherDimension.Daemon.Theorems.Recovery
import AnotherDimension.Daemon.Theorems.Staging
import AnotherDimension.Relay.Blob
import AnotherDimension.Relay.Inbox
import AnotherDimension.Relay.Invites
import AnotherDimension.Relay.Server
import AnotherDimension.Relay.Signed
import AnotherDimension.Relay.State
import AnotherDimension.Relay.Theorems.Durability
import AnotherDimension.Relay.Theorems.Effect
import AnotherDimension.Relay.Theorems.Inbox
import AnotherDimension.Relay.Theorems.Upload
import AnotherDimension.Daemon.Theorems.Paths
import AnotherDimension.Library.Serde
import AnotherDimension.Mls.Provider
import AnotherDimension.Mls.Theorems.Limits
