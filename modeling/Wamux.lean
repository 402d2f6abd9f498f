import Wamux.Proof.GroupCommit.Ledger
import Wamux.GroupCommit.System
import Wamux.Proof.GroupCommit.Code
import Wamux.Proof.GroupCommit.Reconcile
import Wamux.Proof.GroupCommit.Jobs
import Wamux.Proof.GroupCommit.Bodies
import Wamux.Proof.GroupCommit.Moves
import Wamux.Proof.GroupCommit.Locking
import Wamux.Proof.GroupCommit.Invariant
import Wamux.Proof.GroupCommit.Durability
import Wamux.Proof.GroupCommit.Belief
import Wamux.Proof.GroupCommit.Waiters
import Wamux.Proof.GroupCommit.Slots
import Wamux.Proof.GroupCommit.Quiescence
import Wamux.Events.Forward
import Wamux.Events.Publisher
import Wamux.Events.AllAccounts
import Wamux.Proof.Events.Ring
import Wamux.Proof.Events.Delivery
import Wamux.Proof.Events.ExactlyOnce
import Wamux.Proof.Events.TotalOrder
import Wamux.Proof.Events.Recovery
import Wamux.Proof.Events.Membership
import Wamux.Events.Pairing
import Wamux.Proof.Events.Pairing
import Wamux.Runs.Durable
import Wamux.Runs.Failing
import Wamux.Runs.Takes
import Wamux.Encryption.Store
import Wamux.Encryption.Tables
import Wamux.Accounts.Handle
import Wamux.Accounts.Registry
import Wamux.Proof.Accounts.Moves
import Wamux.Proof.Accounts.Lifecycle
import Wamux.Proof.Accounts.AtRest
import Wamux.Proof.Accounts.Stale
import Wamux.Proof.Accounts.Terminal
import Wamux.Proof.Accounts.Index
import Wamux.Proof.Accounts.Budget
import Wamux.Proof.Encryption.Cipher
import Wamux.Proof.Encryption.Context
import Wamux.Proof.Encryption.Naming
import Wamux.Proof.Encryption.Tables
import Wamux.Proof.Encryption.Agreement
import Wamux.Proof.Encryption.Turning
import Wamux.Proof.Encryption.Consistency
import Wamux.Proof.Encryption.Conversion
import Wamux.Proof.Encryption.Opening
import Wamux.Proof.Encryption.Rotation
import Wamux.Proof.Encryption.Reruns
import Wamux.Proof.Encryption.Lifetime
import Wamux.Proof.Encryption.Scrubbing
import Wamux.SentMessages.Jobs
import Wamux.SentMessages.Postgres
import Wamux.Proof.SentMessages.Cache
import Wamux.Proof.SentMessages.TakenOnce
import Wamux.BlobCodec.Codec
import Wamux.Proof.BlobCodec.RoundTrip
import Wamux.Proof.BlobCodec.Contract
import Wamux.Proof.BincodeUpgrade.AllOrNothing
import Wamux.Runs.Ledger
import Wamux.Spool.Budget
import Wamux.Spool.BoundedFile
import Wamux.Spool.Transfers
import Wamux.Proof.Spool.Budget
import Wamux.Proof.Spool.BoundedFile
import Wamux.Proof.Spool.Transfers
import Wamux.Runs.Keyed
import Wamux.Runs.RowLocks
import Wamux.BatchedWrites.Statements
import Wamux.BatchedWrites.Calls
import Wamux.BatchedWrites.Engines
import Wamux.Proof.BatchedWrites.Content
import Wamux.Proof.BatchedWrites.Jobs
import Wamux.Runs.Gated
import Wamux.Proof.BatchedWrites.AllOrNothing
import Wamux.MsgSecrets.Table
import Wamux.Proof.MsgSecrets.Retention
import Wamux.TcTokens.Table
import Wamux.Proof.TcTokens.Writers
import Wamux.Quotes.Request
import Wamux.Quotes.Relay
import Wamux.Proof.Quotes.Echo
import Wamux.Runs.Selects
import Wamux.BatchedReads.Statements
import Wamux.BatchedReads.Reads
import Wamux.Proof.BatchedReads.Chunks
import Wamux.Proof.BatchedReads.Rows
import Wamux.Proof.BatchedReads.Agreement
import Wamux.Runs.Tables
import Wamux.Stores.Statements
import Wamux.Stores.Methods
import Wamux.Stores.System
import Wamux.Proof.Stores.Prepared
import Wamux.Proof.Stores.Isolation
import Wamux.Proof.Stores.Sealing
import Wamux.Proof.Stores.Deletion
import Wamux.Proof.Stores.History
import Wamux.Proof.Stores.KeyValues
import Wamux.Proof.Stores.Mappings
import Wamux.Proof.Stores.Engines
import Wamux.Migrations.Runner
import Wamux.Proof.Migrations.Ran
import Wamux.Proof.Migrations.AppendOnly
import Wamux.Runs.Processes
import Wamux.UdsListener.World
import Wamux.UdsListener.Daemon
import Wamux.Proof.UdsListener.Promise
import Wamux.Proof.UdsListener.Calls
import Wamux.Proof.UdsListener.Serve
import Wamux.Proof.UdsListener.Path
import Wamux.Proof.UdsListener.Exclusive
import Wamux.Proof.UdsListener.Sane
import Wamux.Proof.UdsListener.Recovery
import Wamux.Runs.Tally
import Wamux.Requests.Errors
import Wamux.Requests.Observe
import Wamux.Requests.Server
import Wamux.Proof.Requests.Errors
import Wamux.Proof.Requests.Layers
import Wamux.Proof.Requests.Refused
import Wamux.Proof.Requests.Observed
import Wamux.Runs.Parameters
import Wamux.Placeholders.Text
import Wamux.Proof.Placeholders.Rewrite
import Wamux.Proof.Placeholders.Generated
