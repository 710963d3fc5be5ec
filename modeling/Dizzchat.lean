import Dizzchat.Transition.Run
import Dizzchat.Transition.History
import Dizzchat.Transition.Table
import Dizzchat.Transition.RowSet
import Dizzchat.Transition.ReadModifyWrite
import Dizzchat.Identity.RefreshRotation
import Dizzchat.Identity.RefreshChains
import Dizzchat.Messaging.Lifecycle
import Dizzchat.Messaging.DuplicateSend
import Dizzchat.Messaging.ExchangeOutcome
import Dizzchat.Messaging.Acknowledged
import Dizzchat.Messaging.ReplayMessages
import Dizzchat.Messaging.UseCases
import Dizzchat.Messaging.Workspace
import Dizzchat.Messaging.Ownership
import Dizzchat.Messaging.Posting
import Dizzchat.Messaging.Revocation
import Dizzchat.Messaging.Frozen
import Dizzchat.Messaging.Store
import Dizzchat.Messaging.Serial
import Dizzchat.Messaging.Refinement
import Dizzchat.Messaging.Authorization
import Dizzchat.Messaging.SoftDelete
import Dizzchat.Messaging.Walks
import Dizzchat.Realtime.Presence
import Dizzchat.Realtime.Holes
import Dizzchat.Realtime.CatchUp
import Dizzchat.Realtime.FanOut
import Dizzchat.Realtime.Served
import Dizzchat.Realtime.NoPhantom
import Dizzchat.Realtime.Gateway
import Dizzchat.Realtime.Isolation
import Dizzchat.Shared.Uuid
import Dizzchat.Realtime.RateLimiter
import Dizzchat.Text.Json
import Dizzchat.Shared.Isoformat
import Dizzchat.Messaging.MessageModel
import Dizzchat.Realtime.LiveReplay
import Dizzchat.Realtime.Quota
import Dizzchat.Realtime.TokenExpiry
import Dizzchat.Realtime.Awaits
import Dizzchat.Realtime.Drain
import Dizzchat.Realtime.Writes
import Dizzchat.Realtime.Shutdown
import Dizzchat.Transition.CheckThenInsert
import Dizzchat.Messaging.ConcurrentInvites
import Dizzchat.Identity.User
import Dizzchat.Identity.SignUps
import Dizzchat.Messaging.Cursors
import Dizzchat.Realtime.WindowSeconds
import Dizzchat.Messaging.Listing
import Dizzchat.Shared.TransactionalRoute
import Dizzchat.Realtime.DeadSockets
import Dizzchat.Identity.AccessToken
import Dizzchat.Identity.Accounts
import Dizzchat.Identity.Authentication
import Dizzchat.Api.Histories
import Dizzchat.Api.Disclosure
import Dizzchat.Api.ServerErrors
import Dizzchat.Relational.Schema
import Dizzchat.Relational.Validity
import Dizzchat.Relational.Script
import Dizzchat.Persistence.Revisions
import Dizzchat.Persistence.Migrations
import Dizzchat.Persistence.Memberships
