import GaussMatrix.Rooms.Aliases
import GaussMatrix.StateRes.Transparency
import GaussMatrix.StateRes.Convergence
import GaussMatrix.StateRes.PowerDispute
import GaussMatrix.Rooms.StateCache
import GaussMatrix.Rooms.Extremities
import GaussMatrix.Rooms.FetchAuth
import GaussMatrix.Rooms.FetchPrev
import GaussMatrix.Utils.Intersection
import GaussMatrix.Utils.TwoPhaseCounter
import GaussMatrix.Rooms.Short
import GaussMatrix.Rooms.StateRestart
import GaussMatrix.Rooms.AuthChainHistory
import GaussMatrix.Rooms.Resolve
import GaussMatrix.Agent.ApprovalScope
import GaussMatrix.Audit.Concurrent
import GaussMatrix.Fed.Drains
import GaussMatrix.Rooms.Timeline
import GaussMatrix.Shard.Ring
import GaussMatrix.Agent.ConcurrentLimit
import GaussMatrix.Agent.Privileges
import GaussMatrix.Client.UiaaFlows
import GaussMatrix.Users.OneTimeKeys
import GaussMatrix.Users.Tokens
import GaussMatrix.Sending.Transactions
import GaussMatrix.Sending.Watermark
import GaussMatrix.StateRes.MainlineOrder
import GaussMatrix.StateRes.CacheHistory
import GaussMatrix.StateRes.Bootstrap
import GaussMatrix.Rooms.SortsAgree
import GaussMatrix.Rooms.DeleteRoom
import GaussMatrix.Users.RegistrationTokens
import GaussMatrix.Users.KeyBackups
import GaussMatrix.Resolver.Actual
import GaussMatrix.Agent.GrantEdits
import GaussMatrix.Client.SlidingWindow
import GaussMatrix.Fed.Health
import GaussMatrix.Client.ClientIp
import GaussMatrix.Client.Selector
import GaussMatrix.Presence.Aggregate
import GaussMatrix.Client.Connections
import GaussMatrix.Rooms.Typing
import GaussMatrix.Fed.Notary
import GaussMatrix.Store.InviteVia
