import Meetkit.Abstract.Books
import Meetkit.Abstract.View
import Meetkit.Lib.Aging
import Meetkit.Lib.Channel
import Meetkit.Lib.Fields
import Meetkit.Lib.Gauge
import Meetkit.Lib.GoMap
import Meetkit.Lib.Locking
import Meetkit.Lib.Machine
import Meetkit.Lib.Query
import Meetkit.Lib.Reader
import Meetkit.Lib.Slice
import Meetkit.Lib.Tally
import Meetkit.Lib.Text
import Meetkit.Lib.Url
import Meetkit.Lib.Window
import Meetkit.Model.Accounts
import Meetkit.Model.Admin
import Meetkit.Model.AdminPage
import Meetkit.Model.Announce
import Meetkit.Model.AuditLog
import Meetkit.Model.Client
import Meetkit.Model.Dashboard
import Meetkit.Model.Entry
import Meetkit.Model.Exits
import Meetkit.Model.ForceKick
import Meetkit.Model.HookCache
import Meetkit.Model.HostStats
import Meetkit.Model.LockOrder
import Meetkit.Model.MediaToggle
import Meetkit.Model.MeetingPage
import Meetkit.Model.MemberTiles
import Meetkit.Model.Message
import Meetkit.Model.Observe
import Meetkit.Model.ObserveAccess
import Meetkit.Model.ObserveSession
import Meetkit.Model.PlayPage
import Meetkit.Model.Playback
import Meetkit.Model.ProcFiles
import Meetkit.Model.Proxy
import Meetkit.Model.Queues
import Meetkit.Model.RecordURL
import Meetkit.Model.Room
import Meetkit.Model.Roster
import Meetkit.Model.Server
import Meetkit.Model.Sessions
import Meetkit.Model.Signaling
import Meetkit.Model.State
import Meetkit.Model.Stats
import Meetkit.Model.StatsJSON
import Meetkit.Model.Threads
import Meetkit.Model.TileSessions
import Meetkit.Model.WatchWall
import Meetkit.Model.World
import Meetkit.Model.ZlmRequests
import Meetkit.Proofs.Accounts
import Meetkit.Proofs.Admission
import Meetkit.Proofs.Alone
import Meetkit.Proofs.Announce
import Meetkit.Proofs.AuditLog
import Meetkit.Proofs.Business
import Meetkit.Proofs.Carousel
import Meetkit.Proofs.Chat
import Meetkit.Proofs.Dashboard
import Meetkit.Proofs.Debounce
import Meetkit.Proofs.Deeds
import Meetkit.Proofs.DelayedClose
import Meetkit.Proofs.Departure
import Meetkit.Proofs.Entry
import Meetkit.Proofs.EntryPrivacy
import Meetkit.Proofs.ExitSteps
import Meetkit.Proofs.Exits
import Meetkit.Proofs.Failure
import Meetkit.Proofs.ForceKick
import Meetkit.Proofs.Handled
import Meetkit.Proofs.HookCache
import Meetkit.Proofs.HostStats
import Meetkit.Proofs.Invariant
import Meetkit.Proofs.Invisible
import Meetkit.Proofs.Ledger
import Meetkit.Proofs.LockOrder
import Meetkit.Proofs.Log
import Meetkit.Proofs.MediaState
import Meetkit.Proofs.MediaToggle
import Meetkit.Proofs.MeetingPage
import Meetkit.Proofs.MemberList
import Meetkit.Proofs.MemberTiles
import Meetkit.Proofs.ObserveAccess
import Meetkit.Proofs.ObserveSession
import Meetkit.Proofs.Observers
import Meetkit.Proofs.Orphans
import Meetkit.Proofs.Ownership
import Meetkit.Proofs.Pins
import Meetkit.Proofs.PlayPage
import Meetkit.Proofs.Playback
import Meetkit.Proofs.Proxy
import Meetkit.Proofs.PullSteps
import Meetkit.Proofs.PushPull
import Meetkit.Proofs.Queues
import Meetkit.Proofs.Quiet
import Meetkit.Proofs.RecordURL
import Meetkit.Proofs.Recording
import Meetkit.Proofs.Rejoin
import Meetkit.Proofs.Replies
import Meetkit.Proofs.Republish
import Meetkit.Proofs.Revocation
import Meetkit.Proofs.Roster
import Meetkit.Proofs.Runs
import Meetkit.Proofs.Sessions
import Meetkit.Proofs.Signaling
import Meetkit.Proofs.Tenants
import Meetkit.Proofs.Threads
import Meetkit.Proofs.TileSessions
import Meetkit.Proofs.TileStarts
import Meetkit.Proofs.TileStops
import Meetkit.Proofs.Turn
import Meetkit.Proofs.TwinSteps
import Meetkit.Proofs.Twins
import Meetkit.Proofs.Views
import Meetkit.Proofs.WatchSlots
import Meetkit.Proofs.WatchWall
import Meetkit.Proofs.Watchers
import Meetkit.Proofs.WellFormed
import Meetkit.Proofs.ZlmRequests
import Meetkit.Proofs.ProcFiles
import Meetkit.Model.WatchOffers
import Meetkit.Proofs.WatchOffers
import Meetkit.Abstract.Feed
import Meetkit.Model.PeerTiles
import Meetkit.Proofs.PeerTiles
import Meetkit.Proofs.RoomFeed
import Meetkit.Proofs.TilePage
import Meetkit.Lib.Html
import Meetkit.Model.MemberTable
import Meetkit.Proofs.MemberTable
