import Microservices.Gateway.BodySize
import Microservices.Gateway.IdentityHeaders
import Microservices.Gateway.SingleProbe
import Microservices.Gateway.Paths
import Microservices.Lib.Expiring
import Microservices.Lib.Hex
import Microservices.Lib.Uuid
import Microservices.Users.Lockout
import Microservices.Users.LockoutBound
import Microservices.Lib.Effects
import Microservices.Users.TokenFaults
import Microservices.Lib.Datetime
import Microservices.Tasks.Model
import Microservices.Tasks.CreatesOnce
import Microservices.Tasks.Patch
import Microservices.Tasks.Transitions
import Microservices.Lib.Isoformat
import Microservices.Lib.Keyset
import Microservices.Lib.Json
import Microservices.Tasks.Pagination
import Microservices.Tasks.Listing
import Microservices.Tasks.Traversal
import Microservices.Gateway.BreakerHistory
import Microservices.Gateway.BreakerEdges
import Microservices.Gateway.SsePath
import Microservices.Lib.Recency
import Microservices.Lib.SlidingWindow
import Microservices.Gateway.RateStores
import Microservices.Gateway.RateLimiter
import Microservices.Gateway.StoresAgree
import Microservices.Gateway.WindowSafe
import Microservices.Gateway.OutageBound
import Microservices.Gateway.JwtAuth
import Microservices.Gateway.Stack
import Microservices.Gateway.Charged
import Microservices.Gateway.Hardened
import Microservices.Lib.Table
import Microservices.Tasks.Requests
import Microservices.Tasks.Isolation
import Microservices.Tasks.ProjectRequests
import Microservices.Gateway.Preflight
import Microservices.Users.LoginFaults
import Microservices.Users.SingleUse
import Microservices.Users.LockoutWindow
import Microservices.Users.OpaqueTokens
import Microservices.Users.Mail
import Microservices.Users.Enumeration
import Microservices.Users.Accounts
import Microservices.Users.LastAdmin
import Microservices.Users.Minting
import Microservices.Users.Revocation
import Microservices.Users.PlainJwt
import Microservices.Gateway.KeyringText
import Microservices.Gateway.WeakKeys
import Microservices.Users.Rotation
import Microservices.Users.Registration
import Microservices.Identity.Verifier
import Microservices.Lib.Trim
import Microservices.Gateway.Journey
import Microservices.Lib.Spans
import Microservices.Tasks.Schemas
import Microservices.Tasks.Markup
import Microservices.Lib.Sql
import Microservices.Tasks.Migrations
import Microservices.Lib.JsonText
import Microservices.Tasks.ReplayStore
import Microservices.Tasks.Replays
import Microservices.Tasks.SwitchedOff
import Microservices.Tasks.Pages
import Microservices.Notifications.Consumer
import Microservices.Notifications.Settlement
import Microservices.Notifications.Recipients
import Microservices.Lib.Mailbox
import Microservices.Notifications.Broadcaster
import Microservices.Notifications.Delivery
import Microservices.Tasks.Publishing
import Microservices.Gateway.RequestIds
import Microservices.Gateway.Relay
import Microservices.Gateway.UserBudgets
import Microservices.Tasks.Ownership
import Microservices.Tasks.SoftDeletion
import Microservices.Chaos.Actions
import Microservices.Chaos.Scenario
import Microservices.Chaos.Populated
import Microservices.Chaos.HalfStarted
import Microservices.Chaos.Queue
import Microservices.Chaos.Metrics
import Microservices.Tasks.Resend
import Microservices.Chaos.ActionLock
import Microservices.Notifications.Registry
import Microservices.Chaos.EventHub
import Microservices.Lib.EventStream
import Microservices.EventStreams
import Microservices.Gateway.Accounting
import Microservices.Gateway.ResetHeader
import Microservices.Users.UniqueColumns
import Microservices.Chaos.Recovery
import Microservices.Chaos.Overlap
import Microservices.Users.Passwords
import Microservices.Users.ChosenPassword
import Microservices.Lib.Paging
import Microservices.Users.AdminListing
import Microservices.Lib.Projection
import Microservices.Gateway.Registry
import Microservices.Gateway.Retries
import Microservices.Lib.History
import Microservices.Users.Service
import Microservices.Users.Writes
import Microservices.Users.StoredTokens
import Microservices.Users.Authority
import Microservices.Users.Sessions
import Microservices.Users.Privileges
import Microservices.Tasks.Outcomes
import Microservices.Tasks.Separation
import Microservices.Tasks.Replica
import Microservices.Notifications.Pipeline
import Microservices.Tasks.SenderLeaks
import Microservices.Gateway.WhatRemains
import Microservices.Tasks.Impersonation
