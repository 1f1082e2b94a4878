import MarketplaceApi.Transition.Run
import MarketplaceApi.Txn.Program
import MarketplaceApi.Txn.Interleaving
import MarketplaceApi.Txn.Rely
import MarketplaceApi.Txn.Waiting
import MarketplaceApi.Account.Tables
import MarketplaceApi.Account.Handlers
import MarketplaceApi.Account.Isolation
import MarketplaceApi.Account.Commit
import MarketplaceApi.Account.Ledger
import MarketplaceApi.Account.Inbox
import MarketplaceApi.Account.Charging
import MarketplaceApi.Account.Reply
import MarketplaceApi.Stock.Tables
import MarketplaceApi.Stock.Handlers
import MarketplaceApi.Stock.Isolation
import MarketplaceApi.Stock.Commit
import MarketplaceApi.Stock.Representation
import MarketplaceApi.Stock.Decision
import MarketplaceApi.Stock.Holding
import MarketplaceApi.Stock.Replies
import MarketplaceApi.Stock.Verdict
import MarketplaceApi.Stock.LockOrder
import MarketplaceApi.Identity.Tables
import MarketplaceApi.Identity.Handlers
import MarketplaceApi.Identity.Isolation
import MarketplaceApi.Identity.Commit
import MarketplaceApi.Identity.Revocation
import MarketplaceApi.Identity.Rotation
import MarketplaceApi.Money.Decimal
import MarketplaceApi.Messaging.Gateway
import MarketplaceApi.Text.Digits
import MarketplaceApi.Placement.Tables
import MarketplaceApi.Placement.Place
import MarketplaceApi.Placement.Requests
import MarketplaceApi.Placement.Marking
import MarketplaceApi.Placement.Isolation
import MarketplaceApi.Placement.Status
import MarketplaceApi.Placement.Idempotency
import MarketplaceApi.Placement.OneOrder
import MarketplaceApi.Outbox.Table
import MarketplaceApi.Outbox.Relay
import MarketplaceApi.Outbox.Safety
import MarketplaceApi.Outbox.Services
import MarketplaceApi.Outbox.Ordering
import MarketplaceApi.Durable.Flow
import MarketplaceApi.Placement.Workflow
import MarketplaceApi.Placement.Cancellation
import MarketplaceApi.Durable.Delivery
import MarketplaceApi.Placement.Saga
import MarketplaceApi.Placement.Pricing
import MarketplaceApi.Placement.MoneyPhase
import MarketplaceApi.Placement.MoneySafety
import MarketplaceApi.Placement.StockPhase
import MarketplaceApi.Placement.StockSafety
import MarketplaceApi.Json.Value
import MarketplaceApi.Notify.Service
import MarketplaceApi.Notify.Stream
import MarketplaceApi.Notify.Wiring
import MarketplaceApi.Notify.Delivery
import MarketplaceApi.Notify.Gateway
import MarketplaceApi.Notify.Resume
import MarketplaceApi.Notify.Handover
import MarketplaceApi.Notify.Feed
import MarketplaceApi.Notify.Onward
import MarketplaceApi.Provisioning.Users
import MarketplaceApi.Provisioning.Creation
import MarketplaceApi.Provisioning.Buyers
import MarketplaceApi.Provisioning.Delivery
import MarketplaceApi.Provisioning.Once
import MarketplaceApi.RateLimit.Window
import MarketplaceApi.RateLimit.Throttler
import MarketplaceApi.RateLimit.Exact
import MarketplaceApi.Cache.Service
import MarketplaceApi.Cache.Lock
import MarketplaceApi.Cache.Exclusion
import MarketplaceApi.Cache.OneLoad
import MarketplaceApi.Cache.Eviction
import MarketplaceApi.Auth.Token
import MarketplaceApi.Reload.Reads
import MarketplaceApi.Auth.Keys
import MarketplaceApi.Auth.Pods
import MarketplaceApi.Auth.Rotation
import MarketplaceApi.Auth.Seamless
import MarketplaceApi.Notify.Registry
import MarketplaceApi.Vault.Service
import MarketplaceApi.Vault.Session
import MarketplaceApi.Vault.Outage
import MarketplaceApi.Sql.Table
import MarketplaceApi.Sql.Write
import MarketplaceApi.Migrations.Columns
import MarketplaceApi.Migrations.Split
import MarketplaceApi.Migrations.SplitSteps
import MarketplaceApi.Migrations.SplitOffers
import MarketplaceApi.Migrations.SplitSellers
import MarketplaceApi.Migrations.SplitLaw
import MarketplaceApi.Migrations.Contact
import MarketplaceApi.Migrations.ContactFacts
import MarketplaceApi.Migrations.ContactUp
import MarketplaceApi.Migrations.ContactLogin
import MarketplaceApi.Migrations.ContactLoginDown
import MarketplaceApi.Migrations.ContactDown
import MarketplaceApi.Migrations.ContactLaw
import MarketplaceApi.Txn.Rows
import MarketplaceApi.SignIn.Tables
import MarketplaceApi.SignIn.Handlers
import MarketplaceApi.SignIn.Commit
import MarketplaceApi.SignIn.Attempts
import MarketplaceApi.SignIn.Sound
import MarketplaceApi.SignIn.Bindings
import MarketplaceApi.SignIn.Takeover
import MarketplaceApi.Denylist.Service
import MarketplaceApi.Denylist.Revoked
import MarketplaceApi.Denylist.Logout
import MarketplaceApi.SignIn.Registration
import MarketplaceApi.SignIn.Announced
import MarketplaceApi.Kafka.Consumer
import MarketplaceApi.Kafka.Delivery
import MarketplaceApi.Provisioning.Subscriptions
import MarketplaceApi.Kafka.Progress
import MarketplaceApi.Provisioning.Pipeline
import MarketplaceApi.Provisioning.Reach
import MarketplaceApi.Db.Retry
import MarketplaceApi.Db.Effects
import MarketplaceApi.Cache.Readable
import MarketplaceApi.SignIn.Exchange
import MarketplaceApi.SignIn.Accounts
import MarketplaceApi.SignIn.Downstream
