import OrderServices.Library.Runs
import OrderServices.Library.Executions
import OrderServices.Library.Linearization
import OrderServices.Library.SignedWord
import OrderServices.Library.Collector
import OrderServices.Library.Matching
import OrderServices.Library.Tokens
import OrderServices.Library.Joining
import OrderServices.Library.Delivery
import OrderServices.Library.ForkJoin
import OrderServices.Library.Watchdog
import OrderServices.Library.Numerals
import OrderServices.Types
import OrderServices.Json
import OrderServices.Codec
import OrderServices.Serde
import OrderServices.Inventory.Reserve
import OrderServices.Inventory.Atomic
import OrderServices.Inventory.Linearizable
import OrderServices.Inventory.Decrements
import OrderServices.Inventory.Lone
import OrderServices.Inventory.Retries
import OrderServices.Inventory.Sales
import OrderServices.Inventory.Endpoint
import OrderServices.Order.Request
import OrderServices.Order.Grammar
import OrderServices.Order.Pipeline
import OrderServices.Order.Answer
import OrderServices.Order.Arrivals
import OrderServices.Order.Total
import OrderServices.Order.Events
import OrderServices.Order.Machine
import OrderServices.Order.Lifecycle
import OrderServices.Order.Entries
import OrderServices.Order.Verdict
import OrderServices.Order.Body
import OrderServices.Order.Deadline
import OrderServices.Order.Progress
import OrderServices.Analytics.Cycle
import OrderServices.Analytics.Joins
import OrderServices.Analytics.Topic
import OrderServices.Remote
import OrderServices.System
import OrderServices.Accounting
import OrderServices.Platform
import OrderServices.Refinement
import OrderServices.Startup
import OrderServices.Infrastructure
import OrderServices.Config
import OrderServices.Process.Main
import OrderServices.Process.Log
import OrderServices.Process.Shutdown
import OrderServices.Process.Service
import OrderServices.Process.Teardown
import OrderServices.Process.Host
