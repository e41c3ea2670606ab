import NexusLb.Basic
import NexusLb.Drr.Route
import NexusLb.Drr.Invariant
import NexusLb.Drr.Fairness
import NexusLb.Drr.Quantum
import NexusLb.Drr.Update
import NexusLb.Dispatcher.Core
import NexusLb.Dispatcher.Frame
import NexusLb.Dispatcher.Announce
import NexusLb.Dispatcher.Loading
import NexusLb.Dispatcher.Routes
import NexusLb.Dispatcher.Tables
import NexusLb.Dispatcher.Plans
import NexusLb.Dispatcher.Bypass
import NexusLb.Dispatcher.Delayed
import NexusLb.Scheduler.Delegate
import NexusLb.Scheduler.Core
import NexusLb.Scheduler.Membership
import NexusLb.Scheduler.Epoch
import NexusLb.Scheduler.Rates
import NexusLb.Scheduler.Frame
import NexusLb.Scheduler.Weights
import NexusLb.Scheduler.JoinLeave
import NexusLb.Scheduler.Subscriptions
import NexusLb.Scheduler.History
import NexusLb.Scheduler.Admission
import NexusLb.Scheduler.Demand
import NexusLb.Scheduler.Departure
import NexusLb.Scheduler.Quiet
import NexusLb.Scheduler.Propagation
import NexusLb.Scheduler.Visit
import NexusLb.Scheduler.Mirror
import NexusLb.Scheduler.Pinned
