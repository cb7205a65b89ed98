import Reconciler.Backoff.RateLimiter
import Reconciler.Json.Reader
import Reconciler.Json.Writer
import Reconciler.LogFormat
import Reconciler.Proofs.Engine.Chain
import Reconciler.Proofs.Engine.Conditions
import Reconciler.Proofs.Engine.Finalizers
import Reconciler.Proofs.Engine.Arming
import Reconciler.Proofs.Engine.Following
import Reconciler.Proofs.Engine.Requeue
import Reconciler.Proofs.Engine.Retry
import Reconciler.Proofs.Engine.Sharing
import Reconciler.Proofs.Engine.StatusConflict
import Reconciler.Proofs.Store.Patched
import Reconciler.Script.Scenario
import Reconciler.Proofs.Engine.Cancellation
import Reconciler.Proofs.Engine.Returns
import Reconciler.Proofs.Engine.Unopposed
import Reconciler.Proofs.Store.Built
import Reconciler.Proofs.Store.Framed
import Reconciler.Proofs.Engine.Frame
import Reconciler.Proofs.Engine.Waiting
import Reconciler.Proofs.Engine.Generations
import Reconciler.Proofs.Engine.Silent
import Reconciler.Proofs.Engine.DryRun
import Reconciler.Proofs.Json.RoundTrip
import Reconciler.Proofs.Engine.Alerts
import Reconciler.Proofs.Engine.Independence
import Reconciler.Proofs.Json.ThreeWay
import Reconciler.Proofs.Object.Exact
import Reconciler.Proofs.Store.History
import Reconciler.Proofs.Backoff.RateLimiter
import Reconciler.Proofs.Json.Algebra
import Reconciler.Proofs.Condition.History
import Reconciler.Proofs.Spread.Draw
import Reconciler.Proofs.Store.Merged
import Reconciler.Proofs.Report.Filter
