import Gapura.Core.StoreCatchAll
import Gapura.Control.PathReach
import Gapura.Control.HostClaims
import Gapura.Proxy.Caller
import Gapura.Proxy.KeyHidden
import Gapura.Proxy.CallerHeaders
import Gapura.Core.PathCanonical
import Gapura.Control.Isolation
import Gapura.Control.ConsoleView
import Gapura.Core.Translate.PathValues
import Gapura.Core.Translate.Consented
import Gapura.Proxy.RetryAfter
import Gapura.Core.Translate.Shortcut
import Gapura.Core.Translate.ResolvedRefs
import Gapura.Control.GrantRace
import Gapura.Source.Election
import Gapura.Control.ThrottleBounds
import Gapura.Source.DiskCache
import Gapura.Control.Rows
import Gapura.Proxy.ClientAddress
import Gapura.Control.Networks
import Gapura.Proxy.Fairness
import Gapura.Proxy.OutlierMachine
import Gapura.Proxy.PathRewrite
import Gapura.Proxy.QueryMeaning
import Gapura.Core.Duration
import Gapura.Control.CorsOrigins
import Gapura.Proxy.BodyCap
import Gapura.Source.Outage
import Gapura.Source.KeyRounds
import Gapura.Telemetry.QueueBooks
import Gapura.Telemetry.Wakeups
import Gapura.Control.HeldPoll
import Gapura.Control.AuditPages
import Gapura.Source.StatusMerge
import Gapura.Source.StatusPatches
import Gapura.Source.WatchedSnapshot
import Gapura.Proxy.RowOrder
import Gapura.Source.ReconcileRuns
import Gapura.Source.StatusFeedback
