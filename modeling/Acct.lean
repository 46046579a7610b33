import Acct.Main.Equiv.BomExplosion
import Acct.Main.Equiv.DocumentOnce
import Acct.Main.Equiv.FifoCost
import Acct.Main.Equiv.OverPromise
import Acct.Main.Equiv.ThreeWayMatch
import Acct.Main.Equiv.WacPools
import Acct.Main.Equiv.WoOutputs
import Acct.Main.Equiv.WorkOrder
import Acct.V21.Equiv.CallerCheck
import Acct.V3.Routed.Affinity
import Acct.V3.Routed.Arena
import Acct.V3.Routed.QueuePlaces
import Acct.V31.Oracle.Equiv.Envelope
import Acct.V32.Core.Equiv.StrictUnits
import Acct.V32.Direct.Equiv.Escalation
import Acct.V32.Direct.Equiv.Submit
import Acct.V32.Equiv.Backpressure
import Acct.V32.Equiv.Chain
import Acct.V32.Equiv.Drain
import Acct.V32.Equiv.Fence
import Acct.V32.Equiv.Ledger
import Acct.V32.Equiv.Linkage
import Acct.V32.Equiv.Schedule
import Acct.V32.Equiv.Standard
import Acct.V32.Equiv.Wac
import Acct.V32.Equiv.WacPaths
import Acct.V32.Feed.Equiv.Ingest
import Acct.V32.Feed.Equiv.Pgoutput
