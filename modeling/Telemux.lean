import Telemux.Interaction.Contract
import Telemux.Reconcile.Planner
import Telemux.TelemtSync.Plan
import Telemux.TelemtSync.Convergence
import Telemux.TelemtSync.Guard
import Telemux.TelemtSync.Respelling
import Telemux.Net.Json
import Telemux.Net.Url
import Telemux.SelfUpdate.ChecksumGrammar
import Telemux.SelfUpdate.Concurrent
import Telemux.Server.Cutoff
import Telemux.Server.Expiration
import Telemux.Server.JoinTokens
import Telemux.Server.Paging
import Telemux.Server.Registry
import Telemux.Server.Renew
import Telemux.Server.Routes
import Telemux.Server.Sessions
import Telemux.Store.Users
import Telemux.Sync.Attempts
import Telemux.Sync.FaithfulNode
import Telemux.Sync.Frame
import Telemux.Sync.InSync
import Telemux.Sync.LastUser
import Telemux.Sync.Revocation
import Telemux.Sync.Secrets
import Telemux.Sync.Undisturbed
import Telemux.Telemt.Addressing
import Telemux.Telemt.Classification
import Telemux.Telemt.Cutoff
import Telemux.Telemt.Lock
import Telemux.Telemt.Machine
import Telemux.Telemt.Objects
import Telemux.Telemt.Refinement
import Telemux.Cli.Outcome
import Telemux.Server.Status
import Telemux.Server.Progress
