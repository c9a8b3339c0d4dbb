import MapleRewards.Lib.LabelledRuns
import MapleRewards.Lib.OnePass
import MapleRewards.Lib.SnapshotStore
import MapleRewards.Lib.Rounding
import MapleRewards.Rules
import MapleRewards.Engine
import MapleRewards.Granting
import MapleRewards.Lib.Collection
import MapleRewards.Store
import MapleRewards.Services
import MapleRewards.System
import MapleRewards.WellFormed
import MapleRewards.Payout
import MapleRewards.Period
import MapleRewards.Approval
import MapleRewards.Auth
import MapleRewards.Lib.Processes
import MapleRewards.AuthCalls
import MapleRewards.Tokens
import MapleRewards.SingleUse
import MapleRewards.Session
import MapleRewards.Gateway
import MapleRewards.Achievement
import MapleRewards.AddReward
import MapleRewards.Bystanders
import MapleRewards.Listing
import MapleRewards.Resubmission
import MapleRewards.Lib.Paging
import MapleRewards.PagedQueries
import MapleRewards.Replies
import MapleRewards.FailedCalls
import MapleRewards.EventNames
import MapleRewards.Messages
import MapleRewards.Accounts
import MapleRewards.FinalBonus
import MapleRewards.Credentials
import MapleRewards.Spelling
import MapleRewards.Isolation
import MapleRewards.Serializable
import MapleRewards.EventGrowth
import MapleRewards.Offers
import MapleRewards.Instalments
import MapleRewards.Counters
import MapleRewards.Registration
import MapleRewards.TokenProvenance
import MapleRewards.Lib.Ledgers
import MapleRewards.LedgerRefinement
import MapleRewards.Deployment
import MapleRewards.Conflicts
import MapleRewards.SessionExpiry
import MapleRewards.RequestLog
