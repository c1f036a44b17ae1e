import DeltaFeedback.Web.Sha256.LeadingZeros
import DeltaFeedback.Web.Sha256.Digest
import DeltaFeedback.Pow.Base64.Overflow
import DeltaFeedback.Pow.Challenge.Numerals
import DeltaFeedback.Feedback.Notification.Quoted
import DeltaFeedback.Feedback.Validator.Theorems
import DeltaFeedback.Feedback.Service.Tokens
import DeltaFeedback.Dc.Admin.Grammar
import DeltaFeedback.Server.RateLimit.Bound
import DeltaFeedback.Server.Http.Theorems
import DeltaFeedback.Server.Static.Contained
import DeltaFeedback.Server.Static.Cache
import DeltaFeedback.Main.Restarts
import DeltaFeedback.Main.Register
import DeltaFeedback.Server.ReadToken
import DeltaFeedback.Polling.Theorems
import DeltaFeedback.Concurrency.Replay
import DeltaFeedback.Sequential.Replay
import DeltaFeedback.System.Renewal
import DeltaFeedback.Concurrency.Closed
import DeltaFeedback.Concurrency.Retention
import DeltaFeedback.System.Posts
import DeltaFeedback.System.Tokens
import DeltaFeedback.Sequential.Owner
import DeltaFeedback.Server.Orphans
import DeltaFeedback.Pow.Challenge.Malleable
import DeltaFeedback.Web.Sha256.FindNonce
import DeltaFeedback.Sequential.Threading
import DeltaFeedback.Concurrency.Rowid
import DeltaFeedback.Concurrency.Answers
