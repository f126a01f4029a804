import Oecophylla.Label.Permutation
import Oecophylla.Label.Agreement
import Oecophylla.Ingestion.Independence
import Oecophylla.Worker.ExactlyOnce
import Oecophylla.Worker.Concurrent
import Oecophylla.Telemetry.Noninterference
import Oecophylla.Ingestion.Insertable
import Oecophylla.Worker.Flush
import Oecophylla.Auth.Rotation
import Oecophylla.Auth.PasswordChange
import Oecophylla.Interaction.Outbox
import Oecophylla.Notification.Producers
import Oecophylla.Notification.Redelivery
import Oecophylla.Preference.Invariants
import Oecophylla.Recommendation.VectorCache
import Oecophylla.Evaluation.Verdict
import Oecophylla.Content.Embedding
import Oecophylla.Recommendation.BoundedLookup
import Oecophylla.Listing.Complete
import Oecophylla.Notification.UnreadCache
import Oecophylla.Interaction.Counters
import Oecophylla.Content.Revisions
import Oecophylla.Recommendation.RankerLoop
import Oecophylla.Recommendation.OneLabel
import Oecophylla.Listing.Search
import Oecophylla.Feed.Paging
import Oecophylla.Frontend.Visibility
import Oecophylla.Frontend.Sessions
import Oecophylla.Moderation.Resolve
import Oecophylla.Content.Images
import Oecophylla.Frontend.Batches
import Oecophylla.Frontend.Notifications
import Oecophylla.Content.Rebuild
import Oecophylla.Dataset.Usable
import Oecophylla.Ingestion.Accounting
import Oecophylla.Recommendation.DeltaOrder
import Oecophylla.Ranker.Gradient
import Oecophylla.Evaluation.Ndcg
import Oecophylla.Middleware.RateLimit
import Oecophylla.Mind.Readers
import Oecophylla.Frontend.SessionCookies
import Oecophylla.Content.TopicsCheck
import Oecophylla.Ranker.Artifact
import Oecophylla.Notification.Fanout
import Oecophylla.Recommendation.Serve
import Oecophylla.Frontend.ApiFetch
import Oecophylla.Preference.Backfill
import Oecophylla.Feed.Cache
import Oecophylla.Mind.Completion
import Oecophylla.Mind.Blind
