import GroupCoordination.Properties.AddOperations
import GroupCoordination.Properties.Anchors
import GroupCoordination.Properties.Attempts
import GroupCoordination.Properties.Authorisation
import GroupCoordination.Properties.BlindReplicas
import GroupCoordination.Properties.Clocks
import GroupCoordination.Properties.Duplicates
import GroupCoordination.Properties.ExactlyOnce
import GroupCoordination.Properties.ExportedEpochs
import GroupCoordination.Properties.Failover
import GroupCoordination.Properties.InviteStatuses
import GroupCoordination.Properties.Lineage
import GroupCoordination.Properties.Listing
import GroupCoordination.Properties.LogTypes
import GroupCoordination.Properties.Messages
import GroupCoordination.Properties.Mirrors
import GroupCoordination.Properties.PendingRefs
import GroupCoordination.Properties.OfflineLog
import GroupCoordination.Properties.PullCursor
import GroupCoordination.Properties.Purge
import GroupCoordination.Properties.RefusedBranches
import GroupCoordination.Properties.Rejoin
import GroupCoordination.Properties.Reopening
import GroupCoordination.Properties.ReplicaMerges
import GroupCoordination.Properties.ReplicaRequests
import GroupCoordination.Properties.Retention
import GroupCoordination.Properties.Retries
import GroupCoordination.Properties.Rotation
import GroupCoordination.Properties.SelfRemoval
import GroupCoordination.Properties.StateUpdates
import GroupCoordination.Properties.Takeover
import GroupCoordination.Properties.Timeline
import GroupCoordination.Properties.ViewTraces
import GroupCoordination.Properties.Waiting
import GroupCoordination.Properties.WelcomeAnchor
import GroupCoordination.Properties.Supersession
