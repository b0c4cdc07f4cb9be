import DistributedFilesystem.TransitionRuns
import DistributedFilesystem.LockedThreads
import DistributedFilesystem.LockedThreadsFairness
import DistributedFilesystem.FairProgress
import DistributedFilesystem.LockedThreadsAlone
import DistributedFilesystem.ByteContents
import DistributedFilesystem.FileSessions
import DistributedFilesystem.FileStore
import DistributedFilesystem.ServerState
import DistributedFilesystem.ServerHandlers
import DistributedFilesystem.ServerAnnouncements
import DistributedFilesystem.NotificationFanOut
import DistributedFilesystem.SweptMaps
import DistributedFilesystem.HandlerRuns
import DistributedFilesystem.DisconnectCleanup
import DistributedFilesystem.ServerThreads
import DistributedFilesystem.ServerThreadEffects
import DistributedFilesystem.ServerLockDiscipline
import DistributedFilesystem.ServerLockOrder
import DistributedFilesystem.ServerSubscriptions
import DistributedFilesystem.ServerRenameNotification
import DistributedFilesystem.ServerDownloads
import DistributedFilesystem.ServerUploads
import DistributedFilesystem.ServerSharing
import DistributedFilesystem.ServerUploadAtomicity
import DistributedFilesystem.ServerObligations
import DistributedFilesystem.ServerInvalidation
import DistributedFilesystem.ServerPushes
import DistributedFilesystem.ClientState
import DistributedFilesystem.RemoteCalls
import DistributedFilesystem.ClientOperations
import DistributedFilesystem.ClientRename
import DistributedFilesystem.OpenEffects
import DistributedFilesystem.ClientEffects
import DistributedFilesystem.DirectCalls
import DistributedFilesystem.OpenFileNotifications
import DistributedFilesystem.UploadRoundTrip
import DistributedFilesystem.PositionalReads
import DistributedFilesystem.SharedSystem
import DistributedFilesystem.TurnsTaken
import DistributedFilesystem.SequentialSharing
import DistributedFilesystem.SessionSharing
import DistributedFilesystem.InterleavedCalls
import DistributedFilesystem.UninterruptedCalls
import DistributedFilesystem.CacheWatching
import DistributedFilesystem.CacheCoverage
import DistributedFilesystem.CacheRegistration
import DistributedFilesystem.OpenRace
import DistributedFilesystem.OpenRaceInvariant
import DistributedFilesystem.OpenInvalidationRace
import DistributedFilesystem.RenamedPaths
import DistributedFilesystem.ClientEntries
import DistributedFilesystem.ModifiedCopies
import DistributedFilesystem.UploadedEdits
import DistributedFilesystem.OpenFileMutexes
import DistributedFilesystem.LocalCopies
import DistributedFilesystem.RecordedTransfers
import DistributedFilesystem.TransferredCopies
import DistributedFilesystem.AttributeEffects
import DistributedFilesystem.CachedSizes
import DistributedFilesystem.PosixPaths
import DistributedFilesystem.PathKeys
import DistributedFilesystem.ClientThreads
import DistributedFilesystem.ClientLockOrder
import DistributedFilesystem.ConcurrentClose
import DistributedFilesystem.ConcurrentCloseViews
import DistributedFilesystem.ConcurrentCloseSteps
import DistributedFilesystem.ConcurrentCloseRuns
import DistributedFilesystem.FileTree
import DistributedFilesystem.ReportedRenames
import DistributedFilesystem.FuseCallbacks
import DistributedFilesystem.FileTimes
import DistributedFilesystem.CachedTimes
import DistributedFilesystem.WrappedOffsets
import DistributedFilesystem.SharedHandles
import DistributedFilesystem.MountedSessions
import DistributedFilesystem.LocalNodes
import DistributedFilesystem.AttributeLookups
import DistributedFilesystem.AttributeSections
import DistributedFilesystem.ServerSections
import DistributedFilesystem.AttributeCoherence
import DistributedFilesystem.AttributeRuns
import DistributedFilesystem.CallbackPromises
import DistributedFilesystem.CopySections
import DistributedFilesystem.CopyCoherence
import DistributedFilesystem.CopyProtocol
import DistributedFilesystem.CopyRuns
import DistributedFilesystem.FailedDeletions
import DistributedFilesystem.TreeRemovals
import DistributedFilesystem.TreeListings
import DistributedFilesystem.ReportedDeletions
import DistributedFilesystem.DownloadAttempts
import DistributedFilesystem.AbortedUploads
import DistributedFilesystem.FailedCloses
import DistributedFilesystem.OrderedMaps
import DistributedFilesystem.LockstepRekeying
import DistributedFilesystem.FailedRenames
import DistributedFilesystem.EndlessRenames
import DistributedFilesystem.LexicalPaths
import DistributedFilesystem.CacheConfinement
import DistributedFilesystem.DirectoryHandlers
import DistributedFilesystem.ConcurrentDirectories
import DistributedFilesystem.ServerConfinement
import DistributedFilesystem.MisplacedTruncations
import DistributedFilesystem.QueueEffects
import DistributedFilesystem.QueueOwnership
import DistributedFilesystem.SubscribeLoop
import DistributedFilesystem.NotificationStreams
import DistributedFilesystem.NotificationDelivery
import DistributedFilesystem.DashboardRuns
import DistributedFilesystem.DashboardSections
import DistributedFilesystem.DashboardAccuracy
import DistributedFilesystem.DashboardPaths
import DistributedFilesystem.ServerThreadsAlone
import DistributedFilesystem.AtomicHandlers
import DistributedFilesystem.AtomicSaves
