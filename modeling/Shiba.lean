import Shiba.Aggregate.GroupPage
import Shiba.Distinct.Overflow
import Shiba.Execution.ContinuationCodecs
import Shiba.Join.Counts
import Shiba.Join.EquiKeys
import Shiba.Join.Invisible
import Shiba.Join.Produced
import Shiba.Join.StepRuns
import Shiba.Linear.Progress
import Shiba.Planner.LimitFolding
import Shiba.Planner.Sound
import Shiba.Publication.Collection
import Shiba.Publication.ExactlyOnce
import Shiba.Replication.Codec
import Shiba.Runtime.ActiveFeed
import Shiba.Runtime.Fairness
import Shiba.Runtime.FeedbackSafe
import Shiba.Runtime.LaunchProtocol
import Shiba.Runtime.LruRefines
import Shiba.Runtime.Quantum
import Shiba.Sink.Exact
import Shiba.Sink.PagingExact
import Shiba.Stream.Release
import Shiba.TopN.SelectionExact
import Shiba.Window.Diff
import Shiba.Window.FoldExact
import Shiba.Window.FrameDenotes
import Shiba.Window.NtileRuns
import Shiba.Runtime.Pipeline
