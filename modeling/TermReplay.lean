import TermReplay.Main
import TermReplay.Playback.BookmarkForm
import TermReplay.Store.CellForm
import TermReplay.Store.CommandForm
import TermReplay.Watch.Log
import TermReplay.Proofs.FreshStart
import TermReplay.Proofs.Mirror
import TermReplay.Proofs.PlaybackPosition
import TermReplay.Proofs.PlaybackTiming
import TermReplay.Proofs.ScrollRegion
import TermReplay.Proofs.SnapshotRoundTrip
import TermReplay.Proofs.TypedLines
import TermReplay.Proofs.GridTable
import TermReplay.Proofs.WaitingBuffers
import TermReplay.Proofs.Announcements
import TermReplay.Proofs.PlaybackClock
import TermReplay.Proofs.RecordingRoundTrip
import TermReplay.Proofs.ScreenSeparation
import TermReplay.Proofs.CursorFollowed
import TermReplay.Proofs.CallsInTurn
import TermReplay.Proofs.RecordingDamage
import TermReplay.Proofs.EncodedText
import TermReplay.Proofs.ParameterLists
import TermReplay.Proofs.TableShifts
import TermReplay.Proofs.Drawing
import TermReplay.Proofs.ScrollConservation
import TermReplay.Proofs.CountedEdits
import TermReplay.Proofs.Erasing
import TermReplay.Proofs.Titles
import TermReplay.Proofs.NextRow
import TermReplay.Proofs.InsertMode
import TermReplay.Proofs.DrawnAndMoved
import TermReplay.Proofs.PositionReports
import TermReplay.Proofs.Arrows
import TermReplay.Proofs.BoundedSaves
import TermReplay.Proofs.HistoryWindow
import TermReplay.Proofs.TickLimit
import TermReplay.Proofs.WithoutWrap
import TermReplay.Proofs.OutgrownSpans
import TermReplay.Proofs.UnknownColours
import TermReplay.Proofs.ReverseVideo
import TermReplay.Proofs.MarginRequests
import TermReplay.Proofs.ReadingProgress
import TermReplay.Proofs.CellCounts
import TermReplay.Proofs.SoleClaims
import TermReplay.Proofs.TabStops
