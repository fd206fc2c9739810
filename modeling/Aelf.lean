import Aelf.Bible.BookLinks
import Aelf.Bible.ChapterContent
import Aelf.Bible.ChapterOrder
import Aelf.Bible.ChapterPage
import Aelf.Bible.IndexCopy
import Aelf.Bible.LinkifyLoop
import Aelf.Bible.PsalmLink
import Aelf.Bible.ReferenceGroups
import Aelf.Bible.Search
import Aelf.Bible.SearchExpression
import Aelf.Components.NetworkStatus
import Aelf.Components.PinchToZoom
import Aelf.Lectures.CacheHistory
import Aelf.Lectures.DateLabels
import Aelf.Lectures.Freshness
import Aelf.Lectures.Loading
import Aelf.Lectures.OfflineStore
import Aelf.Lectures.Region
import Aelf.Lectures.Sharing
import Aelf.Sync.Convergence
import Aelf.Sync.Exclusion
import Aelf.Sync.MetadataJson
import Aelf.Sync.Midnight
import Aelf.Components.WebViews
import Aelf.Lectures.Navigation
import Aelf.Lectures.Slides
import Aelf.Bible.LastPage
import Aelf.Bible.LinkedPage
import Aelf.Lectures.ErrorPage
import Aelf.Lectures.LectureHtml
import Aelf.Bible.IndexUpgrade
import Aelf.Components.NetworkWait
