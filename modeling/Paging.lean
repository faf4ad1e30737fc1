import Paging.Cache.Remote
import Paging.Column
import Paging.Failure
import Paging.Json.Input
import Paging.Paginator
import Paging.Proofs.Alignment
import Paging.Proofs.Background
import Paging.Proofs.Binding
import Paging.Proofs.Clearing
import Paging.Proofs.Codec
import Paging.Proofs.Coercion
import Paging.Proofs.CountAndFetch
import Paging.Proofs.Discarding
import Paging.Proofs.Noninterference
import Paging.Proofs.Pattern
import Paging.Proofs.Projection
import Paging.Proofs.Recovery
import Paging.Proofs.Repair
import Paging.Proofs.ScanLoop
import Paging.Proofs.Serving
import Paging.Proofs.SharedCount
import Paging.Proofs.SortText
import Paging.Proofs.Spelling
import Paging.Proofs.TimedMap
import Paging.Proofs.Vocabulary
import Paging.Proofs.Walk
import Paging.Proofs.Window
import Paging.Proofs.Writing
import Paging.Sql.Executor
