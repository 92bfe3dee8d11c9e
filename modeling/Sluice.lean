import Sluice.Client
import Sluice.Plan
import Sluice.Store.Scripted
import Sluice.Proofs.Calendar
import Sluice.Proofs.Rfc3339
import Sluice.Proofs.Moments
import Sluice.Proofs.Sorting
import Sluice.Proofs.Clauses
import Sluice.Proofs.Search
import Sluice.Proofs.Answers
import Sluice.Proofs.Draining
import Sluice.Proofs.OrderedReads
import Sluice.Proofs.AnsweredCounts
import Sluice.Proofs.PushedCounts
import Sluice.Proofs.Predicates
import Sluice.Proofs.SkippedFields
import Sluice.Proofs.Boundaries
import Sluice.Proofs.Plans
import Sluice.Proofs.PushedFilters
import Sluice.Proofs.PushedTails
import Sluice.Proofs.Retries
import Sluice.Proofs.Interruptions
import Sluice.Proofs.Concurrency
import Sluice.Proofs.AcceptedReductions
import Sluice.Proofs.YearlyWidths
import Sluice.Proofs.Removals
import Sluice.Proofs.IntervalText
import Sluice.Proofs.RowKeys
import Sluice.Proofs.WindowTries
import Sluice.Proofs.DeepPaging
import Sluice.Proofs.Overruns
import Sluice.Proofs.PhasedMonths
import Sluice.Proofs.Globs
import Sluice.Proofs.TimeBuckets
import Sluice.Proofs.TimeLevels
import Sluice.Proofs.FilterGrammar
import Sluice.Proofs.NestedCauses
import Sluice.Proofs.PageAccounts
import Sluice.Proofs.MonthFloors
import Sluice.Proofs.Truncation
import Sluice.Proofs.Rounding
import Sluice.Proofs.ValueOrder
