import KnowTheQuote.Library.Run
import KnowTheQuote.Model.App
import KnowTheQuote.Properties.EditorBounds
import KnowTheQuote.Properties.EditorFlow
import KnowTheQuote.Properties.PlayRun
import KnowTheQuote.Properties.Progress
import KnowTheQuote.Properties.Links
import KnowTheQuote.Properties.Isolation
import KnowTheQuote.Properties.Accounts
import KnowTheQuote.Properties.Delivery
import KnowTheQuote.Properties.UserAgreement
import KnowTheQuote.Properties.PutReports
import KnowTheQuote.Properties.Creation
import KnowTheQuote.Properties.Browsing
import KnowTheQuote.Properties.StoredTexts
import KnowTheQuote.Properties.Finishing
import KnowTheQuote.Properties.Buttons
import KnowTheQuote.Properties.LogInResult
import KnowTheQuote.Properties.QuizLimits
import KnowTheQuote.Properties.PlayStart
import KnowTheQuote.Properties.Representations
import KnowTheQuote.Properties.Scoring
import KnowTheQuote.Properties.QuizDocument
import KnowTheQuote.Properties.DataSteps
import KnowTheQuote.Properties.Durability
import KnowTheQuote.Properties.EditorReach
import KnowTheQuote.Properties.EndToEnd
import KnowTheQuote.Properties.FailedSaves
import KnowTheQuote.Properties.Fleet
import KnowTheQuote.Properties.FleetOrder
import KnowTheQuote.Properties.FleetStores
import KnowTheQuote.Properties.RoundTrips
import KnowTheQuote.Properties.QuizPieces
import KnowTheQuote.Properties.TypedQuotes
import KnowTheQuote.Properties.RowToResults
