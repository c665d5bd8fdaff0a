import CitationFilter.Main
import CitationFilter.Place.Basic
import CitationFilter.Proofs.Citation.Account
import CitationFilter.Proofs.Citation.Bibliography
import CitationFilter.Proofs.Citation.Choice
import CitationFilter.Proofs.Citation.ClusterIds
import CitationFilter.Proofs.Citation.Consumption
import CitationFilter.Proofs.Citation.Escaping
import CitationFilter.Proofs.Citation.Heading
import CitationFilter.Proofs.Citation.Label
import CitationFilter.Proofs.Citation.Locator
import CitationFilter.Proofs.Citation.Neighbours
import CitationFilter.Proofs.Citation.Places
import CitationFilter.Proofs.Citation.Resolved
import CitationFilter.Proofs.Citation.Search
import CitationFilter.Proofs.Citation.Uncited
import CitationFilter.Proofs.Citation.Unread
import CitationFilter.Proofs.Document.Rereading
import CitationFilter.Proofs.Document.RoundTrip
import CitationFilter.Proofs.Document.Visited
import CitationFilter.Proofs.Document.Wrapping
import CitationFilter.Proofs.Engine.BlankLines
import CitationFilter.Proofs.Engine.Decoding
import CitationFilter.Proofs.Engine.Limit
import CitationFilter.Proofs.Engine.Lookups
import CitationFilter.Proofs.Engine.Messages
import CitationFilter.Proofs.Engine.Results
import CitationFilter.Proofs.Library.Index
import CitationFilter.Proofs.Library.IntegerIds
import CitationFilter.Proofs.Library.Layouts
import CitationFilter.Proofs.Library.Rereading
import CitationFilter.Proofs.Run.AllOrNothing
