import CitationLocale.Text.Spelling
import CitationLocale.Text.Lowering
import CitationLocale.Json.Numeral
import CitationLocale.Attributes.Merge
import CitationLocale.Attributes.Selection
import CitationLocale.TagName
import CitationLocale.Markup.Token
import CitationLocale.Term.Basic
import CitationLocale.Pattern.Notation
import CitationLocale.TermTable.Ordinal
import CitationLocale.Options
import CitationLocale.Node.Comparison
import CitationLocale.Node.Position
import CitationLocale.Markup.Stream
import CitationLocale.Node.Descent
import CitationLocale.Document.Basic
import CitationLocale.Proofs.TreeRoundTrip
import CitationLocale.Proofs.TableRoundTrip
import CitationLocale.Proofs.OrdinalChoice
import CitationLocale.Proofs.AttributeEdits
import CitationLocale.Proofs.Comparison
import CitationLocale.Proofs.WrittenMarkup
import CitationLocale.Proofs.Creation
import CitationLocale.Proofs.OpenElements
import CitationLocale.Proofs.Registration
import CitationLocale.Proofs.RecordHistory
import CitationLocale.Proofs.Respelling
import CitationLocale.Proofs.Rereading
import CitationLocale.Proofs.OrdinalNames
import CitationLocale.Proofs.TermGrowth
import CitationLocale.Proofs.TermHistory
import CitationLocale.Proofs.RelatedLookups
import CitationLocale.Proofs.OrdinalDigits
import CitationLocale.Proofs.KeptText
import CitationLocale.Proofs.AroundRoot
import CitationLocale.Proofs.Overlay
import CitationLocale.Proofs.Elision
import CitationLocale.Proofs.DocumentOrder
import CitationLocale.Proofs.Chunks
import CitationLocale.Proofs.Lockstep
import CitationLocale.Proofs.WordPlaces
import CitationLocale.Proofs.TagNames
