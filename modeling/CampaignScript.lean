import CampaignScript.Campaign.Spelling
import CampaignScript.Main
import CampaignScript.Source.Directory
import CampaignScript.Outline.Trail
import CampaignScript.Diagnostic.Excerpt
import CampaignScript.Campaign.Patterns
import CampaignScript.Proofs.Outline.Layout
import CampaignScript.Proofs.Reading.Accounting
import CampaignScript.Proofs.Campaign.Expressible
import CampaignScript.Proofs.Campaign.Identifier
import CampaignScript.Proofs.Campaign.Sentence
import CampaignScript.Proofs.Outline.Line
import CampaignScript.Proofs.Outline.Writing
import CampaignScript.Proofs.Reading.NormalForm
import CampaignScript.Proofs.Reading.Quotation
import CampaignScript.Proofs.Outline.Joining
import CampaignScript.Proofs.Reading.Calls
import CampaignScript.Proofs.Reading.Joining
import CampaignScript.Proofs.Outline.Growth
import CampaignScript.Proofs.Reading.Growth
import CampaignScript.Proofs.Outline.Order
import CampaignScript.Proofs.Reading.Location
import CampaignScript.Proofs.Reading.Reach
import CampaignScript.Proofs.Json.Legible
import CampaignScript.Proofs.Reading.Document
import CampaignScript.Proofs.Outline.Mapping
import CampaignScript.Proofs.Reading.Mapping
import CampaignScript.Proofs.Outline.Spacing
import CampaignScript.Proofs.Reading.Spacing
import CampaignScript.Proofs.Diagnostic.Lines
import CampaignScript.Proofs.Source.Loading
import CampaignScript.Proofs.Command.Report
import CampaignScript.Proofs.Text.Wording
import CampaignScript.Proofs.Campaign.Grammar
import CampaignScript.Proofs.Reading.Grammar
import CampaignScript.Proofs.Text.LetterCase
import CampaignScript.Proofs.Time.WaitTime
import CampaignScript.Proofs.Reading.Waiting
import CampaignScript.Proofs.Reading.Paragraphs
import CampaignScript.Proofs.Text.Separators
import CampaignScript.Proofs.Time.Clock
import CampaignScript.Proofs.Time.Schedule
import CampaignScript.Proofs.Outline.Gaps
import CampaignScript.Proofs.Reading.BlankLines
import CampaignScript.Proofs.Reading.LetterCase
import CampaignScript.Proofs.Outline.Trail
import CampaignScript.Proofs.Diagnostic.Form
import CampaignScript.Proofs.Diagnostic.Excerpt
import CampaignScript.Proofs.Diagnostic.Colour
import CampaignScript.Proofs.Text.Pattern
import CampaignScript.Proofs.Campaign.Patterns
