import GmlCheck.Text.Blank
import GmlCheck.Text.DecimalDigit
import GmlCheck.Text.Fold
import GmlCheck.Decimal.Layout
import GmlCheck.Decimal.Literal
import GmlCheck.Json.Printer
import GmlCheck.Json.Parser
import GmlCheck.Version
import GmlCheck.Settings
import GmlCheck.Report.Basic
import GmlCheck.Geometry.Check
import GmlCheck.Schema.Feature
import GmlCheck.Xml.Document
import GmlCheck.Command
import GmlCheck.Main
import GmlCheck.Proofs.Enumeration
import GmlCheck.Proofs.Findings
import GmlCheck.Proofs.Geometry.Conformance
import GmlCheck.Proofs.Closure
import GmlCheck.Proofs.Schema.Relations
import GmlCheck.Proofs.Schema.PropertyShape
import GmlCheck.Proofs.Attempt
import GmlCheck.Proofs.Schema.FeatureVerdict
import GmlCheck.Proofs.Schema.Built
import GmlCheck.Proofs.Schema.Mirror
import GmlCheck.Proofs.Schema.Reordering
import GmlCheck.Proofs.Double
import GmlCheck.Proofs.Geometry.Loosening
import GmlCheck.Proofs.Schema.Failure
import GmlCheck.Proofs.Crs.Abbreviation
import GmlCheck.Proofs.Crs.Registry
import GmlCheck.Proofs.Geometry.Locality
import GmlCheck.Proofs.Command
import GmlCheck.Proofs.Geometry.Remarks
import GmlCheck.Proofs.Geometry.Substitution
import GmlCheck.Proofs.Schema.Run
import GmlCheck.Proofs.Json.Same
import GmlCheck.Proofs.Report.Decoding
import GmlCheck.Proofs.Schema.Chains
import GmlCheck.Proofs.Schema.Reach
import GmlCheck.Proofs.Schema.Strangers
import GmlCheck.Proofs.Geometry.Truncation
import GmlCheck.Proofs.Geometry.Connection
import GmlCheck.Proofs.Geometry.Gaps
import GmlCheck.Proofs.Geometry.Coverage
import GmlCheck.Proofs.Geometry.Corners
import GmlCheck.Proofs.Crs.Grammar
import GmlCheck.Proofs.Geometry.References
import GmlCheck.Proofs.Geometry.Positions
import GmlCheck.Proofs.Geometry.Dimension
import GmlCheck.Proofs.Schema.PropertyParts
import GmlCheck.Proofs.Text.Words
import GmlCheck.Proofs.Geometry.Ordinates
import GmlCheck.Proofs.Geometry.Direction
import GmlCheck.Proofs.Schema.Additions
import GmlCheck.Proofs.Geometry.Content
import GmlCheck.Proofs.Schema.Climb
import GmlCheck.Proofs.QName
