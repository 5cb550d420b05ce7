import ImageRecipe.Bytes.Base64
import ImageRecipe.Bytes.Bits
import ImageRecipe.Bytes.Checksum
import ImageRecipe.Bytes.Deflate
import ImageRecipe.Bytes.PrefixCode
import ImageRecipe.Bytes.Zlib
import ImageRecipe.Decimal.Binary
import ImageRecipe.Decimal.Reading
import ImageRecipe.Decimal.Shortest
import ImageRecipe.Dialect.Detection
import ImageRecipe.Dialect.DrawThings
import ImageRecipe.Dialect.DreamStudio
import ImageRecipe.Dialect.EmbeddedWorkflow
import ImageRecipe.Dialect.Extraction
import ImageRecipe.Dialect.Gleaning
import ImageRecipe.Dialect.Hosted
import ImageRecipe.Dialect.Invoke
import ImageRecipe.Dialect.Loose
import ImageRecipe.Dialect.Options
import ImageRecipe.Dialect.ParameterText
import ImageRecipe.Dialect.ParameterText.LoraTag
import ImageRecipe.Dialect.ParameterText.Settings
import ImageRecipe.Dialect.PromptLine
import ImageRecipe.Dialect.Swarm
import ImageRecipe.Fault
import ImageRecipe.Image.Chunks
import ImageRecipe.Image.Content
import ImageRecipe.Image.Exif
import ImageRecipe.Image.Jpeg
import ImageRecipe.Image.Kind
import ImageRecipe.Image.Png
import ImageRecipe.Image.Tags
import ImageRecipe.Json.Basic
import ImageRecipe.Json.Fields
import ImageRecipe.Json.Number
import ImageRecipe.Json.Parser
import ImageRecipe.Json.Printer
import ImageRecipe.Json.Scalar
import ImageRecipe.NodeLibrary.Builtin
import ImageRecipe.NodeLibrary.Catalogue.Images
import ImageRecipe.NodeLibrary.Catalogue.Models
import ImageRecipe.NodeLibrary.Catalogue.Sampling
import ImageRecipe.NodeLibrary.Catalogue.Texts
import ImageRecipe.NodeLibrary.Catalogue.Wiring
import ImageRecipe.NodeLibrary.Definition
import ImageRecipe.NodeLibrary.Param
import ImageRecipe.Payload
import ImageRecipe.Reader
import ImageRecipe.Recipe.Basic
import ImageRecipe.Recipe.Facts
import ImageRecipe.Recipe.Family
import ImageRecipe.Recipe.Normal
import ImageRecipe.Settings
import ImageRecipe.Settings.Document
import ImageRecipe.Sidecar
import ImageRecipe.Text.Blank
import ImageRecipe.Text.Class
import ImageRecipe.Text.Encoding
import ImageRecipe.Text.Numeral
import ImageRecipe.Text.Pattern
import ImageRecipe.Text.Search
import ImageRecipe.Text.Size
import ImageRecipe.TextMap
import ImageRecipe.Toml.Document
import ImageRecipe.Toml.Scalar
import ImageRecipe.Toml.Table
import ImageRecipe.Toml.Text
import ImageRecipe.Tracing.Interpretation
import ImageRecipe.Tracing.Plan
import ImageRecipe.Tracing.Sinks
import ImageRecipe.Tracing.Walk
import ImageRecipe.Workflow.Forms
import ImageRecipe.Workflow.Graph
import ImageRecipe.Workflow.Listing
import ImageRecipe.Workflow.Node
import ImageRecipe.Workflow.Saved
import ImageRecipe.Workflow.Seed
import ImageRecipe.Workflow.Store
import ImageRecipe.Xml.Attribute
import ImageRecipe.Xml.Entity
import ImageRecipe.Xml.Property
import ImageRecipe.Xml.Token
import ImageRecipe.Proofs.AuthoredWorkflow
import ImageRecipe.Proofs.BuiltinLibrary
import ImageRecipe.Proofs.FreeWalk
import ImageRecipe.Proofs.LinkedInputs
import ImageRecipe.Proofs.NormalForm
import ImageRecipe.Proofs.Outcomes
import ImageRecipe.Proofs.Rewiring
import ImageRecipe.Proofs.SavedFormsAgree
import ImageRecipe.Proofs.SavedNodes
import ImageRecipe.Proofs.SearchAgreement
import ImageRecipe.Proofs.SearchBounds
import ImageRecipe.Proofs.SearchHistory
import ImageRecipe.Proofs.SearchMachine
import ImageRecipe.Proofs.SkippedValues
import ImageRecipe.Proofs.Upstream
import ImageRecipe.Proofs.VisitEquations
import ImageRecipe.Proofs.WiringPast
import ImageRecipe.Proofs.InsertedNodes
import ImageRecipe.Proofs.Renaming
import ImageRecipe.Proofs.RaisedCeiling
import ImageRecipe.Proofs.StaleWidgets
import ImageRecipe.Proofs.JsonExtent
import ImageRecipe.Proofs.LenientJson
import ImageRecipe.Proofs.Base64RoundTrip
import ImageRecipe.Proofs.PayloadLayers
import ImageRecipe.Proofs.JsonLexemes
import ImageRecipe.Proofs.NonFiniteWords
import ImageRecipe.Proofs.ToldFamilies
import ImageRecipe.Proofs.FallingBack
import ImageRecipe.Proofs.KeptFields
import ImageRecipe.Proofs.ChunkFraming
import ImageRecipe.Proofs.ImageTexts
import ImageRecipe.Proofs.CutFiles
import ImageRecipe.Proofs.WrittenTexts
import ImageRecipe.Proofs.SidecarFills
import ImageRecipe.Proofs.KeywordSpellings
import ImageRecipe.Proofs.RespelledKeywords
import ImageRecipe.Proofs.TextLines
import ImageRecipe.Proofs.SettingsBlock
import ImageRecipe.Proofs.ParameterLines
import ImageRecipe.Proofs.WrittenSettings
import ImageRecipe.Proofs.WrittenParameters
import ImageRecipe.Proofs.StepsFields
import ImageRecipe.Proofs.WholeFloats
import ImageRecipe.Proofs.Routes
import ImageRecipe.Proofs.PlainRuns
import ImageRecipe.Proofs.LoraChains
import ImageRecipe.Proofs.GatheredLoras
import ImageRecipe.Proofs.IndexedStore
import ImageRecipe.Proofs.GraphStore
import ImageRecipe.Proofs.SinkOrder
import ImageRecipe.Proofs.SwitchBranches
import ImageRecipe.Proofs.PromptTrees
import ImageRecipe.Proofs.MalformedEntries
import ImageRecipe.Proofs.DerivedSeeds
import ImageRecipe.Proofs.SeedTexts
import ImageRecipe.Proofs.RoundedFloats
import ImageRecipe.Proofs.IntegerLiterals
import ImageRecipe.Proofs.WrittenSegments
import ImageRecipe.Proofs.EscapedText
import ImageRecipe.Proofs.WrittenTags
import ImageRecipe.Proofs.PacketProperties
import ImageRecipe.Proofs.Utf16RoundTrip
import ImageRecipe.Proofs.ExifTexts
import ImageRecipe.Proofs.ExifDirectories
import ImageRecipe.Proofs.MergedRecipes
import ImageRecipe.Proofs.SilentSidecars
import ImageRecipe.Proofs.FirstPlaces
import ImageRecipe.Proofs.GleanedNumbers
import ImageRecipe.Proofs.WrittenPromptLines
import ImageRecipe.Proofs.BuildSteps
import ImageRecipe.Proofs.StandIns
import ImageRecipe.Proofs.PromptLoras
import ImageRecipe.Proofs.SegmentedBlocks
import ImageRecipe.Proofs.PrintableRuns
