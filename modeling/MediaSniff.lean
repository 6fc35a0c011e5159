import MediaSniff.Arena
import MediaSniff.Builtin
import MediaSniff.Builtin.Archives
import MediaSniff.Builtin.Markup
import MediaSniff.Builtin.Media
import MediaSniff.Builtin.Programs
import MediaSniff.Builtin.Text
import MediaSniff.Builtin.Volumes
import MediaSniff.CommandLine.Arguments
import MediaSniff.CommandLine.Options
import MediaSniff.CommandLine.Report
import MediaSniff.CommandLine.Run
import MediaSniff.CommandLine.Usage
import MediaSniff.Config
import MediaSniff.Config.Load
import MediaSniff.Database.Basic
import MediaSniff.Database.Classify
import MediaSniff.Database.Files
import MediaSniff.Database.Reader
import MediaSniff.Descriptor
import MediaSniff.Descriptor.Merge
import MediaSniff.Descriptor.Read
import MediaSniff.Descriptor.Write
import MediaSniff.FileTree
import MediaSniff.Glob.Compile
import MediaSniff.Glob.Error
import MediaSniff.Glob.Index
import MediaSniff.Glob.Pattern
import MediaSniff.Grouping
import MediaSniff.Host
import MediaSniff.Json.DoubleRange
import MediaSniff.Json.Fields
import MediaSniff.Json.Parse
import MediaSniff.Json.Print
import MediaSniff.Json.Token
import MediaSniff.Json.Value
import MediaSniff.Json.Whole
import MediaSniff.Layout.Signature
import MediaSniff.Layout.Snapshot
import MediaSniff.Layout.Survey
import MediaSniff.Layout.Table
import MediaSniff.LoadError
import MediaSniff.Magic.Error
import MediaSniff.Magic.Escape
import MediaSniff.Magic.Node
import MediaSniff.Magic.Signature
import MediaSniff.Magic.Table
import MediaSniff.Magic.Value
import MediaSniff.Main
import MediaSniff.Path
import MediaSniff.Preference
import MediaSniff.ReadError
import MediaSniff.Registry.Basic
import MediaSniff.Registry.Hierarchy
import MediaSniff.Registry.Record
import MediaSniff.Sentinels
import MediaSniff.Stream
import MediaSniff.Text.Alphabetic
import MediaSniff.Text.Blank
import MediaSniff.Text.Cased
import MediaSniff.Text.CodeRanges
import MediaSniff.Text.Lowercase
import MediaSniff.Text.Numeral
import MediaSniff.Text.Utf8
import MediaSniff.Toml.Parse
import MediaSniff.Toml.Token
import MediaSniff.Toml.Value
import MediaSniff.TypeId
import MediaSniff.TypeTable
import MediaSniff.TypeTable.Read
import MediaSniff.TypeTable.Render
import MediaSniff.Xml.Decoding
import MediaSniff.Xml.Markup
import MediaSniff.Xml.Reference
import MediaSniff.Xml.RootTable
import MediaSniff.Xml.StartTag
import MediaSniff.Proofs.Glob.Lookup
import MediaSniff.Proofs.Arena.Layout
import MediaSniff.Proofs.Magic.Node
import MediaSniff.Proofs.Database.Agreement
import MediaSniff.Proofs.Magic.Chain
import MediaSniff.Proofs.Magic.Reach
import MediaSniff.Proofs.Glob.Width
import MediaSniff.Proofs.Stream
import MediaSniff.Proofs.Database.Loading
import MediaSniff.Proofs.Database.Preferences
import MediaSniff.Proofs.Descriptor.GlobRules
import MediaSniff.Proofs.Descriptor.Registry
import MediaSniff.Proofs.Descriptor.Types
import MediaSniff.Proofs.Database.ReadLimit
import MediaSniff.Proofs.Registry.Lookup
import MediaSniff.Proofs.Glob.Window
import MediaSniff.Proofs.Glob.Holdings
import MediaSniff.Proofs.Database.Faithful
import MediaSniff.Proofs.Database.Answers
import MediaSniff.Proofs.Text.Utf8
import MediaSniff.Proofs.Text.Marks
import MediaSniff.Proofs.Glob.Language
import MediaSniff.Proofs.Glob.Segments
import MediaSniff.Proofs.Glob.Star
import MediaSniff.Proofs.Glob.Meaning
import MediaSniff.Proofs.Xml.Markup
import MediaSniff.Proofs.Xml.Decoding
import MediaSniff.Proofs.Xml.Encodings
import MediaSniff.Proofs.Xml.Roots
import MediaSniff.Proofs.Xml.Written
import MediaSniff.Proofs.Xml.Reading
import MediaSniff.Proofs.Xml.Recognition
import MediaSniff.Proofs.Database.XmlWindow
import MediaSniff.Proofs.Database.Beginning
import MediaSniff.Proofs.Registry.Distance
import MediaSniff.Proofs.Registry.Closure
import MediaSniff.Proofs.Layout.Snapshot
import MediaSniff.Proofs.Layout.Meaning
import MediaSniff.Proofs.Layout.Listing
import MediaSniff.Proofs.Registry.Acyclic
import MediaSniff.Proofs.Database.Hierarchy
import MediaSniff.Proofs.Text.FinalSigma
import MediaSniff.Proofs.Glob.Spelling
import MediaSniff.Proofs.Glob.Brackets
import MediaSniff.Proofs.Text.Lowered
import MediaSniff.Proofs.Database.Extensions
import MediaSniff.Proofs.Descriptor.Merging
import MediaSniff.Proofs.Text.Runs
import MediaSniff.Proofs.Xml.EmptyElement
import MediaSniff.Proofs.Database.RootElements
import MediaSniff.Proofs.Json.Scalars
import MediaSniff.Proofs.Json.Printing
import MediaSniff.Proofs.Json.Fields
import MediaSniff.Proofs.Descriptor.RoundTrip
import MediaSniff.Proofs.Database.TypeTable
import MediaSniff.Proofs.Precedence
import MediaSniff.Proofs.Text.Numeral
import MediaSniff.Proofs.Magic.Escape
import MediaSniff.Proofs.Magic.Integer
import MediaSniff.Proofs.Magic.Mask
import MediaSniff.Proofs.Layout.Growth
import MediaSniff.Proofs.Xml.Reference
import MediaSniff.Proofs.Xml.Doctype
import MediaSniff.Proofs.Database.Arrivals
import MediaSniff.Proofs.Layout.IgnoredCase
import MediaSniff.Proofs.Registry.Names
import MediaSniff.Proofs.Database.Names
import MediaSniff.Proofs.Descriptor.NormalForm
import MediaSniff.Proofs.Glob.Reading
import MediaSniff.Proofs.Database.Respelling
import MediaSniff.Proofs.Text.Tracks
import MediaSniff.Proofs.Glob.Atoms
import MediaSniff.Proofs.Glob.Shares
import MediaSniff.Proofs.Glob.Lenience
import MediaSniff.Proofs.Magic.Measures
import MediaSniff.Proofs.CommandLine.Failures
import MediaSniff.Proofs.Arena.Forward
import MediaSniff.Proofs.Text.Slices
import MediaSniff.Proofs.Xml.Sliced.Decoding
import MediaSniff.Proofs.Xml.Sliced.StartTag
import MediaSniff.Proofs.Xml.Sliced.Scan
