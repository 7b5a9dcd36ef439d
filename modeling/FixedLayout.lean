import FixedLayout.Bytes.Session
import FixedLayout.Captured
import FixedLayout.Codec.Session
import FixedLayout.Main
import FixedLayout.Proofs.Codec.RoundTrip
import FixedLayout.ScaledRational.Worksheet
import FixedLayout.Proofs.Session.Encoding
import FixedLayout.Proofs.Session.Packing
import FixedLayout.Proofs.Session.Decoding
import FixedLayout.Proofs.Codec.Lengths
import FixedLayout.Proofs.Json.Decimals
import FixedLayout.Proofs.Json.Quoting
import FixedLayout.Proofs.Json.Tokens
import FixedLayout.Proofs.Json.Parsing
import FixedLayout.Proofs.Members
import FixedLayout.Proofs.Registry.Registration
import FixedLayout.Proofs.Registry.Reloading
import FixedLayout.Proofs.Registry.Reordering
import FixedLayout.Proofs.Layout.Correspondence
import FixedLayout.Proofs.Layout.Faults
import FixedLayout.Proofs.Base64
import FixedLayout.Proofs.Value.Numerals
import FixedLayout.Proofs.Value.Reading
import FixedLayout.Proofs.Value.Reordering
import FixedLayout.Proofs.Value.Tree
import FixedLayout.Proofs.Value.Restoring
import FixedLayout.Proofs.Value.Offering
import FixedLayout.Proofs.Value.Missing
import FixedLayout.Proofs.CommandLine.Commands
import FixedLayout.Proofs.CommandLine.Pipeline
import FixedLayout.Proofs.CommandLine.Records
import FixedLayout.Proofs.CommandLine.Descriptions
import FixedLayout.Proofs.CommandLine.Listing
import FixedLayout.Proofs.Registry.Sizing
import FixedLayout.Proofs.Codec.Growth
import FixedLayout.Proofs.Codec.Identity
import FixedLayout.Proofs.Codec.Pieces
import FixedLayout.Proofs.Codec.Repeats
import FixedLayout.Proofs.TestProgram.Hops
import FixedLayout.Proofs.TestProgram.Increments
import FixedLayout.Proofs.TestProgram.Wire
import FixedLayout.Proofs.Bytes.Sequences
import FixedLayout.Proofs.Bytes.Requests
import FixedLayout.Proofs.Bytes.Guarded
import FixedLayout.Proofs.Session.Reading
import FixedLayout.Proofs.Session.Windows
import FixedLayout.Proofs.ScaledRational.Divisions
import FixedLayout.Proofs.ScaledRational.Worksheets
import FixedLayout.Proofs.ScaledRational.Runs
import FixedLayout.Proofs.ScaledRational.Truncation
import FixedLayout.Proofs.ScaledRational.Rebasing
import FixedLayout.Proofs.ScaledRational.Detours
import FixedLayout.Proofs.ScaledRational.Order
import FixedLayout.Proofs.ScaledRational.Alignment
import FixedLayout.Proofs.ScaledRational.Accuracy
import FixedLayout.Proofs.ScaledRational.Undoing
