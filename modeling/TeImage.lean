import TeImage.Main
import TeImage.Proofs.CommandLine.Outcome
import TeImage.Proofs.Image.BoundRecords
import TeImage.Proofs.Image.History
import TeImage.Proofs.Image.Merge
import TeImage.Proofs.Image.Repetition
import TeImage.Proofs.Image.RoundTrip
import TeImage.Proofs.Image.SymbolNames
import TeImage.Proofs.Json.Extension
import TeImage.Proofs.Json.Reading
import TeImage.Proofs.Json.Scanning
import TeImage.Proofs.Json.Skipping
import TeImage.Proofs.Json.Tree
import TeImage.Proofs.Layout.Membership
import TeImage.Proofs.Layout.Partition
import TeImage.Proofs.LittleEndian
import TeImage.Proofs.Load.Agreement
import TeImage.Proofs.Load.Entry
import TeImage.Proofs.Load.Log
import TeImage.Proofs.Load.Placement
import TeImage.Proofs.Load.Registrations
import TeImage.Proofs.Records
import TeImage.Proofs.Section.Name
import TeImage.Proofs.Section.Table
import TeImage.Proofs.Section.Walk
import TeImage.Proofs.Session
import TeImage.Proofs.Streaming
import TeImage.Proofs.Types.Aliases
import TeImage.Proofs.Types.CutOff
import TeImage.Proofs.Types.Likeness
import TeImage.Proofs.Types.Listing
import TeImage.Proofs.Types.Locality
import TeImage.Proofs.Types.Misspellings
import TeImage.Proofs.Types.PointerWidth
import TeImage.Proofs.Types.Precedence
import TeImage.Proofs.Types.Recursion
import TeImage.Proofs.Types.Refusals
import TeImage.Proofs.Types.Size
import TeImage.Proofs.Types.Spellings
import TeImage.Proofs.Types.Text
import TeImage.Proofs.Types.Walk
