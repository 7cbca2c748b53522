import RiscvListing.Main
import RiscvListing.Proofs.BitGroup
import RiscvListing.Proofs.Assembly
import RiscvListing.Proofs.Dispatch
import RiscvListing.Proofs.Encoding
import RiscvListing.Proofs.Rejected
import RiscvListing.Proofs.Resolution
import RiscvListing.Proofs.TwosComplement
import RiscvListing.Proofs.OffsetBits
import RiscvListing.Proofs.Session
import RiscvListing.Proofs.Numeral
import RiscvListing.Proofs.RecordText
import RiscvListing.Proofs.RecordSink
import RiscvListing.Proofs.RegisterSpelling
import RiscvListing.Proofs.Lossless
import RiscvListing.Proofs.Utf8
import RiscvListing.Proofs.TextLines
import RiscvListing.Proofs.WordLines
import RiscvListing.Proofs.Pieces
import RiscvListing.Proofs.Policies
import RiscvListing.Proofs.Parallel
import RiscvListing.Proofs.Binary
import RiscvListing.Proofs.HexText
import RiscvListing.Proofs.Rendering
import RiscvListing.Proofs.CommandLine
import RiscvListing.Proofs.Accepted
import RiscvListing.Proofs.FileReport
import RiscvListing.Proofs.Paths
import RiscvListing.Proofs.Redirection
import RiscvListing.Proofs.DecodeCommand
import RiscvListing.Proofs.HexGrammar
import RiscvListing.Proofs.HexLines
import RiscvListing.Proofs.Replacement
import RiscvListing.Proofs.HexBytes
import RiscvListing.Proofs.Quotation
import RiscvListing.Proofs.Addresses
import RiscvListing.Proofs.PlainLines
import RiscvListing.Proofs.WordColumn
