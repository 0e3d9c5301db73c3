import Chunking.Main
import Chunking.Proofs.Analysis.Positions
import Chunking.Proofs.Analysis.Repeated
import Chunking.Proofs.Analysis.Segments
import Chunking.Proofs.Chunk.Token
import Chunking.Proofs.Clock.Contents
import Chunking.Proofs.Clock.History
import Chunking.Proofs.Clock.Ledger
import Chunking.Proofs.Clock.Victim
import Chunking.Proofs.CommandLine.Canonical
import Chunking.Proofs.CommandLine.Options
import Chunking.Proofs.CommandLine.Outcome
import Chunking.Proofs.CommandLine.Readings
import Chunking.Proofs.CommandLine.Rules
import Chunking.Proofs.CommandLine.Spelling
import Chunking.Proofs.Grammar.Alternatives
import Chunking.Proofs.Grammar.Arity
import Chunking.Proofs.Grammar.Buckets
import Chunking.Proofs.Grammar.Faults
import Chunking.Proofs.Grammar.Literals
import Chunking.Proofs.Grammar.PatternText
import Chunking.Proofs.Grammar.Productions
import Chunking.Proofs.Grammar.Tokens
import Chunking.Proofs.Grammemes
import Chunking.Proofs.Key.Chunk
import Chunking.Proofs.Key.Window
import Chunking.Proofs.Lookup.Confusion
import Chunking.Proofs.Lookup.Growth
import Chunking.Proofs.Lookup.Interleaving
import Chunking.Proofs.Lookup.Ledger
import Chunking.Proofs.Lookup.Priority
import Chunking.Proofs.Lookup.Relaxation
import Chunking.Proofs.Lookup.Room
import Chunking.Proofs.Lookup.Stored
import Chunking.Proofs.Lookup.Transparency
import Chunking.Proofs.Page.Controls
import Chunking.Proofs.Reduction.Prefix
import Chunking.Proofs.Reduction.Words
import Chunking.Proofs.Text.Cut
import Chunking.Proofs.Text.Quoted
