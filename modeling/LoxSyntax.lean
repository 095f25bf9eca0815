import LoxSyntax.Main
import LoxSyntax.Node.Assembly
import LoxSyntax.Schema.Record
import LoxSyntax.Source.Cursor
import LoxSyntax.Token.Record
import LoxSyntax.Token.Placed
import LoxSyntax.Token.Scanner
import LoxSyntax.Proofs.Token.Cut
import LoxSyntax.Proofs.Token.Places
import LoxSyntax.Proofs.Token.Longest
import LoxSyntax.Proofs.Token.Coverage
import LoxSyntax.Proofs.Source.LineTable
import LoxSyntax.Proofs.Token.Lines
import LoxSyntax.Proofs.Token.Spacing
import LoxSyntax.Proofs.Text.Trim
import LoxSyntax.Proofs.Text.Split
import LoxSyntax.Proofs.Schema.Written
import LoxSyntax.Proofs.Schema.Reading
import LoxSyntax.Proofs.Schema.LegalNames
import LoxSyntax.Proofs.Schema.Declared
import LoxSyntax.Proofs.Files.Generate
import LoxSyntax.Proofs.Files.Writing
import LoxSyntax.Proofs.Schema.Sheet
import LoxSyntax.Proofs.Schema.Outline
import LoxSyntax.Proofs.Token.Uncovered
import LoxSyntax.Proofs.Command.Script
import LoxSyntax.Proofs.Command.Prompt
import LoxSyntax.Proofs.Command.Generate
import LoxSyntax.Proofs.Schema.Splice
import LoxSyntax.Proofs.Token.Follow
import LoxSyntax.Proofs.Token.Progress
import LoxSyntax.Proofs.Token.Session
import LoxSyntax.Proofs.Token.Recovery
import LoxSyntax.Proofs.Schema.FirstFault
import LoxSyntax.Proofs.Source.Location
import LoxSyntax.Proofs.Source.Excerpt
import LoxSyntax.Proofs.Schema.Imports
import LoxSyntax.Proofs.Schema.Boxing
import LoxSyntax.Proofs.Node.Twins
import LoxSyntax.Proofs.Schema.SnakeCase
import LoxSyntax.Proofs.Source.Partition
import LoxSyntax.Proofs.Source.Walk
