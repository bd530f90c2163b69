import LoxTools.Expr.Printer
import LoxTools.Expr.Postfix
import LoxTools.Files.Tree
import LoxTools.Main
import LoxTools.Proofs.CursorMotion
import LoxTools.Proofs.Grammar
import LoxTools.Proofs.Recognition
import LoxTools.Proofs.Reading
import LoxTools.Proofs.Scanning
import LoxTools.Proofs.Tokenisation
import LoxTools.Proofs.Automaton
import LoxTools.Proofs.StrictKeywords
import LoxTools.Proofs.Jumping
import LoxTools.Proofs.ScanInvariant
import LoxTools.Proofs.Diagnostics
import LoxTools.Proofs.Boundaries
import LoxTools.Proofs.Respelling
import LoxTools.Proofs.LineByLine
import LoxTools.Proofs.Restarting
import LoxTools.Proofs.ErrorPrefix
import LoxTools.Proofs.ScanLog
import LoxTools.Proofs.Unescaping
import LoxTools.Proofs.InputRuns
import LoxTools.Proofs.CheckAgreement
import LoxTools.Proofs.FileByFile
import LoxTools.Proofs.TokenLines
import LoxTools.Proofs.JsonReading
import LoxTools.Proofs.JsonListing
import LoxTools.Proofs.ReservedWords
import LoxTools.Proofs.WholeRuns
import LoxTools.Proofs.Verbosity
import LoxTools.Proofs.Lookahead
import LoxTools.Proofs.Blanking
import LoxTools.Proofs.LineEndings
import LoxTools.Proofs.CheckCounts
import LoxTools.Proofs.StateInvariant
import LoxTools.Proofs.PrefixNotation
import LoxTools.Proofs.SettingsResolution
import LoxTools.Proofs.TomlTables
import LoxTools.Proofs.TomlDocuments
import LoxTools.Proofs.TomlLines
import LoxTools.Proofs.SettingsFile
import LoxTools.Proofs.CursorSuffix
import LoxTools.Proofs.WithinBounds
