import Unreferenced.FileTree.Lawful
import Unreferenced.Main
import Unreferenced.Proofs.Asset.History
import Unreferenced.Proofs.Asset.Tables
import Unreferenced.Proofs.CommandLine.Run
import Unreferenced.Proofs.Declaration.Segments
import Unreferenced.Proofs.Report.Lines
import Unreferenced.Proofs.Report.Location
import Unreferenced.Proofs.Report.Records
import Unreferenced.Proofs.Report.Retained
import Unreferenced.Proofs.Scan.Growth
import Unreferenced.Proofs.Symbol.History
import Unreferenced.Proofs.Symbol.Tables
import Unreferenced.Proofs.Verdict.Dependence
import Unreferenced.Styled.Signal
import Unreferenced.Proofs.Text.LowerCase
import Unreferenced.Proofs.Asset.Suffix
import Unreferenced.Proofs.Exclusion.Verbatim
import Unreferenced.Proofs.FilePath.Order
import Unreferenced.Proofs.FileTree.Simulation
import Unreferenced.Proofs.Walk.Reordering
import Unreferenced.Proofs.Scan.Order
import Unreferenced.Proofs.Declaration.Separator
import Unreferenced.Proofs.Report.DeletionList
import Unreferenced.Proofs.Report.Findings
import Unreferenced.Proofs.Report.Colours
import Unreferenced.Proofs.Corpus.Borders
import Unreferenced.Proofs.Declaration.KeywordOrder
import Unreferenced.Proofs.Yaml.Cursor
import Unreferenced.Proofs.Yaml.Token
import Unreferenced.Proofs.Yaml.Lead
import Unreferenced.Proofs.Yaml.Root
import Unreferenced.Proofs.Settings.File
