import Keytape.Main
import Keytape.Proofs.Slots
import Keytape.Proofs.Provenance
import Keytape.Proofs.Unambiguous
import Keytape.Proofs.Noninterference
import Keytape.Proofs.Formula
import Keytape.Proofs.Mention
import Keytape.Proofs.Graphing
import Keytape.Proofs.Title
import Keytape.Proofs.Phase
import Keytape.Proofs.Key
import Keytape.Proofs.Document
import Keytape.Proofs.Settings
import Keytape.Proofs.Memory
import Keytape.Proofs.Report
import Keytape.Proofs.LineBreaks
import Keytape.Proofs.Arguments
import Keytape.Proofs.Omission
import Keytape.Proofs.Chain
import Keytape.Proofs.References
import Keytape.Proofs.Undo
import Keytape.Proofs.Binary.Nearest
import Keytape.Proofs.Binary.Value
import Keytape.Proofs.Binary.Shift
import Keytape.Proofs.Binary.Arithmetic
import Keytape.Proofs.Points
import Keytape.Proofs.Crossings
import Keytape.Proofs.Decimal.Hundredths
import Keytape.Proofs.Ascending
import Keytape.Proofs.Intercepts
import Keytape.Proofs.Counting
import Keytape.Proofs.Overflow
import Keytape.Proofs.BindingGrammar
import Keytape.Proofs.Caption
import Keytape.Proofs.Retention
import Keytape.Proofs.Emphasis
