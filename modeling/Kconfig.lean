import Kconfig.Condition.Structure
import Kconfig.Main
import Kconfig.Proofs.Depends
import Kconfig.Proofs.SourceOrder
import Kconfig.Proofs.Termination
import Kconfig.Proofs.Outcomes
import Kconfig.Proofs.RawLines
import Kconfig.Proofs.Restoration
import Kconfig.Proofs.Conditions
import Kconfig.Proofs.Inclusion
import Kconfig.Proofs.Nesting
import Kconfig.Proofs.Symbols
import Kconfig.Proofs.Strictness
import Kconfig.Proofs.Comments
import Kconfig.Proofs.Absence
import Kconfig.Proofs.Locations
import Kconfig.Proofs.Dumps
import Kconfig.Proofs.HelpExtraction
import Kconfig.Proofs.NormalForms
import Kconfig.Proofs.Printing
import Kconfig.Proofs.Continuation
import Kconfig.Proofs.Transcripts
import Kconfig.Proofs.Recursion
import Kconfig.Proofs.Redefinitions
import Kconfig.Proofs.Rendering
import Kconfig.Proofs.QuotedPaths
import Kconfig.Proofs.Records
import Kconfig.Proofs.Intervals
import Kconfig.Proofs.References
import Kconfig.Proofs.Discarding
