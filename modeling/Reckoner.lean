import Reckoner.Main
import Reckoner.Proofs.Evaluation.ZeroDivision
import Reckoner.Proofs.Language.Membership
import Reckoner.Proofs.Language.RoundTrip
import Reckoner.Proofs.Lexing.Balance
import Reckoner.Proofs.Lexing.Outcome
import Reckoner.Proofs.Grammar.Outlook
import Reckoner.Proofs.Grammar.Faults
import Reckoner.Proofs.Language.Composition
import Reckoner.Proofs.Language.FaultPlaces
import Reckoner.Proofs.Tools.Shapes
import Reckoner.Proofs.Tools.Calls
import Reckoner.Proofs.Tools.Replies
import Reckoner.Proofs.Tools.Schema
import Reckoner.Proofs.Evaluation.Stages
import Reckoner.Proofs.Lexing.Respelling
import Reckoner.Proofs.Text.ByteOrder
import Reckoner.Proofs.Tools.Sessions
import Reckoner.Proofs.Json.Numerals
import Reckoner.Proofs.Json.ReadBack
import Reckoner.Proofs.Tools.Outcomes
import Reckoner.Proofs.Evaluation.FlooredDivision
import Reckoner.Proofs.Conversion.Inverses
import Reckoner.Proofs.Lexing.Written
import Reckoner.Proofs.Grammar.Chains
import Reckoner.Proofs.Grammar.Discipline
import Reckoner.Proofs.Tools.FirstFault
import Reckoner.Proofs.Evaluation.Functions
