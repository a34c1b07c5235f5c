import Stepwise.Main
import Stepwise.Proofs.Peeking
import Stepwise.Proofs.BoundedRanges
import Stepwise.Proofs.Stopping
import Stepwise.Proofs.DeferredChecks
import Stepwise.Proofs.IntegerSteppers
import Stepwise.Proofs.Interleaving
import Stepwise.Proofs.Recording
import Stepwise.Proofs.Materializing
import Stepwise.Proofs.Output
import Stepwise.Proofs.PrintModes
import Stepwise.Proofs.OutputFailure
import Stepwise.Proofs.DecimalTexts
import Stepwise.Proofs.Scanning
import Stepwise.Proofs.IntegerCommands
import Stepwise.Proofs.RangeFailures
import Stepwise.Proofs.TextOrder
import Stepwise.Proofs.TextRanges
import Stepwise.Proofs.TextSteps
import Stepwise.Proofs.ExactNumbers
import Stepwise.Proofs.ValueOrder
import Stepwise.Proofs.SuccessorOrbits
import Stepwise.Proofs.CharacterRanges
import Stepwise.Proofs.FloatEnds
import Stepwise.Proofs.EndlessIntegers
import Stepwise.Proofs.Rounding
import Stepwise.Proofs.Literals
import Stepwise.Proofs.QuotedTexts
import Stepwise.Proofs.ScalarTexts
import Stepwise.Proofs.Inspection
import Stepwise.Proofs.ArgumentOrder
import Stepwise.Proofs.Events
import Stepwise.Proofs.PullStates
import Stepwise.Proofs.Dispatch
