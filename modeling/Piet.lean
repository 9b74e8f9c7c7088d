import Piet.Folder
import Piet.Main
import Piet.Proofs.Faults
import Piet.Proofs.Halting
import Piet.Proofs.SameRegion
import Piet.Proofs.QuarterTurn
import Piet.Proofs.Enlarge
import Piet.Proofs.Margin
import Piet.Proofs.Recolor
import Piet.Proofs.Feeding
import Piet.Proofs.Consumption
import Piet.Proofs.Buffer
import Piet.Proofs.Log
import Piet.Proofs.Component
import Piet.Proofs.StepLimit
import Piet.Proofs.ExitStatus
import Piet.Proofs.Departure
import Piet.Proofs.ExitRule
import Piet.Proofs.Wrapping
import Piet.Proofs.Roll
import Piet.Proofs.Numbers
import Piet.Proofs.Characters
import Piet.Proofs.Arrays
import Piet.Proofs.Resumption
import Piet.Proofs.Codels
import Piet.Proofs.Packing
import Piet.Proofs.Turns
import Piet.Proofs.Atomicity
