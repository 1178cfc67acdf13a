import KeyEngine.Folder
import KeyEngine.Main
import KeyEngine.Proofs.Edges
import KeyEngine.Proofs.Layers
import KeyEngine.Proofs.Operations
import KeyEngine.Proofs.Stream
import KeyEngine.Proofs.Holdings
import KeyEngine.Proofs.Mirror
import KeyEngine.Proofs.KeysDown
import KeyEngine.Proofs.Waiting
import KeyEngine.Proofs.Demand
import KeyEngine.Proofs.Accounts
import KeyEngine.Proofs.Triggers
import KeyEngine.Proofs.Redeem
import KeyEngine.Proofs.Verdicts
import KeyEngine.Proofs.Buffering
import KeyEngine.Proofs.Moments
import KeyEngine.Proofs.Notes
import KeyEngine.Proofs.Presses
import KeyEngine.Proofs.Timers
import KeyEngine.Proofs.Latch
import KeyEngine.Proofs.InTurn
import KeyEngine.Proofs.Effects
import KeyEngine.Proofs.Machines
import KeyEngine.Proofs.TurnedOn
import KeyEngine.Proofs.NextKey
import KeyEngine.Proofs.HeldLayers
import KeyEngine.Proofs.Standstill
import KeyEngine.Proofs.Pieces
import KeyEngine.Proofs.Nesting
import KeyEngine.Proofs.Spelling
import KeyEngine.Proofs.ActionText
import KeyEngine.Proofs.RowText
import KeyEngine.Proofs.Twins
import KeyEngine.Proofs.KeptBack
import KeyEngine.Proofs.Malformed
import KeyEngine.Proofs.Resolution
import KeyEngine.Proofs.InForce
import KeyEngine.Proofs.Reports
import KeyEngine.Proofs.Clocks
import KeyEngine.Proofs.Delays
import KeyEngine.Proofs.Playback
import KeyEngine.Proofs.Decisions
import KeyEngine.Proofs.Masking
import KeyEngine.Proofs.BareKeys
import KeyEngine.Proofs.Recency
import KeyEngine.Proofs.Effort
import KeyEngine.Proofs.Overdue
import KeyEngine.Proofs.Repeats
import KeyEngine.Proofs.TapCount
import KeyEngine.Proofs.Macros
import KeyEngine.Proofs.SharedTrigger
import KeyEngine.Proofs.ScriptText
import KeyEngine.Proofs.Parting
import KeyEngine.Proofs.Wrapping
import KeyEngine.Proofs.WaitingKey
