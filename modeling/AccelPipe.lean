import AccelPipe.Checked
import AccelPipe.Files.Directory
import AccelPipe.MacLoop
import AccelPipe.Main
import AccelPipe.Proofs.CycleCount
import AccelPipe.Proofs.TimingIndependence
import AccelPipe.Proofs.Refinement
import AccelPipe.Proofs.Progress
import AccelPipe.Proofs.Memory.History
import AccelPipe.Proofs.Reference.Verdict
import AccelPipe.Proofs.Pipeline.Passage
import AccelPipe.Proofs.InOrder
import AccelPipe.Proofs.Timetable.Basic
import AccelPipe.Proofs.Timetable.Doors
import AccelPipe.Proofs.Timetable.Punctual
import AccelPipe.Proofs.Timetable.Stages
import AccelPipe.Proofs.Timetable.Decode
import AccelPipe.Proofs.Timetable.Runs
import AccelPipe.Proofs.NoAnomaly
import AccelPipe.Proofs.Channels
import AccelPipe.Proofs.Safety
import AccelPipe.Proofs.Assembly.Layout
import AccelPipe.Proofs.RoundTrip
import AccelPipe.Proofs.Config.Rejection
import AccelPipe.Proofs.Simulator.Reload
import AccelPipe.Proofs.Simulator.Interleaving
import AccelPipe.Proofs.Stimulus.RunOff
import AccelPipe.Proofs.Pipeline.Standing
import AccelPipe.Proofs.Pipeline.Delivery
import AccelPipe.Proofs.Forwarding
import AccelPipe.Proofs.Accelerator.Reuse
import AccelPipe.Proofs.Memory.Capacity
import AccelPipe.Proofs.Instruction.Inverse
import AccelPipe.Proofs.Instruction.Rv32i
import AccelPipe.Proofs.Assembly.Literal
import AccelPipe.Proofs.Accelerator.Saturation
import AccelPipe.Proofs.Accelerator.Chain
import AccelPipe.Proofs.Accelerator.Filter
import AccelPipe.Proofs.Accelerator.Pooling
import AccelPipe.Proofs.Sources
import AccelPipe.Proofs.Simulator.Driving
import AccelPipe.Proofs.Exclusive
import AccelPipe.Proofs.Assembly.Located
import AccelPipe.Proofs.Constant
import AccelPipe.Proofs.FullSpeed
import AccelPipe.Proofs.MacLoop.Run
import AccelPipe.Proofs.Memory.Cells
import AccelPipe.Proofs.Turns
import AccelPipe.Proofs.Addresses
import AccelPipe.Proofs.Assembly.Listing
