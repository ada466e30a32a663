import OrderFlow.Main
import OrderFlow.Order.Decoder
import OrderFlow.Proofs.CommandLine.Settings
import OrderFlow.Proofs.Program
import OrderFlow.Proofs.Scheduler.Cancellation
import OrderFlow.Proofs.Scheduler.FiringTimes
import OrderFlow.Proofs.Scheduler.Totals
import OrderFlow.Proofs.Simulation.Books
import OrderFlow.Proofs.Simulation.Slices
import OrderFlow.Shutdown
import OrderFlow.Proofs.Order.Decoding
import OrderFlow.Proofs.CommandLine.Flags
import OrderFlow.Proofs.CommandLine.Fronts
import OrderFlow.Proofs.CommandLine.Precedence
import OrderFlow.Proofs.Delivery.Answers
import OrderFlow.Proofs.Delivery.Sending
import OrderFlow.Proofs.Delivery.Course
import OrderFlow.Proofs.Delivery.Effects
import OrderFlow.Proofs.Delivery.Timeouts
import OrderFlow.Proofs.Delivery.Lifecycle
import OrderFlow.Proofs.Generator.Words
import OrderFlow.Proofs.Delivery.Attempts
import OrderFlow.Proofs.Scheduler.Calls
import OrderFlow.Proofs.Scheduler.Interrupts
import OrderFlow.Proofs.Shutdown
