import TrafficLab.Archive
import TrafficLab.Chain
import TrafficLab.Chip.Counters
import TrafficLab.Chip.Machine
import TrafficLab.Chip.Setup
import TrafficLab.Chip.Simulation
import TrafficLab.Command
import TrafficLab.Command.Listing
import TrafficLab.Command.Stream
import TrafficLab.CommandLine
import TrafficLab.CommandLine.Options
import TrafficLab.Compilation
import TrafficLab.Compilation.Error
import TrafficLab.Compilation.Keys
import TrafficLab.Compilation.Layout
import TrafficLab.Datum
import TrafficLab.Decimal.Binary
import TrafficLab.Decimal.Reading
import TrafficLab.Decimal.Shortest
import TrafficLab.Digest
import TrafficLab.Dump
import TrafficLab.Experiment
import TrafficLab.Experiment.Attempts
import TrafficLab.Experiment.Options
import TrafficLab.Fabric
import TrafficLab.Fabric.Placement
import TrafficLab.Fabric.Route
import TrafficLab.File
import TrafficLab.Flow
import TrafficLab.Ident
import TrafficLab.Json.Printer
import TrafficLab.Json.Reader
import TrafficLab.LittleEndian
import TrafficLab.Main
import TrafficLab.MessagePack.Reader
import TrafficLab.MessagePack.Writer
import TrafficLab.Metric
import TrafficLab.Power
import TrafficLab.Program
import TrafficLab.Proofs.Archive
import TrafficLab.Proofs.Chain
import TrafficLab.Proofs.Checked
import TrafficLab.Proofs.Chip.Agreement
import TrafficLab.Proofs.Chip.Bursts
import TrafficLab.Proofs.Chip.Capacity
import TrafficLab.Proofs.Chip.Collection
import TrafficLab.Proofs.Chip.Delivery
import TrafficLab.Proofs.Chip.Demand
import TrafficLab.Proofs.Chip.Divisors
import TrafficLab.Proofs.Chip.Fitting
import TrafficLab.Proofs.Chip.Generation
import TrafficLab.Proofs.Chip.Growth
import TrafficLab.Proofs.Chip.Intervals
import TrafficLab.Proofs.Chip.Latencies
import TrafficLab.Proofs.Chip.Loading
import TrafficLab.Proofs.Chip.Machine
import TrafficLab.Proofs.Chip.Offers
import TrafficLab.Proofs.Chip.Recording
import TrafficLab.Proofs.Chip.Records
import TrafficLab.Proofs.Chip.Routers
import TrafficLab.Proofs.Chip.Session
import TrafficLab.Proofs.Chip.Setup
import TrafficLab.Proofs.Chip.Simulation
import TrafficLab.Proofs.Chip.SharedCounters
import TrafficLab.Proofs.Chip.SlotMap
import TrafficLab.Proofs.Chip.Snapshots
import TrafficLab.Proofs.Chip.Traffic
import TrafficLab.Proofs.Chip.Words
import TrafficLab.Proofs.Command.Grammar
import TrafficLab.Proofs.Command.Stream
import TrafficLab.Proofs.Compilation
import TrafficLab.Proofs.Compilation.Budget
import TrafficLab.Proofs.Compilation.Keys
import TrafficLab.Proofs.Compilation.Layout
import TrafficLab.Proofs.Compilation.LeastKeys
import TrafficLab.Proofs.Compilation.Lookups
import TrafficLab.Proofs.Compilation.Relisting
import TrafficLab.Proofs.Compilation.Seeds
import TrafficLab.Proofs.Compilation.Slots
import TrafficLab.Proofs.Compilation.StartTicks
import TrafficLab.Proofs.Compilation.Tables
import TrafficLab.Proofs.Compilation.UsedKeys
import TrafficLab.Proofs.Datum
import TrafficLab.Proofs.Dump
import TrafficLab.Proofs.Dump.Damage
import TrafficLab.Proofs.Dump.Truncation
import TrafficLab.Proofs.Experiment
import TrafficLab.Proofs.Experiment.Attempts
import TrafficLab.Proofs.Experiment.Course
import TrafficLab.Proofs.Experiment.Lifecycle
import TrafficLab.Proofs.Experiment.Recording
import TrafficLab.Proofs.Fabric.HopTables
import TrafficLab.Proofs.Fabric.Placement
import TrafficLab.Proofs.Fabric.Reachability
import TrafficLab.Proofs.Fabric.Relisting
import TrafficLab.Proofs.Fabric.ShortestRoutes
import TrafficLab.Proofs.Json
import TrafficLab.Proofs.MessagePack
import TrafficLab.Proofs.Program
import TrafficLab.Proofs.Report.Accumulators
import TrafficLab.Proofs.Report.Conservation
import TrafficLab.Proofs.Report.Isolation
import TrafficLab.Proofs.Report.Merge
import TrafficLab.Proofs.Report.Stored
import TrafficLab.Proofs.Report.Timeline
import TrafficLab.Proofs.Report.Totals
import TrafficLab.Proofs.Schedule.Quantization
import TrafficLab.Proofs.Spec.Relisting
import TrafficLab.Proofs.Spec.Validation
import TrafficLab.Proofs.Spec.WellFormed
import TrafficLab.Proofs.Table
import TrafficLab.Quantity
import TrafficLab.Random
import TrafficLab.Report
import TrafficLab.Report.Merge
import TrafficLab.Report.Stored
import TrafficLab.Schedule
import TrafficLab.Schedule.Quantization
import TrafficLab.Spec
import TrafficLab.Spec.Validation
import TrafficLab.Table
import TrafficLab.Transport
import TrafficLab.Transport.Faults
