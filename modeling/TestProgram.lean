import TestProgram.Main
import TestProgram.Script.Run
import TestProgram.Proofs.Computation
import TestProgram.Proofs.PhaseRuns
import TestProgram.Proofs.Draw
import TestProgram.Proofs.Interleaving
import TestProgram.Proofs.Strategies
import TestProgram.Proofs.Composition
import TestProgram.Proofs.Blindness
import TestProgram.Proofs.Atomicity
import TestProgram.Proofs.Conservation
import TestProgram.Proofs.Finalization
import TestProgram.Proofs.Registration
import TestProgram.Proofs.Resolution
import TestProgram.Proofs.Generation
import TestProgram.Proofs.LabelNames
import TestProgram.Proofs.Placement
import TestProgram.Proofs.WeakLabels
import TestProgram.Proofs.NumericReferences
import TestProgram.Proofs.Repetition
import TestProgram.Proofs.InStep
import TestProgram.Proofs.Thinning
import TestProgram.Proofs.Likeness
import TestProgram.Proofs.HushedData
import TestProgram.Proofs.HushedSessions
import TestProgram.Proofs.HushedStudios
import TestProgram.Proofs.HushedScripts
import TestProgram.Proofs.HushedFiles
import TestProgram.Proofs.HushedStreams
import TestProgram.Proofs.HushedLabels
import TestProgram.Proofs.HushedPhases
import TestProgram.Proofs.Inertness
import TestProgram.Proofs.EqualDraws
import TestProgram.Proofs.Arrangement
import TestProgram.Proofs.BlockPaths
import TestProgram.Proofs.WaitingLabels
import TestProgram.Proofs.FileOperations
import TestProgram.Proofs.FailedBlocks
import TestProgram.Proofs.GlobalLabels
import TestProgram.Proofs.WeakAcrossStreams
import TestProgram.Proofs.CheckedStrategies
import TestProgram.Proofs.SealedTrees
import TestProgram.Proofs.PhaseFaults
import TestProgram.Proofs.Deeds
import TestProgram.Proofs.Plans
import TestProgram.Proofs.Handles
import TestProgram.Proofs.Scopes
import TestProgram.Proofs.PhaseHistories
import TestProgram.Proofs.Lifecycles
import TestProgram.Proofs.PlannedScripts
import TestProgram.Proofs.DataHistories
import TestProgram.Proofs.RegionSections
import TestProgram.Proofs.SectionMarkers
import TestProgram.Proofs.Carriers
import TestProgram.Proofs.SectionCalls
import TestProgram.Proofs.NeutralNesting
import TestProgram.Proofs.RaisedFaults
import TestProgram.Proofs.FaultPlaces
import TestProgram.Proofs.Unlined
import TestProgram.Proofs.FileRuns
import TestProgram.Proofs.LateFaults
import TestProgram.Proofs.PreparationFaults
import TestProgram.Proofs.Tables
import TestProgram.Proofs.RememberedDistributions
import TestProgram.Proofs.Reruns
import TestProgram.Proofs.KeptLabels
import TestProgram.Proofs.SampledValues
import TestProgram.Proofs.UniformMerges
import TestProgram.Proofs.Unfoldings
import TestProgram.Proofs.NearestDeclarations
import TestProgram.Proofs.BindingInPlace
import TestProgram.Proofs.LayeredAttributes
import TestProgram.Proofs.BuiltWeights
import TestProgram.Proofs.RoundRobin
import TestProgram.Proofs.ProductOrder
import TestProgram.Proofs.StreamCounts
import TestProgram.Proofs.DrawnOperands
import TestProgram.Proofs.NarrowedReferences
