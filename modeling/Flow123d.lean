import Flow123d.Library.Numerals
import Flow123d.Library.SetAlgebra
import Flow123d.Library.Fold
import Flow123d.Library.SortedLists
import Flow123d.Library.ThreeWayPartition
import Flow123d.Library.Double
import Flow123d.Mesh.Element
import Flow123d.Mesh.Topology
import Flow123d.Mesh.NodeElementProperties
import Flow123d.Mesh.TopologyProperties
import Flow123d.Mesh.SidesOnEdges
import Flow123d.Mesh.BihTree
import Flow123d.Mesh.BihTreeProperties
import Flow123d.Mesh.BihTreeGrowth
import Flow123d.Mesh.BihTreeSplit
import Flow123d.Mesh.BihTreeRun
import Flow123d.Mesh.BihTreeWellFormed
import Flow123d.Mesh.BihTreeSearch
import Flow123d.La.Distribution
import Flow123d.La.SparseGraph
import Flow123d.La.SparseGraphProperties
import Flow123d.La.SparseGraphValid
import Flow123d.Coupling.TimeMarks
import Flow123d.Coupling.TimeGovernor
import Flow123d.Coupling.TimeGovernorProperties
import Flow123d.Coupling.TimeGovernorRun
import Flow123d.Coupling.FixedMarks
import Flow123d.Coupling.StepConstraints
import Flow123d.Coupling.StepLimit
import Flow123d.Coupling.Equation
import Flow123d.Coupling.HcExplicitSequential
import Flow123d.Transport.TransportMatrix
import Flow123d.Transport.ConvectionTransport
import Flow123d.Transport.ConvectionScaling
import Flow123d.Transport.TransportOperatorSplitting
import Flow123d.Transport.ReactionTimes
import Flow123d.Transport.ConvectionPositivity
import Flow123d.Library.GroupedSums
import Flow123d.Transport.CflLimit
import Flow123d.Transport.MassBalance
import Flow123d.Transport.MassExchange
import Flow123d.Transport.MassConservation
import Flow123d.Transport.MassBalanceTotals
import Flow123d.Transport.MassBalanceRun
import Flow123d.Library.Writes
import Flow123d.Reaction.LinearReaction
import Flow123d.Reaction.LinearReactionStep
import Flow123d.Library.RootFinder
import Flow123d.Reaction.Isotherm
import Flow123d.Reaction.IsothermConservation
import Flow123d.Reaction.IsothermCurve
import Flow123d.Reaction.IsothermBracket
import Flow123d.Reaction.IsothermCalls
import Flow123d.Reaction.IsothermLimit
import Flow123d.Reaction.Sorption
import Flow123d.Reaction.SorptionTables
import Flow123d.Reaction.SorptionRun
import Flow123d.Library.Procedure
import Flow123d.Input.Text
import Flow123d.Input.JsonPath
import Flow123d.Input.InputType
import Flow123d.Input.JsonTermination
import Flow123d.Input.JsonReferences
import Flow123d.Library.Outcome
import Flow123d.Mesh.RegionDB
import Flow123d.Mesh.RegionDBProperties
import Flow123d.Fields.Field
import Flow123d.Fields.FieldProperties
import Flow123d.Fields.FieldSetTime
import Flow123d.Coupling.EqData
import Flow123d.Coupling.EqDataProperties
import Flow123d.Coupling.EqDataRun
import Flow123d.Input.StorageConforms
import Flow123d.Input.StorageFaithful
import Flow123d.Input.CommentFilter
import Flow123d.Input.CommentFilterProperties
import Flow123d.Mesh.RegionNumbering
import Flow123d.Mesh.RegionSets
import Flow123d.Coupling.TimeMarksProperties
import Flow123d.Flow.DarcyFlowMH
import Flow123d.Flow.DarcyFlowUnsteady
import Flow123d.Flow.LumpedFlow
import Flow123d.Mesh.GmshMeshReader
import Flow123d.Mesh.GmshSections
import Flow123d.Mesh.GmshMeshReaderProperties
import Flow123d.Mesh.ReadMesh
import Flow123d.Mesh.ReadMeshProperties
import Flow123d.Output.OutputMsh
import Flow123d.System.PrintedLines
import Flow123d.Output.OutputMshRoundTrip
import Flow123d.Output.OutputMshData
import Flow123d.Fields.FieldElementwise
import Flow123d.System.TextTokenizerLines
import Flow123d.Fields.FieldCalls
import Flow123d.Coupling.FieldCallsRun
import Flow123d.Flow.Preallocation
import Flow123d.La.Schur
import Flow123d.Flow.UpdateSolution
import Flow123d.Flow.SteadyBlocks
import Flow123d.Flow.SchurEquivalence
import Flow123d.Flow.CurrentData
import Flow123d.Mesh.SideNodes
import Flow123d.Flow.AcceptedMesh
import Flow123d.Flow.NodePressure
import Flow123d.Flow.ElementVelocity
import Flow123d.Flow.HydrostaticState
import Flow123d.Flow.BoundaryFlux
import Flow123d.Flow.WaterBalance
import Flow123d.Fem.FEPDisc
import Flow123d.Fem.FEValues
import Flow123d.Transport.TransportDG
import Flow123d.Transport.DGCurrentData
import Flow123d.Transport.DGRowSums
import Flow123d.Fem.Monomials
import Flow123d.System.MathFce
import Flow123d.System.MatInverse
import Flow123d.Library.Numberings
import Flow123d.Mesh.Partitioning
import Flow123d.Fem.DofHandler
import Flow123d.Library.Probing
import Flow123d.System.Profiler
import Flow123d.System.ProfilerTree
import Flow123d.System.ProfilerStart
import Flow123d.System.ProfilerRun
import Flow123d.Flow.MHFEValues
import Flow123d.Library.SimplexIntegral
import Flow123d.Flow.RaviartThomas
import Flow123d.Flow.ElementGeometry
import Flow123d.Flow.LocalMatrix
import Flow123d.Library.ConsecutiveBlocks
import Flow123d.La.SubmatInverse
import Flow123d.La.SubmatInverseProperties
import Flow123d.La.SubmatBlocks
import Flow123d.La.SubmatInverseExact
import Flow123d.Library.RankOneSums
import Flow123d.Flow.MortarCoupling
import Flow123d.Flow.MortarCouplingProperties
import Flow123d.Flow.MortarPromise
import Flow123d.Mesh.SharedSides
import Flow123d.Mesh.RegionFailures
import Flow123d.Mesh.ElementIds
import Flow123d.Flow.RowNumberings
import Flow123d.Mesh.ElementGraph
import Flow123d.La.SparseGraphSymmetry
import Flow123d.Coupling.SpacedMarks
import Flow123d.Coupling.CurrentMarks
import Flow123d.Coupling.CountedSteps
import Flow123d.Coupling.CountedRuns
import Flow123d.La.SubgraphConnectivity
import Flow123d.La.SubgraphParts
import Flow123d.Mesh.EdgePermutations
import Flow123d.Fem.SideQuadratures
import Flow123d.Mesh.MatchingSides
import Flow123d.Mesh.PermutedSides
import Flow123d.Transport.DGBalance
import Flow123d.Library.RowOperations
import Flow123d.Ngh.Gauss
import Flow123d.Ngh.Vectors
import Flow123d.Ngh.Inner
import Flow123d.Ngh.Bisectors
import Flow123d.Fields.FieldValues
import Flow123d.Input.DerivedRecord
import Flow123d.Input.JsonAddress
import Flow123d.Fields.FieldChanges
import Flow123d.Reaction.ZoneSorption
import Flow123d.Reaction.ZoneConservation
import Flow123d.Fields.FieldInterpolatedP0
import Flow123d.Library.ConvexPolygon
import Flow123d.Library.PlaneOrientation
import Flow123d.Library.PolygonArea
import Flow123d.Library.PlaneFrame
import Flow123d.Ngh.Polygon
import Flow123d.Ngh.PolygonHull
import Flow123d.La.LocalToGlobalMap
import Flow123d.Library.NewtonIteration
import Flow123d.Transport.OldSorption
import Flow123d.Transport.OldSorptionConservation
import Flow123d.Reaction.PadeApproximant
import Flow123d.Reaction.DualPorosityExchange
import Flow123d.Flow.InitialPressure
import Flow123d.System.SkipTo
import Flow123d.System.TextTokenizer
import Flow123d.Input.CommentLineEnds
import Flow123d.Input.AutoConversion
import Flow123d.Input.AutoConversionProperties
import Flow123d.Input.TypedStorage
import Flow123d.Input.Accessors
