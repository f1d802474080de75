import TradeOS.Numeric.Rounding
import TradeOS.Numeric.Binary64
import TradeOS.Numeric.Cents
import TradeOS.Numeric.Precision
import TradeOS.Numeric.Correlation
import TradeOS.Numeric.Decimal
import TradeOS.Numeric.DecimalContext
import TradeOS.Numeric.Extended
import TradeOS.Data.Programs
import TradeOS.Data.CheckedArray
import TradeOS.Data.Tables
import TradeOS.Data.Validation
import TradeOS.Data.Chain
import TradeOS.Data.Adjacent
import TradeOS.Data.GreedyIndependence
import TradeOS.Data.BestIndependent
import TradeOS.Data.GreedyScan
import TradeOS.Data.FirstMatch
import TradeOS.Data.GreedyFill
import TradeOS.Data.Ranking
import TradeOS.Data.KeepFirst
import TradeOS.Data.Latest
import TradeOS.Data.Calendar
import TradeOS.Data.DayLog
import TradeOS.Data.Grouping
import TradeOS.Data.LastWrite
import TradeOS.Data.Dictionary
import TradeOS.Data.SharedStore
import TradeOS.Data.Overlays
import TradeOS.Data.Removal
import TradeOS.Data.Indexing
import TradeOS.Data.Interleaving
import TradeOS.Data.Monitor
import TradeOS.Data.Columns
import TradeOS.Data.Wildcards
import TradeOS.Schemas
import TradeOS.Arbitration.Scorers
import TradeOS.Arbitration.Rules
import TradeOS.Arbitration.Engine
import TradeOS.Arbitration.RuleChain
import TradeOS.Arbitration.Aggregation
import TradeOS.Arbitration.Derived
import TradeOS.Arbitration.RuleEffects
import TradeOS.Arbitration.Monotonicity
import TradeOS.Arbitration.Neutrality
import TradeOS.Arbitration.Portfolio
import TradeOS.Arbitration.WellFormed
import TradeOS.Risk.Schemas
import TradeOS.Risk.Sizing
import TradeOS.Risk.Filters
import TradeOS.Risk.Planner
import TradeOS.Risk.Engine
import TradeOS.Risk.Trail
import TradeOS.Risk.SizingForm
import TradeOS.Risk.Limits
import TradeOS.Risk.Verdict
import TradeOS.Risk.Holding
import TradeOS.Risk.PlanChecks
import TradeOS.Risk.Totality
import TradeOS.Risk.Conviction
import TradeOS.Risk.LimitPrices
import TradeOS.Risk.Slices
import TradeOS.Execution.Models
import TradeOS.Execution.Simulation
import TradeOS.Execution.LimitFills
import TradeOS.Execution.Ledger
import TradeOS.Execution.CostBasis
import TradeOS.Execution.Lifecycle
import TradeOS.Execution.Sinks
import TradeOS.Execution.Runtime
import TradeOS.Execution.RuntimeProtocol
import TradeOS.Execution.SharedSinks
import TradeOS.Execution.InterleavedExecution
import TradeOS.Store.Files
import TradeOS.Store.Batching
import TradeOS.Store.Reading
import TradeOS.Store.Replay
import TradeOS.Store.ProviderRegistry
import TradeOS.Store.Merging
import TradeOS.Store.Dataset
import TradeOS.Store.Backfill
import TradeOS.Strategy.Registry
import TradeOS.Strategy.Allocation
import TradeOS.Strategy.Lifecycle
import TradeOS.Strategy.Composer
import TradeOS.Strategy.Bridge
import TradeOS.Strategy.Builders
import TradeOS.Strategy.PrefixStability
import TradeOS.Strategy.BuilderDicts
import TradeOS.Strategy.BuilderTotality
import TradeOS.Strategy.ReversionMirror
import TradeOS.Research.Result
import TradeOS.Research.Backtest
import TradeOS.Research.LookAhead
import TradeOS.Research.TradingCosts
import TradeOS.Research.AlphaFactors
import TradeOS.Research.SymbolMixing
import TradeOS.Research.DatasetRegistry
import TradeOS.Research.ExperimentRegistry
import TradeOS.Research.ExperimentHistory
import TradeOS.Research.ExperimentListings
import TradeOS.Research.FactorSets
import TradeOS.Research.DatasetHistory
import TradeOS.Research.DatasetCoherence
import TradeOS.Research.Constraints
import TradeOS.Research.Optimizer
import TradeOS.Research.Normalisation
import TradeOS.Research.Alignment
import TradeOS.Research.Labels
import TradeOS.Research.DirectionLabels
import TradeOS.Research.Drawdown
import TradeOS.Research.FactorSelection
import TradeOS.Research.SelectionOrder
import TradeOS.Research.CompositeBuilders
import TradeOS.Research.CompositeWeights
import TradeOS.Research.FactorValidation
import TradeOS.Research.RankWeights
import TradeOS.Audit.Schemas
import TradeOS.Audit.Registries
import TradeOS.Audit.Reviews
import TradeOS.Audit.FeedbackRegistry
import TradeOS.Audit.Staging
import TradeOS.Audit.Generators
import TradeOS.Audit.ScanOrder
import TradeOS.Audit.BatchAppend
import TradeOS.Audit.Samples
import TradeOS.Audit.RiskSnapshots
import TradeOS.Audit.ExecutionAudit
import TradeOS.Chan.Fractals
import TradeOS.Chan.Strokes
import TradeOS.Chan.Centers
import TradeOS.Chan.Points
import TradeOS.Chan.Engine
import TradeOS.Chan.Configs
import TradeOS.Chan.Turns
import TradeOS.Chan.FractalPrices
import TradeOS.Chan.StrokePlaces
import TradeOS.Chan.SegmentRuns
import TradeOS.Chan.CenterCover
import TradeOS.Chan.DivergencePlaces
import TradeOS.Chan.ThirdClass
import TradeOS.Chan.PointsMirror
import TradeOS.OrderFlow.Isolation
import TradeOS.OrderFlow.ExecutionQuality
import TradeOS.Sentiment.Composite
import TradeOS.Fundamental.Scorer
import TradeOS.Technical.Indicators
import TradeOS.Technical.ColumnForms
import TradeOS.Technical.Ranges
import TradeOS.Technical.Causality
import TradeOS.Technical.Patterns
import TradeOS.Technical.LocalExtrema
import TradeOS.Technical.HeadShoulders
import TradeOS.Technical.Candles
import TradeOS.Technical.Levels
import TradeOS.Technical.PivotLevels
import TradeOS.Technical.Engine
import TradeOS.Technical.DirectionMirror
import TradeOS.Technical.CandleMirror
import TradeOS.Technical.Totality
import TradeOS.Live.Modules
import TradeOS.Live.Suggestions
import TradeOS.Live.DataSources
import TradeOS.Macro.Metrics
import TradeOS.Macro.Engine
import TradeOS.Macro.Biases
import TradeOS.Macro.Votes
import TradeOS.Macro.SetOrders
import TradeOS.Research.VersionListing
import TradeOS.Data.Slots
import TradeOS.Data.StableOrder
import TradeOS.Store.BarValidator
import TradeOS.Api.Routes
import TradeOS.Api.RiskRoute
import TradeOS.Api.FullPipeline
