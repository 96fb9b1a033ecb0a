import BehaviorTree.Blueprint
import BehaviorTree.Brain
import BehaviorTree.Leaf.Scripted
import BehaviorTree.Loading
import BehaviorTree.Ron.Config
import BehaviorTree.Ron.Value
import BehaviorTree.Proofs.Layout
import BehaviorTree.Proofs.Nested
import BehaviorTree.Proofs.Refinement
import BehaviorTree.Proofs.Runs
import BehaviorTree.Proofs.Lifecycle
import BehaviorTree.Proofs.Following
import BehaviorTree.Proofs.ActivePath
import BehaviorTree.Proofs.Pacing
import BehaviorTree.Proofs.Positions
import BehaviorTree.Proofs.Unfolding
import BehaviorTree.Proofs.Registry
import BehaviorTree.Proofs.Cursors
import BehaviorTree.Proofs.Marks
import BehaviorTree.Proofs.Executor
import BehaviorTree.Proofs.Lockstep
import BehaviorTree.Proofs.Stale
import BehaviorTree.Proofs.Copying
import BehaviorTree.Proofs.Renewal
import BehaviorTree.Proofs.Export
import BehaviorTree.Proofs.Normalization
import BehaviorTree.Proofs.Budget
import BehaviorTree.Proofs.Progress
import BehaviorTree.Proofs.Brains
import BehaviorTree.Proofs.Rounding
import BehaviorTree.Proofs.Shortest
import BehaviorTree.Proofs.Quoting
import BehaviorTree.Proofs.Pieces
import BehaviorTree.Proofs.Reading
import BehaviorTree.Proofs.Numerals
import BehaviorTree.Proofs.Saving
import BehaviorTree.Proofs.Turns
import BehaviorTree.Proofs.Visits
import BehaviorTree.Proofs.Rounds
import BehaviorTree.Proofs.Composites
import BehaviorTree.Proofs.Activations
import BehaviorTree.Proofs.Resetting
import BehaviorTree.Proofs.Tandem
import BehaviorTree.Proofs.Footprint
import BehaviorTree.Proofs.Caching
import BehaviorTree.Proofs.Counting
import BehaviorTree.Proofs.Repeating
import BehaviorTree.Proofs.Exchanging
import BehaviorTree.Proofs.Durations
import BehaviorTree.Proofs.Duality
import BehaviorTree.Proofs.Inverting
import BehaviorTree.Proofs.Flattening
import BehaviorTree.Proofs.Allocation
import BehaviorTree.Proofs.Planting
import BehaviorTree.Proofs.Overflow
import BehaviorTree.Proofs.Staggering
import BehaviorTree.Proofs.Listing
import BehaviorTree.Proofs.Inertness
import BehaviorTree.Proofs.Coercion
import BehaviorTree.Proofs.Independence
import BehaviorTree.Proofs.Frame
import BehaviorTree.Proofs.HookCalls
