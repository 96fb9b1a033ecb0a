import BehaviorTree.Files
import BehaviorTree.Graph.Template
import BehaviorTree.Ron.Graph
import BehaviorTree.Toml.Config

/-!
# Loading graphs and configuration

Graphs are kept in RON files and configuration in TOML files.  Loading reports what went wrong and
where: the file could not be read, its text could not be parsed, or its graph makes no tree.
-/

namespace BehaviorTree

/-- Why loading fails. -/
inductive LoadError
  | read (path : String) (cause : ReadError)
  | graphText
  | configText
  /-- The graph of the file at a path makes no tree. -/
  | graph (path : String) (cause : GraphError)

namespace LoadError

def message : LoadError → String
  | read path cause => "Failed to read file " ++ path ++ ": " ++ cause.message
  | graphText => "Failed to parse graph RON"
  | configText => "Failed to parse config TOML"
  | graph path cause => "Invalid behavior graph " ++ path ++ ": " ++ cause.message

end LoadError

/-- The text of the file at a path. -/
def FileStore.load (s : FileStore) (path : String) : Except LoadError String :=
  match s.read path with
  | .ok text => .ok text
  | .error e => .error (.read path e)

namespace Graph

def parse (source : String) : Except LoadError Graph :=
  match parse? source with
  | some g => .ok g
  | none => .error .graphText

def load (s : FileStore) (path : String) : Except LoadError Graph := do parse (← s.load path)

/-- The template that the graph of a file makes. -/
def loadTree {L : Type} (s : FileStore) (path : String) (registry : LeafRegistry L)
    (config : EngineConfig) : Except LoadError (Built L) := do
  let g ← load s path
  match g.build registry config with
  | .ok built => .ok built
  | .error e => .error (.graph path e)

end Graph

namespace EngineConfig

def parse (source : String) : Except LoadError EngineConfig :=
  match parse? source with
  | some c => .ok c
  | none => .error .configText

def load (s : FileStore) (path : String) : Except LoadError EngineConfig := do
  parse (← s.load path)

end EngineConfig

end BehaviorTree
