/-!
# Vocabularies: closed sets of names

Statuses, composite kinds, comparison operators and node tags are written by name, each from a
closed list.  A `Vocabulary` gives the members in a fixed order and the name of each;
`Vocabulary.read` turns a text back into the member it names.

* `Vocabulary.read` accepts a text exactly when it is the name of a member, where a vocabulary may
  ask that the case of ASCII letters be ignored (`sameIgnoringCase`).  No blank is trimmed and no
  letter outside ASCII is folded, so `ſelector` names nothing.
-/

namespace BehaviorTree

/-- Two texts that are the same once every ASCII capital is written small. -/
def sameIgnoringCase (a b : String) : Bool :=
  a.toList.map Char.toLower == b.toList.map Char.toLower

/-- A finite type whose members are written by name. -/
class Vocabulary (α : Type) where
  /-- Every member, in the order in which a name is looked up. -/
  members : List α
  name : α → String
  /-- Whether reading a name ignores the case of ASCII letters. -/
  ignoresCase : Bool

/-- Why a text is not read as a member of a vocabulary. -/
inductive VocabularyError
  /-- No member carries the name. -/
  | unknownName
  deriving DecidableEq

namespace VocabularyError

def message : VocabularyError → String
  | unknownName => "Matching variant not found"

end VocabularyError

namespace Vocabulary

variable {α : Type} [Vocabulary α]

/-- Whether `text` is the name of `member` under the vocabulary's rule on case. -/
def names (member : α) (text : String) : Bool :=
  if ignoresCase α then sameIgnoringCase (name member) text else name member == text

/-- The member that `text` names. -/
def read (text : String) : Except VocabularyError α :=
  match (members : List α).find? (names · text) with
  | some member => .ok member
  | none => .error .unknownName

end Vocabulary

end BehaviorTree
