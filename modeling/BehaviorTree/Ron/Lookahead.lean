import BehaviorTree.Ron.Token

/-!
# Looking ahead in RON

What a pair of parentheses holds (named fields, several items, or one value) is not said by what
stands in front of it, so it is looked up before they are read.

* Over tokens that is plain: `holdsFields` and `holdsSeveral`.
* Where an option may hold a tuple or record without parentheses of its own, the notation has the
  lookup run over the characters instead (`Lookahead.shape?`).  It passes over strings and over
  comments, but not over a comment that touches the string in front of it: its first character is
  taken for an item, and the rest of it is looked at like any other text.  The lookup fails where it
  meets a broken comment or a string that does not end, and `Lookahead.succeeds` says that a text
  comes through this unharmed.
-/

namespace BehaviorTree.Ron

/-! ## Over tokens -/

/-- Whether parentheses, given what follows the opening one, hold named fields. -/
def holdsFields (ts : List Token) : Bool :=
  match ts with
  | .ident .. :: .mark ':' :: _ => true
  | _ => false

def isOpening (c : Char) : Bool := c == '(' || c == '[' || c == '\x7b'

def isClosing (c : Char) : Bool := c == ')' || c == ']' || c == '\x7d'

/-- Whether parentheses, given what follows the opening one and the `depth` brackets opened since,
hold more than one item. -/
def holdsSeveral : (depth : Nat) → List Token → Bool
  | _, [] => false
  | depth, .mark c :: rest =>
    if isOpening c then holdsSeveral (depth + 1) rest
    else if isClosing c then
      match depth with
      | 0 => false
      | depth + 1 => holdsSeveral depth rest
    else if c == ',' && depth == 0 then rest.head? != some (.mark ')')
    else holdsSeveral depth rest
  | depth, _ :: rest => holdsSeveral depth rest

/-- Whether parentheses, given what follows the opening one, hold anything but one value. -/
def holdsTuple (ts : List Token) : Bool :=
  holdsFields ts || holdsSeveral 0 ts || ts.head? == some (.mark ')')

namespace Lookahead

/-! ## Over characters -/

inductive Shape
  | fields
  | several
  | single
  deriving DecidableEq

/-- What comes of trying to pass over something in quotation marks. -/
inductive Passed
  /-- It is passed over, and this follows. -/
  | over (rest : List Char)
  /-- Nothing of the kind is next. -/
  | not
  /-- It does not end. -/
  | endless

/-- Passes over text between double quotation marks, given what follows the opening one and how to
read an escape.  A broken escape makes it something else, but only if a quotation mark follows that
could have closed it. -/
def passQuoted (escape? : List Char → Option (List Char)) (cs : List Char) : Passed :=
  match cs with
  | [] => .endless
  | '"' :: rest => .over rest
  | '\\' :: rest =>
    if !rest.contains '"' then .endless
    else
      match escape? rest with
      | none => .not
      | some after => if _h : after.length < rest.length + 1 then passQuoted escape? after else .not
  | _ :: rest => passQuoted escape? rest
termination_by cs.length

/-- Passes over a raw string, given what follows its `r`. -/
def passRaw (cs : List Char) : Passed :=
  let hashes := (cs.takeWhile (· == '#')).length
  match cs.drop hashes with
  | '"' :: rest =>
    match Token.rawText? hashes rest with
    | some (_, rest) => .over rest
    | none => .endless
  | _ => .not

def passChar : List Char → Passed
  | '\'' :: rest =>
    match Token.afterQuoted? rest with
    | some rest => .over rest
    | none => .not
  | _ => .not

def passString : List Char → Passed
  | '"' :: rest => passQuoted (fun cs => (Text.unescape? 3 cs).map Prod.snd) rest
  | 'r' :: rest => passRaw rest
  | _ => .not

def passBytes : List Char → Passed
  | 'b' :: '"' :: rest => passQuoted Token.afterByteEscape? rest
  | 'b' :: 'r' :: rest => passRaw rest
  | _ => .not

/-- What is left behind a character, a string and a byte string, as far as they are next; nothing
if one of them does not end. -/
def skipLiterals? (cs : List Char) : Option (List Char) :=
  [passChar, passString, passBytes].foldlM (fun cs pass =>
    match pass cs with
    | .over rest => some rest
    | .not => some cs
    | .endless => none) cs

/-- What is left behind blanks and comments, unless a comment is broken. -/
def skipGap? (cs : List Char) : Option (List Char) :=
  match Token.skipGap .blank cs with
  | some ('/' :: _) => none
  | rest => rest

/-- What a comma between items leads to: one that closes the parentheses says nothing. -/
def afterComma? (cs : List Char) : Option Shape :=
  match skipGap? cs with
  | some (')' :: _) => some .single
  | some _ => some .several
  | none => none

/-- Looks for a comma between items up to the bracket that closes the parentheses, in at most `fuel`
steps and with `depth` brackets opened on the way. -/
def scan? : (fuel depth : Nat) → List Char → Option Shape
  | 0, _, _ => none
  | fuel + 1, depth, cs =>
    match (skipGap? cs).bind skipLiterals? with
    | none | some [] => none
    | some (c :: rest) =>
      if isOpening c then scan? fuel (depth + 1) rest
      else if isClosing c then
        match depth with
        | 0 => some .single
        | depth + 1 => scan? fuel depth rest
      else if c == ',' && depth == 0 then afterComma? rest
      else scan? fuel depth rest

/-- What parentheses hold, given what follows the opening one; nothing if the lookup fails. -/
def shape? (cs : List Char) : Option Shape :=
  match skipGap? cs with
  | none | some [] => none
  | some (c :: rest) =>
    match Token.next? c rest with
    | some (.ident .., after) =>
      match skipGap? after with
      | none => none
      | some (':' :: _) => some .fields
      | some (',' :: rest) => afterComma? rest
      | some (')' :: _) => some .single
      | some rest => scan? (rest.length + 1) 0 rest
    | _ => scan? (rest.length + 2) 0 (c :: rest)

/-- Whether what the lookup finds, given what follows an opening parenthesis, fits what stands
there. -/
def fits (cs : List Char) : Bool :=
  match shape? cs with
  | none => false
  | some .single => !((Token.tokens? (String.ofList cs)).any (holdsSeveral 0))
  | some _ => true

/-- Whether the lookup succeeds behind every `Some(` of a text, looking at no more than `fuel`
tokens, where `option` says whether the latest token was `Some`. -/
def succeedsUpTo : (fuel : Nat) → (option : Bool) → List Char → Bool
  | 0, _, _ => true
  | fuel + 1, option, cs =>
    match Token.skipGap .blank cs with
    | none | some [] => true
    | some (c :: rest) =>
      match Token.next? c rest with
      | none => true
      | some (t, rest) =>
        (!(option && t == .mark '(') || fits rest) &&
          succeedsUpTo fuel (t == .ident "Some" false) rest

/-- Whether the lookup succeeds behind every `Some(` of a text. -/
def succeeds (source : String) : Bool :=
  succeedsUpTo (source.toList.length + 1) false source.toList

end Lookahead

end BehaviorTree.Ron
