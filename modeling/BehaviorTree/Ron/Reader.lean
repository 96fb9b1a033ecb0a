import BehaviorTree.Ron.Lookahead
import BehaviorTree.Ron.Number

/-!
# Reading RON by type

RON is read by type: what a token may be depends on the type that is being read.  A `Reader` takes
a value off the front of a list of tokens and leaves the rest.  The readers of this file are those
of the notation itself; the readers of the library's types are composed of them.

Values may nest only to a certain depth (`deeper`), which is also why reading values of a recursive
type ends.

Three extensions, which a text enables by an attribute at its top, change what is accepted
(`Extensions`).
-/

namespace BehaviorTree.Ron

/-- The extensions that a text has enabled. -/
structure Extensions where
  /-- An optional value may stand without `Some`. -/
  implicitSome : Bool
  /-- A tuple or record in `Some` or in a variant stands without parentheses of its own. -/
  unwrapVariantNewtypes : Bool
  /-- Records must carry their name. -/
  explicitStructNames : Bool

namespace Extensions

def none : Extensions := ⟨false, false, false⟩

/-- Enables the extension of a name; `unwrap_newtypes` concerns no type of this library. -/
def enable? (e : Extensions) (name : String) : Option Extensions :=
  if name == "unwrap_newtypes" then some e
  else if name == "implicit_some" then some { e with implicitSome := true }
  else if name == "unwrap_variant_newtypes" then some { e with unwrapVariantNewtypes := true }
  else if name == "explicit_struct_names" then some { e with explicitStructNames := true }
  else Option.none

end Extensions

/-- What a reader works under: the extensions, and how much deeper values may nest. -/
structure Setting where
  extensions : Extensions
  depth : Nat

def Reader (α : Type) : Type := Setting → List Token → Option (α × List Token)

namespace Reader

variable {α β σ : Type}

def pure (a : α) : Reader α := fun _ ts => some (a, ts)

def fail : Reader α := fun _ _ => none

/-- One reader and then another. -/
def bind (r : Reader α) (f : α → Reader β) : Reader β := fun s ts =>
  match r s ts with
  | some (a, rest) => f a s rest
  | none => none

instance : Monad Reader where
  pure := pure
  bind := bind

/-- A value one level deeper. -/
def deeper (r : Reader α) : Reader α := fun s ts =>
  match s.depth with
  | 0 => none
  | depth + 1 => r { s with depth } ts

def extensions : Reader Extensions := fun s ts => some (s.extensions, ts)

/-! ## Single tokens -/

/-- Whether the next token is a given one. -/
def nextIs (t : Token) : Reader Bool := fun _ ts => some (ts.head? == some t, ts)

def expect (t : Token) : Reader Unit := fun _ ts =>
  match ts with
  | t' :: rest => if t' = t then some ((), rest) else none
  | [] => none

/-- Takes a given token if it is next, and says whether it was. -/
def optional (t : Token) : Reader Bool := fun _ ts =>
  match ts with
  | t' :: rest => some (if t' = t then (true, rest) else (false, ts))
  | [] => some (false, [])

def openParen : Reader Unit := expect (.mark '(')

def closeParen : Reader Unit := expect (.mark ')')

/-- Takes a comma if one is next, and says whether it did. -/
def comma : Reader Bool := optional (.mark ',')

/-- Takes an identifier, raw or not. -/
def identifier : Reader String := fun _ ts =>
  match ts with
  | .ident name _ :: rest => some (name, rest)
  | _ => none

/-! ## Scalars -/

def bool : Reader Bool := fun _ ts =>
  match ts with
  | .ident "true" false :: rest => some (true, rest)
  | .ident "false" false :: rest => some (false, rest)
  | _ => none

def text : Reader String := fun _ ts =>
  match ts with
  | .text s :: rest => some (s, rest)
  | _ => none

/-- Takes an integer of the type called `suffix`, which reaches from `low` to `high`. -/
def integer (suffix : String) (low high : Int) : Reader Int := fun _ ts =>
  match ts with
  | .number text :: rest => (Number.integer? suffix low high text).map fun n => (n, rest)
  | _ => none

def float (suffix : String) (ofDecimal : Text.Decimal → α) (ofDatum : Binary.Datum → α) :
    Reader α := fun _ ts =>
  match ts with
  | .number text :: rest | .ident text false :: rest =>
    (Number.float? suffix ofDecimal ofDatum text).map fun x => (x, rest)
  | _ => none

def binary64 : Reader Binary64 := float "f64" .nearest .ofDatum

def binary32 : Reader Binary32 := float "f32" .nearest .ofDatum

def uint64 : Reader UInt64 := do return (← integer "u64" 0 (UInt64.size - 1)).toNat.toUInt64

def uint32 : Reader UInt32 := do return (← integer "u32" 0 (UInt32.size - 1)).toNat.toUInt32

def int64 : Reader Int64 := do
  return Int64.ofInt (← integer "i64" Int64.minValue.toInt Int64.maxValue.toInt)

/-! ## Items separated by commas -/

/-- Takes items up to a closing token, which it leaves, each handed to `item` with what the items
before it came to.  Items are separated by commas, and one may follow the last; a reader that takes
no token ends the reading. -/
def itemsFrom (close : Token) (item : σ → Reader σ) : (fuel : Nat) → σ → Reader σ
  | 0, _ => fail
  | fuel + 1, acc => fun s ts =>
    if ts.head? = some close then some (acc, ts)
    else
      match item acc s ts with
      | none => none
      | some (acc, rest) =>
        match rest with
        | .mark ',' :: rest => itemsFrom close item fuel acc s rest
        | _ => if rest.head? = some close then some (acc, rest) else none

/-- Takes items and the closing token behind them.  Every item but the last brings a comma, so
there are at most as many as tokens. -/
def items (close : Token) (item : σ → Reader σ) (start : σ) : Reader σ := fun s ts =>
  match itemsFrom close item (ts.length + 1) start s ts with
  | some (acc, _ :: rest) => some (acc, rest)
  | _ => none

def list (item : Reader α) : Reader (List α) := do
  expect (.mark '[')
  let found ← deeper <| items (.mark ']') (fun acc => do return (← deeper item) :: acc) []
  return found.reverse

/-- Takes a map in braces, as its entries in order. -/
def map (key : Reader α) (value : Reader β) : Reader (List (α × β)) := do
  expect (.mark '\x7b')
  let entry (acc : List (α × β)) : Reader (List (α × β)) := do
    let k ← deeper key
    expect (.mark ':')
    let v ← deeper value
    return (k, v) :: acc
  let found ← deeper <| items (.mark '\x7d') entry []
  return found.reverse

/-- Takes a pair in parentheses, which it leaves out if `bare`.  A comma may follow the second
component. -/
def pair (bare : Bool) (first : Reader α) (second : Reader β) : Reader (α × β) := do
  if !bare then openParen
  let (a, b) ← deeper do
    let a ← deeper first
    expect (.mark ',')
    let b ← deeper second
    let _ ← comma
    return (a, b)
  if !bare then closeParen
  return (a, b)

/-! ## Options and variants -/

/-- Takes `Some(…)` or `None`.  The reader of the content is told whether a tuple or record stands
without parentheses of its own. -/
def option (content : (bare : Bool) → Reader α) : Reader (Option α) := fun s ts =>
  match ts with
  | .ident "None" false :: rest => some (none, rest)
  | .ident "Some" false :: .mark '(' :: rest =>
    let inside : Reader (Option α) := do
      let a ← deeper (content s.extensions.unwrapVariantNewtypes)
      let _ ← comma
      closeParen
      return some a
    inside s rest
  | .ident "Some" false :: rest =>
    if s.extensions.implicitSome then (deeper (content false)).bind (fun a => pure (some a)) s rest
    else none
  | ts =>
    if s.extensions.implicitSome then (deeper (content false)).bind (fun a => pure (some a)) s ts
    else none

/-- Takes a variant: its name, and then what `content` takes for that name. -/
def variant (content : String → Reader α) : Reader α :=
  deeper do content (← deeper identifier)

/-- Takes the content of a variant that wraps one value. -/
def wrapped (content : Reader α) : Reader α := do
  openParen
  let a ← deeper content
  let _ ← comma
  closeParen
  return a

/-! ## Values of no particular type -/

/-- Whether an identifier is a word of the notation itself, which no parentheses may follow. -/
def isWord (name : String) : Bool :=
  ["true", "false", "None", "inf", "NaN", "inff32", "inff64", "NaNf32", "NaNf64"].contains name

/-- Takes any value, nested at most `fuel` deep, and forgets it. -/
def anyUpTo : (fuel : Nat) → Reader Unit
  | 0 => fail
  | fuel + 1 => fun s ts =>
    let any : Reader Unit := anyUpTo fuel
    let bracketed (close : Char) (item : Reader Unit) : Reader Unit :=
      deeper (items (.mark close) (fun _ => item) ())
    let field : Reader Unit := do
      let _ ← deeper identifier
      expect (.mark ':')
      deeper any
    let entry : Reader Unit := do
      deeper any
      expect (.mark ':')
      deeper any
    let fieldsOrItems (rest : List Token) : Reader Unit :=
      bracketed ')' (if holdsFields rest then field else deeper any)
    match ts with
    | .ident "Some" false :: .mark '(' :: rest =>
      if s.extensions.unwrapVariantNewtypes && holdsTuple rest then
        deeper (fieldsOrItems rest) s rest
      else wrapped any s (ts.drop 1)
    | .ident "Some" false :: rest => if s.extensions.implicitSome then deeper any s rest else none
    | .mark '(' :: rest => fieldsOrItems rest s rest
    | .ident name raw :: .mark '(' :: rest =>
      if !raw && isWord name then none else fieldsOrItems rest s rest
    | .ident .. :: rest => some ((), rest)
    | .mark '[' :: rest => bracketed ']' (deeper any) s rest
    | .mark '\x7b' :: rest => bracketed '\x7d' entry s rest
    | .number text :: rest => if Number.isAny text then some ((), rest) else none
    | .text _ :: rest => some ((), rest)
    | .literal :: rest => some ((), rest)
    | _ => none

/-- Takes any value and forgets it; it cannot nest deeper than the depth that is left. -/
def any : Reader Unit := fun s ts => anyUpTo (s.depth + 1) s ts

/-! ## Records -/

/-- Takes the fields of a record up to its closing parenthesis, which it takes too.  `field` says
what to do with a name: read a value into what the record has come to so far, or, for a name that
it does not know, nothing. -/
def fields (field : String → Option (σ → Reader σ)) (start : σ) : Reader σ :=
  let item (acc : σ) : Reader σ := do
    let name ← deeper identifier
    expect (.mark ':')
    match field name with
    | some read => deeper (read acc)
    | none => do
      deeper any
      return acc
  deeper (items (.mark ')') item start)

/-- A field that may be given once: reads it if it was not there, and refuses it if it was. -/
def once (value : Option α) (read : Reader α) (put : α → σ) : Reader σ :=
  match value with
  | some _ => fail
  | none => do return put (← read)

/-- The body of a record in parentheses. -/
def body (field : String → Option (σ → Reader σ)) (start : σ) : Reader σ := do
  openParen
  fields field start

/-- Takes a record: its name, which may be left out unless an extension asks for it, and its
fields. -/
def record (name : String) (field : String → Option (σ → Reader σ)) (start : σ) : Reader σ :=
  fun s ts =>
    match ts with
    | .ident found _ :: rest => if found = name then body field start s rest else none
    | _ => if s.extensions.explicitStructNames then none else body field start s ts

end Reader

/-! ## Whole texts -/

/-- The attributes at the top of a text, at most `fuel` of them, and what follows them. -/
def attributes? : (fuel : Nat) → Extensions → List Token → Option (Extensions × List Token)
  | 0, _, _ => none
  | fuel + 1, e, ts =>
    match ts with
    | .mark '#' :: .mark '!' :: .mark '[' :: .ident "enable" false :: .mark '(' :: rest =>
      match names? rest.length e rest with
      | some (e, .mark ']' :: rest) => attributes? fuel e rest
      | _ => none
    | .mark '#' :: _ => none
    | ts => some (e, ts)
where
  /-- The names of at least one extension, separated by commas, and the closing parenthesis. -/
  names? : (fuel : Nat) → Extensions → List Token → Option (Extensions × List Token)
    | 0, _, _ => none
    | fuel + 1, e, .ident name _ :: rest =>
      match e.enable? name with
      | none => none
      | some e =>
        match rest with
        | .mark ')' :: rest => some (e, rest)
        | .mark ',' :: .mark ')' :: rest => some (e, rest)
        | .mark ',' :: rest => names? fuel e rest
        | _ => none
    | _, _, _ => none

/-- How deep values may nest. -/
def maxDepth : Nat := 128

/-- Reads a whole text. -/
def parse? {α : Type} (reader : Reader α) (source : String) : Option α :=
  match Token.tokens? source with
  | none => none
  | some ts =>
    match attributes? (ts.length + 1) .none ts with
    | none => none
    | some (extensions, ts) =>
      if extensions.unwrapVariantNewtypes && !Lookahead.succeeds source then none
      else
        match reader ⟨extensions, maxDepth⟩ ts with
        | some (a, []) => some a
        | _ => none

end BehaviorTree.Ron
