import ScreenGraph.Yaml.Token

/-!
# ScreenGraph.Yaml.Node

The document that the tokens of a YAML text make up, as a tree. A value that is left out is an empty
plain scalar.

An anchor is known by a number: by how many names there were when it was read. So an anchor that
takes a name over may have the number of another one. An alias has the number that its name has at
that point, and stands for the last anchor of the document with that number. It may lie inside the
node that it stands for, so it stays an alias in the tree.
-/

namespace ScreenGraph
namespace Yaml

inductive Node where
  | scalar (style : Style) (tag : Option (List UInt8)) (text : String)
  | sequence (items : List Node)
  | mapping (pairs : List (Node × Node))
  | anchored (number : Nat) (node : Node)
  | alias (number : Nat)

namespace Node

def empty : Node :=
  .scalar .plain none ""

mutual

/-- The last node in the text that has an anchor of this number. -/
def anchored? (number : Nat) : Node → Option Node
  | .scalar .. => none
  | .alias _ => none
  | .anchored k n => (n.anchored? number).or (if k = number then some n else none)
  | .sequence items => anchoredItem? number items
  | .mapping pairs => anchoredInPair? number pairs

def anchoredItem? (number : Nat) : List Node → Option Node
  | [] => none
  | n :: ns => (anchoredItem? number ns).or (n.anchored? number)

def anchoredInPair? (number : Nat) : List (Node × Node) → Option Node
  | [] => none
  | (k, v) :: ps =>
    (anchoredInPair? number ps).or ((v.anchored? number).or (k.anchored? number))

end

/-- What a node of a document is, without its own anchor, or in place of an alias. -/
def content (document : Node) : Node → Option Node
  | .anchored _ n => some n
  | .alias number => document.anchored? number
  | n => some n

end Node

/-- Tokens that are still to be read, and what the names and handles before them stand for. -/
structure Source where
  tokens : List Token
  numbers : List (String × Nat) := []
  prefixes : List (String × List UInt8)

namespace Source

def rest (s : Source) (tokens : List Token) : Source :=
  { s with tokens }

/-- Whether the next token is one of some, or there is none. -/
def nextIn (s : Source) (ts : List Token) : Bool :=
  s.tokens.head?.all ts.contains

/-- The tag of a node: `none` if its handle was not declared. -/
def tag? (s : Source) (handle : String) (suffix : List UInt8) : Option (List UInt8) :=
  if handle = "" then some suffix else (s.prefixes.lookup handle).map (· ++ suffix)

/-- What is said about a node in front of it: a name and a tag, each at most once. -/
def properties (s : Source) : Option (Option String × Option (String × List UInt8) × Source) :=
  match s.tokens with
  | .anchor a :: .tag h t :: ts => some (some a, some (h, t), s.rest ts)
  | .tag h t :: .anchor a :: ts => some (some a, some (h, t), s.rest ts)
  | .anchor a :: ts => some (some a, none, s.rest ts)
  | .tag h t :: ts => some (none, some (h, t), s.rest ts)
  | _ => none

/-- Gives the next number to a name. -/
def number (s : Source) (name : String) : Source :=
  { s with numbers := (name, s.numbers.length) :: s.numbers.filter (·.1 ≠ name) }

end Source

/-- Whether a token begins what a node consists of. -/
def opensContent (inBlock bare : Bool) : Token → Bool
  | .scalar _ _ => true
  | .flowSequence => true
  | .flowMapping => true
  | .blockSequence => inBlock
  | .blockMapping => inBlock
  | .item => bare
  | _ => false

mutual

/-- Reads a node. Only where `inBlock` may it be a block, and only where `bare` may it be items that
are no deeper than what they belong to. -/
def readNode : Nat → (inBlock bare : Bool) → Source → Option (Node × Source)
  | 0, _, _, _ => none
  | fuel + 1, inBlock, bare, s =>
    match s.tokens, s.properties with
    | .alias name :: ts, _ => (s.numbers.lookup name).map fun k => (.alias k, s.rest ts)
    | _, none => readContent fuel inBlock bare none s
    | _, some (name, tag, s) => do
      let tag ← tag.elim (some none) fun (handle, suffix) => (s.tag? handle suffix).map some
      let named := name.elim s s.number
      let (n, rest) ←
        if s.tokens.head?.any (opensContent inBlock bare) then
          readContent fuel inBlock bare tag named
        else some (.scalar .plain tag "", named)
      return (if name.isSome then .anchored s.numbers.length n else n, rest)

def readContent : Nat → (inBlock bare : Bool) → Option (List UInt8) → Source →
    Option (Node × Source)
  | 0, _, _, _, _ => none
  | fuel + 1, inBlock, bare, tag, s =>
    match s.tokens with
    | .scalar style text :: ts => some (.scalar style tag text, s.rest ts)
    | .flowSequence :: ts =>
      (readFlowItems fuel true (s.rest ts)).map fun (items, s) => (.sequence items, s)
    | .flowMapping :: ts =>
      (readFlowPairs fuel true (s.rest ts)).map fun (pairs, s) => (.mapping pairs, s)
    | .blockSequence :: ts =>
      if inBlock then
        (readItems fuel false (s.rest ts)).map fun (items, s) => (.sequence items, s)
      else none
    | .blockMapping :: ts =>
      if inBlock then
        (readPairs fuel (s.rest ts)).map fun (pairs, s) => (.mapping pairs, s)
      else none
    | .item :: _ =>
      if bare then (readItems fuel true s).map fun (items, s) => (.sequence items, s) else none
    | _ => none

/-- The items of a block. Bare ones end where no further one follows. -/
def readItems : Nat → (bare : Bool) → Source → Option (List Node × Source)
  | 0, _, _ => none
  | fuel + 1, bare, s =>
    match s.tokens with
    | .item :: ts => do
      let s := s.rest ts
      let (n, s) ←
        if s.nextIn (if bare then [.item, .key, .value, .blockEnd] else [.item, .blockEnd]) then
          some (.empty, s)
        else readNode fuel true false s
      let (ns, s) ← readItems fuel bare s
      return (n :: ns, s)
    | .blockEnd :: ts => some ([], if bare then s else s.rest ts)
    | _ => if bare then some ([], s) else none

/-- A value behind its mark, or an empty one if there is no mark. -/
def readValue : Nat → (inBlock : Bool) → (ends : List Token) → Source → Option (Node × Source)
  | 0, _, _, _ => none
  | fuel + 1, inBlock, ends, s =>
    match s.tokens with
    | .value :: ts =>
      let s := s.rest ts
      if s.nextIn ends then some (.empty, s) else readNode fuel inBlock inBlock s
    | _ => some (.empty, s)

def readPairs : Nat → Source → Option (List (Node × Node) × Source)
  | 0, _ => none
  | fuel + 1, s =>
    match s.tokens with
    | .key :: ts => do
      let s := s.rest ts
      let (k, s) ←
        if s.nextIn [.key, .value, .blockEnd] then some (.empty, s) else readNode fuel true true s
      let (v, s) ← readValue fuel true [.key, .value, .blockEnd] s
      let (ps, s) ← readPairs fuel s
      return ((k, v) :: ps, s)
    | .blockEnd :: ts => some ([], s.rest ts)
    | _ => none

/-- The items in brackets; every one but the first needs a comma in front, and a comma may be
last. -/
def readFlowItems : Nat → (first : Bool) → Source → Option (List Node × Source)
  | 0, _, _ => none
  | fuel + 1, first, s =>
    match first, s.tokens with
    | _, .flowSequenceEnd :: ts => some ([], s.rest ts)
    | false, .comma :: .flowSequenceEnd :: ts => some ([], s.rest ts)
    | false, .comma :: ts => readFlowItem fuel (s.rest ts)
    | true, _ => readFlowItem fuel s
    | false, _ => none

/-- An item that is marked as a key, or has a value, is a mapping of its own. A mark with no key
behind it takes the token after it away, whether colon, comma or bracket. -/
def readFlowItem : Nat → Source → Option (List Node × Source)
  | 0, _ => none
  | fuel + 1, s => do
    let (n, s) ←
      match s.tokens with
      | .key :: t :: ts => do
        let (k, s) ←
          if [.value, .comma, .flowSequenceEnd].contains t then some (.empty, s.rest ts)
          else readNode fuel false false (s.rest (t :: ts))
        let (v, s) ← readValue fuel false [.comma, .flowSequenceEnd] s
        some (.mapping [(k, v)], s)
      | _ => readNode fuel false false s
    let (ns, s) ← readFlowItems fuel false s
    return (n :: ns, s)

/-- The pairs in braces. -/
def readFlowPairs : Nat → (first : Bool) → Source → Option (List (Node × Node) × Source)
  | 0, _, _ => none
  | fuel + 1, first, s =>
    match first, s.tokens with
    | _, .flowMappingEnd :: ts => some ([], s.rest ts)
    | false, .comma :: .flowMappingEnd :: ts => some ([], s.rest ts)
    | false, .comma :: ts => readFlowPair fuel (s.rest ts)
    | true, _ => readFlowPair fuel s
    | false, _ => none

def readFlowPair : Nat → Source → Option (List (Node × Node) × Source)
  | 0, _ => none
  | fuel + 1, s => do
    let (p, s) ←
      match s.tokens with
      | .key :: ts => do
        let s := s.rest ts
        let (k, s) ←
          if s.nextIn [.value, .comma, .flowMappingEnd] then some (.empty, s)
          else readNode fuel false false s
        let (v, s) ← readValue fuel false [.comma, .flowMappingEnd] s
        some ((k, v), s)
      | _ => (readNode fuel false false s).map fun (k, s) => ((k, .empty), s)
    let (ps, s) ← readFlowPairs fuel false s
    return (p :: ps, s)

end

/-- The handles that need no declaration. -/
def standardPrefixes : List (String × List UInt8) :=
  [("!", Text.utf8 "!"), ("!!", Text.utf8 "tag:yaml.org,2002:")]

/-- The declarations in front of a document: at most one version, and no handle twice. -/
def declarations? : Bool → List (String × List UInt8) → List Token →
    Option (List (String × List UInt8) × List Token)
  | seen, prefixes, .version major minor :: ts =>
    if !seen && major = 1 && (minor = 1 || minor = 2) then declarations? true prefixes ts else none
  | seen, prefixes, .tagPrefix handle uri :: ts =>
    if (prefixes.lookup handle).isSome then none
    else declarations? seen ((handle, uri) :: prefixes) ts
  | _, prefixes, ts => some (prefixes ++ standardPrefixes, ts)

/-- The only document of a text. Without declarations it needs no mark in front. -/
def document? (s : String) : Option Node := do
  let tokens ← tokens? s
  let (prefixes, content) ← declarations? false [] tokens
  let fuel := 4 * tokens.length + 4
  let (n, s) ←
    match content with
    | .documentStart :: ts =>
      let s : Source := { tokens := ts, prefixes }
      if s.nextIn [.documentStart, .documentEnd] then some (.empty, s)
      else readNode fuel true false s
    | _ =>
      if content.length < tokens.length then none
      else if content.isEmpty then some (.empty, { tokens := [], prefixes })
      else readNode fuel true false { tokens, prefixes }
  if s.tokens.all (· = .documentEnd) then return n else none

end Yaml
end ScreenGraph
