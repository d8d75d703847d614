import LogRelay.Yaml.Token

/-!
The document of a YAML text as a tree, with its anchors and aliases still in place. A text holds one
document; directives may come before it.
-/

namespace LogRelay.Yaml

/-- What is written in front of a node. -/
structure Properties where
  anchor : Option (List Char) := none
  tag : Option (List Char) := none
  deriving DecidableEq, Repr

/-- On a scalar the tag `!` says no more than no tag. -/
def Properties.ofScalar (p : Properties) : Properties :=
  if p.tag = some ['!'] then { p with tag := none } else p

inductive Node where
  | alias (name : List Char)
  | scalar (properties : Properties) (text : List Char) (style : Style)
  | sequence (properties : Properties) (items : List Node)
  | mapping (properties : Properties) (pairs : List (Node × Node))
  deriving Repr

namespace Node

def empty (p : Properties) : Node := scalar p [] .plain

/-- The handles of tags and what they stand for. -/
abbrev Handles := List (List Char × List Char)

/-- The handles that need no directive. -/
def standardHandles : Handles :=
  [(['!'], ['!']), (['!', '!'], "tag:yaml.org,2002:".toList)]

/-- The full text of a tag; its handle must be known. -/
def resolveTag? (handles : Handles) (handle suffix : List Char) : Option (List Char) :=
  if handle.isEmpty then some suffix else (handles.lookup handle).map (· ++ suffix)

def properties? (handles : Handles) : List Token → Option (Properties × List Token)
  | .anchor name :: .tag handle suffix :: rest => do
    return (⟨some name, some (← resolveTag? handles handle suffix)⟩, rest)
  | .tag handle suffix :: .anchor name :: rest => do
    return (⟨some name, some (← resolveTag? handles handle suffix)⟩, rest)
  | .anchor name :: rest => some (⟨some name, none⟩, rest)
  | .tag handle suffix :: rest => do
    return (⟨none, some (← resolveTag? handles handle suffix)⟩, rest)
  | rest => some ({}, rest)

/-- Where a node stands decides which collections it may be. -/
inductive Context where
  /-- In a flow collection. -/
  | flow
  /-- In a block collection. -/
  | block
  /-- In a block mapping, whose sequences need no indentation of their own. -/
  | blockMapping
  deriving DecidableEq, Repr

/-- Whether a node in a block mapping is left out before that token. -/
def endsMappingNode : Token → Bool
  | .key | .value | .blockEnd => true
  | _ => false

mutual

def parse? (handles : Handles) : (fuel : Nat) → Context → List Token → Option (Node × List Token)
  | 0, _, _ => none
  | fuel + 1, context, tokens =>
    match tokens with
    | .alias name :: rest => some (.alias name, rest)
    | _ => do
      let (p, rest) ← properties? handles tokens
      match rest with
      | .blockEntry :: _ =>
        if context = .blockMapping then parseIndentless? handles fuel p [] rest
        else if p = {} then none else return (empty p, rest)
      | .scalar text style :: rest => return (.scalar p.ofScalar text style, rest)
      | .flowSequenceStart :: rest => parseFlowSequence? handles fuel p [] rest
      | .flowMappingStart :: rest => parseFlowMapping? handles fuel p [] rest
      | .blockSequenceStart :: after =>
        if context = .flow then (if p = {} then none else return (empty p, rest))
        else parseBlockSequence? handles fuel p [] after
      | .blockMappingStart :: after =>
        if context = .flow then (if p = {} then none else return (empty p, rest))
        else parseBlockMapping? handles fuel p [] after
      | _ => if p = {} then none else return (empty p, rest)

/-- The entries of a block sequence after those read. -/
def parseBlockSequence? (handles : Handles) :
    (fuel : Nat) → Properties → List Node → List Token → Option (Node × List Token)
  | 0, _, _, _ => none
  | fuel + 1, p, items, tokens =>
    match tokens with
    | .blockEnd :: rest => some (.sequence p items, rest)
    | .blockEntry :: rest =>
      match rest with
      | .blockEntry :: _ | .blockEnd :: _ =>
        parseBlockSequence? handles fuel p (items ++ [empty {}]) rest
      | _ => do
        let (item, rest) ← parse? handles fuel .block rest
        parseBlockSequence? handles fuel p (items ++ [item]) rest
    | _ => none

/-- The entries of a block sequence at the indentation of the mapping around it. -/
def parseIndentless? (handles : Handles) :
    (fuel : Nat) → Properties → List Node → List Token → Option (Node × List Token)
  | 0, _, _, _ => none
  | fuel + 1, p, items, tokens =>
    match tokens with
    | .blockEntry :: rest =>
      match rest with
      | .blockEntry :: _ | .key :: _ | .value :: _ | .blockEnd :: _ =>
        parseIndentless? handles fuel p (items ++ [empty {}]) rest
      | _ => do
        let (item, rest) ← parse? handles fuel .block rest
        parseIndentless? handles fuel p (items ++ [item]) rest
    | _ => some (.sequence p items, tokens)

/-- The pairs of a block mapping after those read. -/
def parseBlockMapping? (handles : Handles) :
    (fuel : Nat) → Properties → List (Node × Node) → List Token → Option (Node × List Token)
  | 0, _, _, _ => none
  | fuel + 1, p, pairs, tokens =>
    match tokens with
    | .blockEnd :: rest => some (.mapping p pairs, rest)
    | .key :: rest => do
      let (k, rest) ← parseMappingNode? handles fuel rest
      let (v, rest) ←
        match rest with
        | .value :: rest => parseMappingNode? handles fuel rest
        | _ => some (empty {}, rest)
      parseBlockMapping? handles fuel p (pairs ++ [(k, v)]) rest
    | _ => none

/-- A key or value of a block mapping, which may be left out. -/
def parseMappingNode? (handles : Handles) : (fuel : Nat) → List Token → Option (Node × List Token)
  | 0, _ => none
  | fuel + 1, tokens =>
    if (tokens.head?.map endsMappingNode).getD true then some (empty {}, tokens)
    else parse? handles fuel .blockMapping tokens

/-- The items of a flow sequence after those read; a pair among them is a mapping of its own. -/
def parseFlowSequence? (handles : Handles) :
    (fuel : Nat) → Properties → List Node → List Token → Option (Node × List Token)
  | 0, _, _, _ => none
  | fuel + 1, p, items, tokens => do
    let tokens ←
      match tokens with
      | .flowSequenceEnd :: _ => some tokens
      | .flowEntry :: rest => if items.isEmpty then some tokens else some rest
      | _ => if items.isEmpty then some tokens else none
    match tokens with
    | .flowSequenceEnd :: rest => some (.sequence p items, rest)
    | .key :: rest =>
      let (k, rest) ←
        match rest with
        | .value :: after | .flowEntry :: after | .flowSequenceEnd :: after =>
          some (empty {}, after)
        | _ => parse? handles fuel .flow rest
      let (v, rest) ←
        match rest with
        | .value :: .flowEntry :: _ | .value :: .flowSequenceEnd :: _ =>
          some (empty {}, rest.drop 1)
        | .value :: rest => parse? handles fuel .flow rest
        | _ => some (empty {}, rest)
      parseFlowSequence? handles fuel p (items ++ [.mapping {} [(k, v)]]) rest
    | _ =>
      let (item, rest) ← parse? handles fuel .flow tokens
      parseFlowSequence? handles fuel p (items ++ [item]) rest

/-- The pairs of a flow mapping after those read. -/
def parseFlowMapping? (handles : Handles) :
    (fuel : Nat) → Properties → List (Node × Node) → List Token → Option (Node × List Token)
  | 0, _, _, _ => none
  | fuel + 1, p, pairs, tokens => do
    let tokens ←
      match tokens with
      | .flowMappingEnd :: _ => some tokens
      | .flowEntry :: rest => if pairs.isEmpty then some tokens else some rest
      | _ => if pairs.isEmpty then some tokens else none
    match tokens with
    | .flowMappingEnd :: rest => some (.mapping p pairs, rest)
    | .key :: rest =>
      let (k, rest) ←
        match rest with
        | .value :: _ | .flowEntry :: _ | .flowMappingEnd :: _ => some (empty {}, rest)
        | _ => parse? handles fuel .flow rest
      let (v, rest) ←
        match rest with
        | .value :: .flowEntry :: _ | .value :: .flowMappingEnd :: _ =>
          some (empty {}, rest.drop 1)
        | .value :: rest => parse? handles fuel .flow rest
        | _ => some (empty {}, rest)
      parseFlowMapping? handles fuel p (pairs ++ [(k, v)]) rest
    | _ =>
      let (k, rest) ← parse? handles fuel .flow tokens
      parseFlowMapping? handles fuel p (pairs ++ [(k, empty {})]) rest

end

/-- The directives in front of a document: at most one version, 1.1 or 1.2, and each handle once. -/
def directives? : (version : Bool) → Handles → List Token → Option (Handles × List Token)
  | version, handles, .versionDirective major minor :: rest =>
    if version ∨ major ≠ 1 ∨ (minor ≠ 1 ∧ minor ≠ 2) then none
    else directives? true handles rest
  | version, handles, .tagDirective handle lead :: rest =>
    if handles.any (·.1 == handle) then none
    else directives? version (handles ++ [(handle, lead)]) rest
  | _, handles, tokens => some (handles, tokens)

/-- The only document of a text; `none` inside when there is no document at all. -/
def ofTokens? (tokens : List Token) : Option (Option Node) := do
  if tokens.isEmpty then return none
  let (own, rest) ← directives? false [] tokens
  let handles := own ++ standardHandles
  let explicit := rest.head? = some .documentStart
  if rest.length < tokens.length ∧ ¬ explicit then none
  let rest := if explicit then rest.drop 1 else rest
  let fuel := 4 * tokens.length + 4
  let (node, rest) ←
    match rest with
    | [] => if explicit then some (empty {}, []) else none
    | .versionDirective .. :: _ | .tagDirective .. :: _ | .documentStart :: _ =>
      some (empty {}, rest)
    | .documentEnd :: _ => if explicit then some (empty {}, rest) else none
    | _ => parse? handles fuel .block rest
  if (rest.dropWhile (· = .documentEnd)).isEmpty then return some node else none

end Node

end LogRelay.Yaml
