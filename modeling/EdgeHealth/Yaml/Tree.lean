import EdgeHealth.Yaml.Token

/-!
# Documents of YAML texts

The structure of the document of a text and the text of its scalars. What a scalar stands for is
decided where a document is used.

The functions that call each other count down a number of steps that no list of tokens can use up.

## Main definitions

* `Yaml.Tree` : the structure of a document.
* `Yaml.nodeFrom` : the node at the start of a list of tokens.
* `Yaml.Tree.namedNodes` : the nodes of a document that have a name.
* `Yaml.read?` : the document of a text.
-/

namespace EdgeHealth.Yaml

/-- The structure of a document. -/
inductive Tree where
  /-- A scalar: its text, how it is written, and its tag. -/
  | scalar (text : String) (form : ScalarForm) (tag : Option String)
  /-- A list. -/
  | list (items : List Tree)
  /-- A mapping, with its pairs in order. -/
  | mapping (pairs : List (Tree × Tree))
  /-- A node with a name, which is a number here. -/
  | named (number : Nat) (node : Tree)
  /-- The node of a name. -/
  | reference (number : Nat)
  deriving Repr, Inhabited

/-- The scalar that stands where nothing is written. -/
def Tree.empty : Tree := .scalar "" .plain none

/-! ### Properties of nodes -/

/-- The name and the tag in front of a node. -/
structure Properties where
  /-- The number of the name. -/
  name : Option Nat
  /-- The tag. -/
  tag : Option String

/-- The handles that every document knows unless it says otherwise. -/
def standardHandles : List (String × String) := [("!", "!"), ("!!", "tag:yaml.org,2002:")]

/-- The tag that a handle and what follows it stand for; nothing for an unknown handle. -/
def fullTag? (handles : List (String × String)) (handle suffix : String) : Option String :=
  if handle.isEmpty then some suffix
  else ((handles ++ standardHandles).lookup handle).map (· ++ suffix)

/-- The name and the tag at the start of a list of tokens, in any order, and what follows. -/
def propertiesFrom? (handles : List (String × String)) :
    List Token → Option (Properties × List Token)
  | .anchor number :: .tag handle suffix :: rest =>
    (fullTag? handles handle suffix).map fun tag => (⟨some number, some tag⟩, rest)
  | .tag handle suffix :: .anchor number :: rest =>
    (fullTag? handles handle suffix).map fun tag => (⟨some number, some tag⟩, rest)
  | .tag handle suffix :: rest =>
    (fullTag? handles handle suffix).map fun tag => (⟨none, some tag⟩, rest)
  | .anchor number :: rest => some (⟨some number, none⟩, rest)
  | rest => some (⟨none, none⟩, rest)

namespace Properties

/-- A node with its name. -/
def on (p : Properties) (node : Tree) : Tree :=
  match p.name with
  | some number => .named number node
  | none => node

/-- A scalar with its properties. The mark for a tag alone says nothing of a scalar. -/
def scalar (p : Properties) (text : String) (form : ScalarForm) : Tree :=
  p.on (.scalar text form (p.tag.filter (· != "!")))

/-- The node of properties that nothing follows. -/
def alone? (p : Properties) : Option Tree :=
  if p.name.isSome || p.tag.isSome then some (p.on (.scalar "" .plain p.tag)) else none

end Properties

/-! ### Nodes -/

/-- What follows the comma before an item or a pair; no comma stands before the first one. -/
def afterComma? (first : Bool) : List Token → Option (List Token)
  | .comma :: rest => if first then some (.comma :: rest) else some rest
  | tokens => if first then some tokens else none

/-- The tokens before which no node is written in a mapping of lines. -/
def pairMarks : List Token := [.key, .value, .blockEnd]

mutual

/-- The node at the start of a list of tokens, and what follows. A structure of lines may stand
there only where `block` says so, and a list of lines that is not indented only where `flat`
does. -/
def nodeFrom (handles : List (String × String)) :
    (fuel : Nat) → (block flat : Bool) → List Token → Option (Tree × List Token)
  | 0, _, _, _ => none
  | _ + 1, _, _, .reference number :: rest => some (.reference number, rest)
  | fuel + 1, block, flat, tokens => do
    let (p, tokens) ← propertiesFrom? handles tokens
    match tokens, block, flat with
    | .scalar text form :: rest, _, _ => return (p.scalar text form, rest)
    | .listStart :: rest, _, _ =>
      let (items, rest) ← flowItems handles fuel true rest
      return (p.on (.list items), rest)
    | .mappingStart :: rest, _, _ =>
      let (pairs, rest) ← flowPairs handles fuel true rest
      return (p.on (.mapping pairs), rest)
    | .blockList :: rest, true, _ =>
      let (items, rest) ← blockItems handles fuel false rest
      return (p.on (.list items), rest)
    | .blockMapping :: rest, true, _ =>
      let (pairs, rest) ← blockPairs handles fuel rest
      return (p.on (.mapping pairs), rest)
    | .dash :: rest, _, true =>
      let (items, rest) ← blockItems handles fuel true (.dash :: rest)
      return (p.on (.list items), rest)
    | tokens, _, _ => p.alone?.map fun node => (node, tokens)

/-- The node at the start of a list of tokens, and what follows. Nothing is written where one of
`ends` stands. -/
def slotFrom (handles : List (String × String)) : (fuel : Nat) → (block flat : Bool) →
    (ends : List Token) → List Token → Option (Tree × List Token)
  | 0, _, _, _, _ => none
  | fuel + 1, block, flat, ends, tokens =>
    if tokens.head?.any ends.contains then some (.empty, tokens)
    else nodeFrom handles fuel block flat tokens

/-- The value of a pair, and what follows. -/
def valueFrom (handles : List (String × String)) : (fuel : Nat) → (block : Bool) →
    (ends : List Token) → List Token → Option (Tree × List Token)
  | 0, _, _, _ => none
  | fuel + 1, block, ends, .value :: rest => slotFrom handles fuel block block ends rest
  | _ + 1, _, _, tokens => some (.empty, tokens)

/-- The items of a list of lines, and what follows. One that is not indented ends without a
mark. -/
def blockItems (handles : List (String × String)) :
    (fuel : Nat) → (flat : Bool) → List Token → Option (List Tree × List Token)
  | 0, _, _ => none
  | fuel + 1, flat, .dash :: rest => do
    let ends := Token.dash :: if flat then pairMarks else [.blockEnd]
    let (item, rest) ← slotFrom handles fuel true false ends rest
    let (items, rest) ← blockItems handles fuel flat rest
    return (item :: items, rest)
  | _ + 1, true, rest => some ([], rest)
  | _ + 1, false, .blockEnd :: rest => some ([], rest)
  | _ + 1, false, _ => none

/-- The pairs of a mapping of lines, and what follows. -/
def blockPairs (handles : List (String × String)) :
    (fuel : Nat) → List Token → Option (List (Tree × Tree) × List Token)
  | 0, _ => none
  | fuel + 1, .key :: rest => do
    let (key, rest) ← slotFrom handles fuel true true pairMarks rest
    let (value, rest) ← valueFrom handles fuel true pairMarks rest
    let (pairs, rest) ← blockPairs handles fuel rest
    return ((key, value) :: pairs, rest)
  | _ + 1, .blockEnd :: rest => some ([], rest)
  | _ + 1, _ => none

/-- The items of a list in brackets, and what follows. A pair may stand for a mapping; if its key is
not written, the token in place of the key is passed over. -/
def flowItems (handles : List (String × String)) :
    (fuel : Nat) → (first : Bool) → List Token → Option (List Tree × List Token)
  | 0, _, _ => none
  | _ + 1, _, .listEnd :: rest => some ([], rest)
  | fuel + 1, first, tokens => do
    match ← afterComma? first tokens with
    | .listEnd :: rest => return ([], rest)
    | .key :: rest =>
      let bare := rest.head?.any [.value, .comma, .listEnd].contains
      let (key, rest) ←
        if bare then some (Tree.empty, rest.drop 1) else nodeFrom handles fuel false false rest
      let (value, rest) ← valueFrom handles fuel false [.comma, .listEnd] rest
      let (items, rest) ← flowItems handles fuel false rest
      return (.mapping [(key, value)] :: items, rest)
    | tokens =>
      let (item, rest) ← nodeFrom handles fuel false false tokens
      let (items, rest) ← flowItems handles fuel false rest
      return (item :: items, rest)

/-- The pairs of a mapping in braces, and what follows. A node alone is a key. -/
def flowPairs (handles : List (String × String)) :
    (fuel : Nat) → (first : Bool) → List Token → Option (List (Tree × Tree) × List Token)
  | 0, _, _ => none
  | _ + 1, _, .mappingEnd :: rest => some ([], rest)
  | fuel + 1, first, tokens => do
    match ← afterComma? first tokens with
    | .mappingEnd :: rest => return ([], rest)
    | .key :: rest =>
      let (key, rest) ← slotFrom handles fuel false false [.value, .comma, .mappingEnd] rest
      let (value, rest) ← valueFrom handles fuel false [.comma, .mappingEnd] rest
      let (pairs, rest) ← flowPairs handles fuel false rest
      return ((key, value) :: pairs, rest)
    | tokens =>
      let (key, rest) ← nodeFrom handles fuel false false tokens
      let (pairs, rest) ← flowPairs handles fuel false rest
      return ((key, .empty) :: pairs, rest)

end

/-! ### Documents -/

/-- Whether a token belongs to the start of a document. -/
def Token.startsDocument : Token → Bool
  | .version _ _ => true
  | .handle _ _ => true
  | .documentStart => true
  | _ => false

/-- The handles that the directives before a document define, and what follows. The version can be
said only once and each handle only once. -/
def directivesFrom? (versioned : Bool) (handles : List (String × String)) :
    List Token → Option (List (String × String) × List Token)
  | .version major minor :: rest =>
    if !versioned && major = 1 && (minor = 1 || minor = 2) then directivesFrom? true handles rest
    else none
  | .handle name lead :: rest =>
    if (handles.lookup name).isSome then none
    else directivesFrom? versioned ((name, lead) :: handles) rest
  | rest => some (handles, rest)

/-- The document at the start of a list of tokens, and what follows. Its start may go without a
mark. -/
def documentFrom? (tokens : List Token) : Option (Tree × List Token) :=
  let fuel := 4 * tokens.length + 4
  if tokens.head?.any Token.startsDocument then do
    match ← directivesFrom? false [] tokens with
    | (handles, .documentStart :: rest) =>
      if rest.head?.all fun t => t.startsDocument || t == .documentEnd then return (.empty, rest)
      else nodeFrom handles fuel true false rest
    | _ => none
  else nodeFrom [] fuel true false tokens

/-- The document of a text that holds at most one; a text without a document is an empty one. -/
def read? (text : String) : Option Tree := do
  let tokens ← tokens? text
  if tokens.isEmpty then return .empty
  else
    let (tree, rest) ← documentFrom? tokens
    if rest.all (· == .documentEnd) then return tree else none

/-! ### Names -/

namespace Tree

mutual

/-- The nodes of a document that have a name, in order. -/
def namedNodes : Tree → List (Nat × Tree)
  | .scalar _ _ _ => []
  | .list items => namedItems items
  | .mapping pairs => namedPairs pairs
  | .named number node => (number, node) :: namedNodes node
  | .reference _ => []

/-- The nodes of a list that have a name, in order. -/
def namedItems : List Tree → List (Nat × Tree)
  | [] => []
  | item :: rest => namedNodes item ++ namedItems rest

/-- The nodes of a mapping that have a name, in order. -/
def namedPairs : List (Tree × Tree) → List (Nat × Tree)
  | [] => []
  | (key, value) :: rest => namedNodes key ++ namedNodes value ++ namedPairs rest

end

/-- The node that a node stands for: a name stands for the last node that has it. -/
def target (known : List (Nat × Tree)) : Tree → Tree
  | .named _ node => node
  | .reference number => (known.reverse.lookup number).getD .empty
  | t => t

end Tree

end EdgeHealth.Yaml
