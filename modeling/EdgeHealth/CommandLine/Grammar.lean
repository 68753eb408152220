import EdgeHealth.Text.Pieces

/-!
# The grammar of command lines

A command has switches, each with a long name and perhaps a letter, at most one operand, and perhaps
commands below it. Its words are read from left to right. A word of two hyphens and a name is a
switch, whose value may follow an equals sign; a word of one hyphen and letters is a cluster of
switches, the last of which may have its value in the rest of the word. Any other word is the value
of the switch before it, if that waits for one, or else the operand. After a word of two hyphens
every word is an operand.

A value is looked at when the next switch or operand is met, or at the end. So of two faults it is
not always the first that is told: a switch that is not known is told before a value that comes
ahead of it.

## Main definitions

* `UsageError` : why words are not a command line.
* `Switch`, `Grammar` : what a command takes.
* `Reading` : how far a command line has been read.
* `Grammar.read` : the arguments in the words of a command.
-/

namespace EdgeHealth

/-- Why words are not a command line. A wish for help or for the version is such a cause. -/
inductive UsageError where
  /-- A switch lacks its value, or has an empty one where that makes no sense. -/
  | missingValue (switch : String)
  /-- A value is none of those that there are. -/
  | unknownValue (argument value : String)
  /-- A value is not a number, or not one that is allowed. -/
  | badNumber (argument value : String)
  /-- A switch that takes no value has one. -/
  | unwantedValue (switch : String)
  /-- A switch comes twice. -/
  | repeated (switch : String)
  /-- A word has no place. -/
  | unknownArgument (word : String)
  /-- A word stands where a command has to stand. -/
  | unknownCommand (word : String)
  /-- There are switches but no command. -/
  | missingCommand
  /-- There is nothing. -/
  | nothingGiven
  /-- Help is asked for. -/
  | help
  /-- The version is asked for. -/
  | version
  deriving DecidableEq, Repr

/-- What a switch does to the arguments of a command. -/
inductive Effect (α : Type) where
  /-- It changes the arguments by itself. -/
  | mark (change : α → α)
  /-- It changes the arguments by its value. -/
  | take (change : String → α → Except UsageError α)
  /-- It ends the reading. -/
  | stop (cause : UsageError)

/-- A switch of a command. -/
structure Switch (α : Type) where
  /-- The name after two hyphens. -/
  long : String
  /-- The letter after one hyphen. -/
  letter : Option Char
  /-- Whether it may come more than once. -/
  repeatable : Bool
  /-- What it does. -/
  effect : Effect α

namespace Switch

variable {α β : Type}

/-- A switch without a value. -/
def mark (long : String) (change : α → α) : Switch α := ⟨long, none, false, .mark change⟩

/-- A switch with a value of its own sort. -/
def take (long : String) (change : String → α → Except UsageError α) : Switch α :=
  ⟨long, none, false, .take change⟩

/-- A switch whose value may be any text. -/
def text (long : String) (change : String → α → α) : Switch α :=
  take long fun value a => .ok (change value a)

/-- A switch whose value names a file or a directory, and is not empty. -/
def path (long : String) (change : String → α → α) : Switch α :=
  take long fun value a => if value = "" then .error (.missingValue long) else .ok (change value a)

/-- A switch whose value is a number, as `number?` reads it. -/
def number {ν : Type} (long : String) (number? : List Char → Option ν) (change : ν → α → α) :
    Switch α :=
  take long fun value a =>
    match number? value.toList with
    | some n => .ok (change n a)
    | none => .error (.badNumber long value)

/-- The switch that asks for help. -/
def help : Switch α := ⟨"help", some 'h', true, .stop .help⟩

/-- The switch that asks for the version. -/
def version : Switch α := ⟨"version", some 'V', true, .stop .version⟩

/-- A switch with a letter. -/
def withLetter (c : Char) (s : Switch α) : Switch α := { s with letter := some c }

/-- A switch that may come more than once. -/
def repeating (s : Switch α) : Switch α := { s with repeatable := true }

/-- A switch for a part of the arguments as one for all of them. -/
def within (get : α → β) (put : β → α → α) (s : Switch β) : Switch α where
  long := s.long
  letter := s.letter
  repeatable := s.repeatable
  effect :=
    match s.effect with
    | .mark change => .mark fun a => put (change (get a)) a
    | .take change => .take fun value a => (change value (get a)).map fun b => put b a
    | .stop cause => .stop cause

end Switch

/-- What a command takes. -/
structure Grammar (α : Type) where
  /-- The switches. -/
  switches : List (Switch α)
  /-- The operand, as a switch that is not named in the words. -/
  operand : Option (Switch α)
  /-- The names of the commands below. -/
  commands : List String

/-- How far the words of a command have been read. -/
structure Reading (α : Type) where
  /-- The arguments so far. -/
  arguments : α
  /-- The names of the switches that have been met. -/
  given : List String
  /-- The switch whose value has not been looked at, and the value once there is one. -/
  pending : Option (Switch α × Option String)
  /-- Whether the operand has been met. -/
  operandMet : Bool
  /-- Whether every word from here on is an operand. -/
  operandsOnly : Bool

namespace Reading

variable {α : Type}

/-- The reading before the first word. -/
def start (arguments : α) : Reading α := ⟨arguments, [], none, false, false⟩

/-- Whether a switch waits for its value. -/
def isWaiting (r : Reading α) : Bool :=
  match r.pending with
  | some (_, none) => true
  | _ => false

/-- A switch comes into effect. -/
def meet (s : Switch α) (value : Option String) (r : Reading α) : Except UsageError (Reading α) :=
  let again := r.given.contains s.long && !s.repeatable
  match s.effect, value with
  | .stop cause, _ => .error cause
  | .take _, none => .error (.missingValue s.long)
  | .take change, some value =>
    if again then .error (.repeated s.long)
    else (change value r.arguments).map fun a =>
      { r with arguments := a, given := s.long :: r.given }
  | .mark change, _ =>
    if again then .error (.repeated s.long)
    else .ok { r with arguments := change r.arguments, given := s.long :: r.given }

/-- What is pending comes into effect. -/
def settle (r : Reading α) : Except UsageError (Reading α) :=
  match r.pending with
  | some (s, value) => meet s value { r with pending := none }
  | none => .ok r

/-- A switch comes into effect after what is pending. -/
def use (s : Switch α) (value : Option String) (r : Reading α) : Except UsageError (Reading α) :=
  r.settle.bind (meet s value)

/-- A switch waits for its value, after what is pending has come into effect. -/
def await (s : Switch α) (value : Option String) (r : Reading α) :
    Except UsageError (Reading α) :=
  r.settle.map fun settled => { settled with pending := some (s, value) }

end Reading

namespace Grammar

variable {α : Type}

/-- A switch by its name, with the value after the equals sign, if there is one. -/
def long (g : Grammar α) (name : String) (value : Option String) (r : Reading α) :
    Except UsageError (Reading α) :=
  match g.switches.find? (·.long == name) with
  | none => .error (.unknownArgument s!"--{name}")
  | some s =>
    match s.effect, value with
    | .take _, none => r.await s none
    | .take _, some _ => r.use s value
    | _, some _ => .error (.unwantedValue s.long)
    | _, none => r.use s none

/-- Switches by their letters. The rest of the word is the value of one that takes a value; an
equals sign ahead of the value does not belong to it. -/
def cluster (g : Grammar α) : List Char → Reading α → Except UsageError (Reading α)
  | [], r => .ok r
  | c :: rest, r =>
    match g.switches.find? (·.letter == some c) with
    | none => .error (.unknownArgument s!"-{c}")
    | some s =>
      match s.effect with
      | .take _ =>
        match rest with
        | [] => r.await s none
        | '=' :: value => r.use s (some (String.ofList value))
        | value => r.use s (some (String.ofList value))
      | _ => (r.use s none).bind (g.cluster rest)

/-- The complaint about an operand that has no place. -/
def stray (g : Grammar α) (r : Reading α) (word : String) : UsageError :=
  if g.commands.isEmpty || (r.operandsOnly && g.commands.contains word) then .unknownArgument word
  else .unknownCommand word

/-- An operand. -/
def bare (g : Grammar α) (word : String) (r : Reading α) : Except UsageError (Reading α) :=
  match g.operand with
  | some s =>
    if r.operandMet then .error (g.stray r word)
    else (r.await s (some word)).map fun after => { after with operandMet := true }
  | none => .error (g.stray r word)

/-- A word that is no command. -/
def word (g : Grammar α) (w : String) (r : Reading α) : Except UsageError (Reading α) :=
  if r.operandsOnly then g.bare w r
  else
    match w.toList with
    | ['-', '-'] => .ok { r with operandsOnly := true }
    | '-' :: '-' :: cs =>
      match Text.cutAt? ['='] cs with
      | some (name, value) => g.long (String.ofList name) (some (String.ofList value)) r
      | none => g.long (String.ofList cs) none r
    | '-' :: c :: cs => g.cluster (c :: cs) r
    | _ =>
      match r.pending with
      | some (s, none) => .ok { r with pending := some (s, some w) }
      | _ => g.bare w r

/-- Words up to the name of a command below, and what is left from that name on. -/
def words (g : Grammar α) : List String → Reading α → Except UsageError (Reading α × List String)
  | [], r => r.settle.map fun settled => (settled, [])
  | w :: rest, r =>
    if g.commands.contains w && !r.operandsOnly && !r.isWaiting then .ok (r, w :: rest)
    else (g.word w r).bind (g.words rest)

/-- The arguments in the words of a command, over those where nothing is said. -/
def read (g : Grammar α) (standard : α) (words : List String) : Except UsageError α :=
  (g.words words (.start standard)).map fun (r, _) => r.arguments

end Grammar

end EdgeHealth
