import EdgeHealth.Json.Skip

/-!
# Shapes of JSON values

What a text has to hold, as data, and how a value of that shape is read. A text is read from its
start, and the first thing that is not as it should be is told with its place. What is read is a
value again, in a standard form: the fields of a record in the order of its shape, without those
that have no value and with those that always have one.

A fault of a record as a whole is told where the record ends if it ends right there, and else where
it goes on.

## Main definitions

* `Json.Shape` : a shape.
* `Json.Shape.Field`, `Json.Manner` : the fields of a record, and what becomes of other members.
* `Json.Shape.read` : the value of a shape in a text.
-/

namespace EdgeHealth

namespace Json

/-- What becomes of the members of a record beside its fields, and of a field that comes again. -/
inductive Manner where
  /-- Other members are passed over, and the last field of a name counts. -/
  | lenient
  /-- Other members are passed over, and no field may come again. -/
  | strict
  /-- Other members are kept, behind the fields, and no field may come again. -/
  | keeping
  deriving DecidableEq, Repr

/-- What a text has to hold. -/
inductive Shape where
  /-- A text. -/
  | text
  /-- One text and no other. It says what a record is, which is known already, and is left out. -/
  | word (w : String)
  /-- A truth value. -/
  | truth
  /-- An integer from `lo` to `hi`. -/
  | integer (lo hi : Int) (name : String)
  /-- A point in time. -/
  | moment
  /-- Any value. -/
  | anything
  /-- A value of a shape, or `null`, which stands for `instead`. -/
  | orNull (shape : Shape) (instead : Json)
  /-- A list. -/
  | list (item : Shape)
  /-- Named values, which are put in the order of their names. -/
  | table (value : Shape)
  /-- A record: its name, its manner and its fields, each with its name, its value if it is missing,
  and its shape. A field without such a value has to be there, and a field that is `null` is left
  out. -/
  | record (name : String) (manner : Manner) (fields : List (String × Option Json × Shape))

namespace Shape

/-- A field of a record: its name, its value if it is missing, and its shape. -/
abbrev Field := String × Option Json × Shape

/-- A field that may be missing or `null`. -/
def maybe (name : String) (shape : Shape) : Field := (name, some .null, .orNull shape .null)

/-- A field that has a value of its own where it is missing or `null`. -/
def standing (name : String) (v : Json) (shape : Shape) : Field := (name, some v, .orNull shape v)

/-! ### Scalars -/

/-- The fault that a text does not start with what is expected. A list or an object is told where
it starts, all else where it ends. -/
def refuse {α : Type} (expected : String) : List Char → Except Stop α
  | '[' :: rest => stopBefore (.mismatch (.type (.array []) expected)) ('[' :: rest)
  | '\x7b' :: rest => stopBefore (.mismatch (.type (.object []) expected)) ('\x7b' :: rest)
  | cs => (anyFrom 1 cs).bind fun (v, rest) => stopBefore (.mismatch (.type v expected)) rest

/-- A text. -/
def textFrom : List Char → Step String
  | '\x22' :: rest => stringAfter rest
  | cs => refuse "a string" cs

/-- A truth value. -/
def truthFrom (cs : List Char) : Step Json :=
  if cs.head? = some 't' || cs.head? = some 'f' then anyFrom 1 cs else refuse "a boolean" cs

/-- An integer. -/
def integerFrom (lo hi : Int) (name : String) (cs : List Char) : Step Json :=
  if cs.head?.any fun c => c == '-' || c.isDigit then
    (anyFrom 1 cs).bind fun (v, rest) =>
      match v with
      | .int i =>
        if lo ≤ i && i ≤ hi then .ok (v, rest) else stopBefore (.mismatch (.value v name)) rest
      | _ => stopBefore (.mismatch (.type v name)) rest
  else refuse name cs

/-- A point in time, as it is written in universal time. -/
def momentFrom : List Char → Step Json
  | '\x22' :: rest =>
    (stringAfter rest).bind fun (s, rest) =>
      match Instant.parse s with
      | .ok t => .ok (.string (t.written "Z"), rest)
      | .error fault => stopBefore (.mismatch (.moment fault)) rest
  | cs => refuse "an RFC 3339 formatted date and time string" cs

/-! ### Records -/

/-- The place at which a fault of a record is told: what follows the end of the record, if it ends
here. -/
def endOfRecord (cs : List Char) : List Char :=
  match skipSpace cs with
  | '\x7d' :: rest => rest
  | rest => rest

/-- The place at which it is told that a list stands for a record: what follows the end of the
list, if it ends right after its start. -/
def endOfList (cs : List Char) : List Char :=
  match skipSpace cs with
  | ']' :: rest => rest
  | ',' :: rest => skipSpace rest
  | rest => rest

/-- The text that has to be the one word. -/
def wordFrom (w : String) (cs : List Char) : Step Json :=
  (textFrom cs).bind fun (s, rest) =>
    if s = w then .ok (.null, rest)
    else stopBefore (.mismatch (.value (.string s) w)) (endOfRecord rest)

/-- What has been read of a record. -/
structure Draft where
  /-- The fields. -/
  fields : List (String × Json)
  /-- The other members, last one first. -/
  others : List (String × Json)

/-- The fields of a record in their order, with the values of those that are missing. -/
def complete (read : List (String × Json)) : List Field → Except Mismatch (List (String × Json))
  | [] => .ok []
  | (name, missing, _) :: rest =>
    match (findMember? name read).or missing with
    | none => .error (.missing name)
    | some .null => complete read rest
    | some v => (complete read rest).map fun others => (name, v) :: others

/-- The record of a draft, before the rest of the text. -/
def Draft.finish (d : Draft) (fields : List Field) (rest : List Char) : Step Json :=
  match complete d.fields fields with
  | .ok members => .ok (.object (members ++ d.others.reverse), rest)
  | .error m => stopBefore (.mismatch m) rest

/-! ### Values -/

/-- The name of an entry after its first quotation mark, and what follows its colon. -/
def keyAfter (cs : List Char) : Step String :=
  (stringAfter cs).bind fun (key, rest) => (afterColon rest).map fun rest => (key, rest)

mutual

/-- A value of a shape, and the rest of the text. `depth` is one more than the count of lists and
objects that may still be opened, and `fuel` bounds the count of parts. -/
def valueFrom : (fuel depth : Nat) → Shape → List Char → Step Json
  | 0, _, _, _ => stopBefore .endInValue []
  | fuel + 1, depth, shape, cs =>
    match shape, skipSpace cs with
    | _, [] => stopAt .endInValue []
    | .text, cs => (textFrom cs).map fun (s, rest) => (.string s, rest)
    | .word w, cs => wordFrom w cs
    | .truth, cs => truthFrom cs
    | .integer lo hi name, cs => integerFrom lo hi name cs
    | .moment, cs => momentFrom cs
    | .anything, cs => anyFrom depth cs
    | .orNull _ instead, 'n' :: rest => Json.word instead "ull".toList rest
    | .orNull shape _, cs => valueFrom fuel depth shape cs
    | .list item, '[' :: rest =>
      if depth ≤ 1 then stopAt .tooDeep ('[' :: rest)
      else
        match skipSpace rest with
        | ']' :: rest => .ok (.array [], rest)
        | [] => stopAt .endInList []
        | rest => itemsFrom fuel (depth - 1) item [] rest
    | .list _, cs => refuse "a sequence" cs
    | .table value, '\x7b' :: rest =>
      if depth ≤ 1 then stopAt .tooDeep ('\x7b' :: rest)
      else
        match skipSpace rest with
        | '\x7d' :: rest => .ok (.object [], rest)
        | '\x22' :: rest => entriesFrom fuel (depth - 1) value [] rest
        | [] => stopAt .endInObject []
        | rest => stopAt .noKey rest
    | .table _, cs => refuse "a map" cs
    | .record _ manner fields, '\x7b' :: rest =>
      if depth ≤ 1 then stopAt .tooDeep ('\x7b' :: rest)
      else membersStart fuel (depth - 1) manner fields rest
    | .record name .keeping _, '[' :: rest => refuse name ('[' :: rest)
    | .record name _ _, '[' :: rest =>
      if depth ≤ 1 then stopAt .tooDeep ('[' :: rest)
      else stopBefore (.mismatch (.type (.array []) name)) (endOfList rest)
    | .record name _ _, cs => refuse name cs

/-- The items of a list from one that must be there; `read` holds those before it, last one
first. -/
def itemsFrom : (fuel depth : Nat) → Shape → (read : List Json) → List Char → Step Json
  | 0, _, _, _, _ => stopBefore .endInValue []
  | fuel + 1, depth, item, read, cs =>
    match valueFrom fuel depth item cs with
    | .error stop => .error stop
    | .ok (v, rest) =>
      match skipSpace rest with
      | ']' :: rest => .ok (.array (v :: read).reverse, rest)
      | ',' :: rest =>
        match skipSpace rest with
        | ']' :: rest => stopAt .trailingComma (']' :: rest)
        | [] => stopAt .endInValue []
        | rest => itemsFrom fuel depth item (v :: read) rest
      | [] => stopAt .endInList []
      | rest => stopAt .noListEnd rest

/-- The entries of a table from inside the name of one; `read` holds those before it. -/
def entriesFrom : (fuel depth : Nat) → Shape → (read : List (String × Json)) → List Char → Step Json
  | 0, _, _, _, _ => stopBefore .endInValue []
  | fuel + 1, depth, value, read, cs =>
    match keyAfter cs with
    | .error stop => .error stop
    | .ok (key, rest) =>
      match valueFrom fuel depth value rest with
      | .error stop => .error stop
      | .ok (v, rest) =>
        match skipSpace rest with
        | '\x7d' :: rest => .ok (.object (sortMembers (setMember key v read)), rest)
        | ',' :: rest =>
          match skipSpace rest with
          | '\x22' :: rest => entriesFrom fuel depth value (setMember key v read) rest
          | '\x7d' :: rest => stopAt .trailingComma ('\x7d' :: rest)
          | [] => stopAt .endInValue []
          | rest => stopAt .noKey rest
        | [] => stopAt .endInObject []
        | rest => stopAt .noObjectEnd rest

/-- The members of a record after its brace. -/
def membersStart : (fuel depth : Nat) → Manner → List Field → List Char → Step Json
  | 0, _, _, _, _ => stopBefore .endInValue []
  | fuel + 1, depth, manner, fields, cs =>
    match skipSpace cs with
    | '\x7d' :: rest => Draft.finish ⟨[], []⟩ fields rest
    | '\x22' :: rest => membersFrom fuel depth manner fields ⟨[], []⟩ rest
    | [] => stopAt .endInObject []
    | rest => stopAt .noKey rest

/-- The members of a record from inside the name of one. -/
def membersFrom : (fuel depth : Nat) → Manner → List Field → Draft → List Char → Step Json
  | 0, _, _, _, _, _ => stopBefore .endInValue []
  | fuel + 1, depth, manner, fields, d, cs =>
    match (stringAfter cs).bind fun (key, rest) =>
      memberFrom fuel depth manner fields d key rest with
    | .error stop => .error stop
    | .ok (d, rest) =>
      match skipSpace rest with
      | '\x7d' :: rest => d.finish fields rest
      | ',' :: rest =>
        match skipSpace rest with
        | '\x22' :: rest => membersFrom fuel depth manner fields d rest
        | '\x7d' :: rest => stopAt .trailingComma ('\x7d' :: rest)
        | [] => stopAt .endInValue []
        | rest => stopAt .noKey rest
      | [] => stopAt .endInObject []
      | rest => stopAt .noObjectEnd rest

/-- A draft with a member after its name. -/
def memberFrom : (fuel depth : Nat) → Manner → List Field → Draft → (key : String) →
    List Char → Step Draft
  | 0, _, _, _, _, _, _ => stopBefore .endInValue []
  | fuel + 1, depth, manner, fields, d, key, cs =>
    match fields.lookup key with
    | some (_, shape) =>
      if manner ≠ .lenient && (findMember? key d.fields).isSome then
        stopBefore (.mismatch (.repeated key)) (endOfRecord cs)
      else
        match (afterColon cs).bind (valueFrom fuel depth shape) with
        | .error stop => .error stop
        | .ok (v, rest) => .ok ({ d with fields := setMember key v d.fields }, rest)
    | none =>
      if manner = .keeping then
        ((afterColon cs).bind (anyFrom depth)).map fun (v, rest) =>
          ({ d with others := (key, v) :: d.others }, rest)
      else ((afterColon cs).bind skipValue).map fun rest => (d, rest)

end

/-- The value of a shape in a text that holds nothing else, or the first fault and its place. -/
def read (shape : Shape) (text : String) : Except ReadError Json :=
  readBy (fun cs => shape.valueFrom (4 * cs.length + 4) depthLimit cs) text

end Shape

end Json

end EdgeHealth
