import EdgeHealth.Display

/-!
# Painting text for a terminal

A tone is shown by a colour or a weight. Painted text stands between two escape sequences, one that
sets the style and one that resets it; where colours are off, text stays as it is.

## Main definitions

* `Paint` : a style, as the numbers that set and reset it.
* `Tone.paint?` : the style of a tone.
* `Tone.painted` : a text in the style of a tone.
-/

namespace EdgeHealth

/-- A style of text on a terminal. -/
structure Paint where
  /-- The number that sets the style. -/
  on : Nat
  /-- The number that resets it. -/
  off : Nat
  deriving DecidableEq, Repr

namespace Paint

/-- The escape sequence of a number. -/
def sequence (n : Nat) : String := s!"\x1b[{n}m"

/-- A text in a style. -/
def apply (p : Paint) (text : String) : String := sequence p.on ++ text ++ sequence p.off

/-- Bold text. -/
def bold : Paint := ⟨1, 0⟩

/-- Dim text. -/
def dim : Paint := ⟨2, 0⟩

/-- Red text. -/
def red : Paint := ⟨31, 39⟩

/-- Green text. -/
def green : Paint := ⟨32, 39⟩

/-- Yellow text. -/
def yellow : Paint := ⟨33, 39⟩

/-- Cyan text. -/
def cyan : Paint := ⟨36, 39⟩

/-- Bright blue text. -/
def brightBlue : Paint := ⟨94, 39⟩

end Paint

/-- The style of text that tells a status. -/
def Status.paint : Status → Paint
  | .success => .green
  | .warning => .yellow
  | .error => .red
  | .skipped => .dim

/-- The style of a tone; text without a role has none. -/
def Tone.paint? : Tone → Option Paint
  | .plain => none
  | .header => some .bold
  | .label => some .cyan
  | .value => some .brightBlue
  | .muted => some .dim
  | .status s => some s.paint

/-- A text in the style of a tone. -/
def Tone.painted (colored : Bool) (tone : Tone) (text : String) : String :=
  match tone.paint? with
  | some paint => if colored then paint.apply text else text
  | none => text

end EdgeHealth
