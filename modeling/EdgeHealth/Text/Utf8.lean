/-!
# Reading bytes as text

A total reading of bytes as text in UTF-8. Where the bytes are not well formed, every maximal part
that starts a character without finishing it is read as one replacement character.

## Main definitions

* `decodeLossy` : the text of a list of bytes.
-/

namespace EdgeHealth.Text.Utf8

/-- The character that stands for bytes which are no character. -/
def replacement : Char := Char.ofNat 0xFFFD

/-- A byte that may follow the first byte of a character. -/
def isTail (b : Nat) : Bool := 0x80 ≤ b && b ≤ 0xBF

/-- The bytes that may come second after a given first byte of a character of three or four
bytes. -/
def secondOk (first second : Nat) : Bool :=
  if first = 0xE0 then 0xA0 ≤ second && second ≤ 0xBF
  else if first = 0xED then 0x80 ≤ second && second ≤ 0x9F
  else if first = 0xF0 then 0x90 ≤ second && second ≤ 0xBF
  else if first = 0xF4 then 0x80 ≤ second && second ≤ 0x8F
  else isTail second

/-- The text of a list of bytes. -/
def decodeLossy : List Nat → List Char
  | [] => []
  | a :: rest =>
    if a < 0x80 then Char.ofNat a :: decodeLossy rest
    else if 0xC2 ≤ a && a ≤ 0xDF then
      match rest with
      | [] => [replacement]
      | b :: rest₁ =>
        if isTail b then Char.ofNat ((a - 0xC0) * 64 + (b - 0x80)) :: decodeLossy rest₁
        else replacement :: decodeLossy (b :: rest₁)
    else if 0xE0 ≤ a && a ≤ 0xEF then
      match rest with
      | [] => [replacement]
      | b :: rest₁ =>
        if secondOk a b then
          match rest₁ with
          | [] => [replacement]
          | c :: rest₂ =>
            if isTail c then
              Char.ofNat ((a - 0xE0) * 4096 + (b - 0x80) * 64 + (c - 0x80)) :: decodeLossy rest₂
            else replacement :: decodeLossy (c :: rest₂)
        else replacement :: decodeLossy (b :: rest₁)
    else if 0xF0 ≤ a && a ≤ 0xF4 then
      match rest with
      | [] => [replacement]
      | b :: rest₁ =>
        if secondOk a b then
          match rest₁ with
          | [] => [replacement]
          | c :: rest₂ =>
            if isTail c then
              match rest₂ with
              | [] => [replacement]
              | d :: rest₃ =>
                if isTail d then
                  Char.ofNat ((a - 0xF0) * 262144 + (b - 0x80) * 4096 + (c - 0x80) * 64 +
                    (d - 0x80)) :: decodeLossy rest₃
                else replacement :: decodeLossy (d :: rest₃)
            else replacement :: decodeLossy (c :: rest₂)
        else replacement :: decodeLossy (b :: rest₁)
    else replacement :: decodeLossy rest

end EdgeHealth.Text.Utf8
