/-!
UTF-8. `encode` writes the bytes of a text, `decode?` reads bytes that are well formed as a whole,
and `decodeLossy` reads any bytes, putting U+FFFD for each longest piece that starts a character
and does not finish it.

Both readers come from one scan, which yields the characters and marks the ill-formed pieces, so
that they agree on where a character ends.
-/
namespace ScriptBridge.Utf8

def encodeChar (c : Char) : List UInt8 :=
  let n := c.toNat
  if n < 0x80 then [.ofNat n]
  else if n < 0x800 then [.ofNat (0xC0 + n / 0x40), .ofNat (0x80 + n % 0x40)]
  else if n < 0x10000 then
    [.ofNat (0xE0 + n / 0x1000), .ofNat (0x80 + n / 0x40 % 0x40), .ofNat (0x80 + n % 0x40)]
  else
    [.ofNat (0xF0 + n / 0x40000), .ofNat (0x80 + n / 0x1000 % 0x40),
      .ofNat (0x80 + n / 0x40 % 0x40), .ofNat (0x80 + n % 0x40)]

def encode (s : List Char) : List UInt8 := s.flatMap encodeChar

/-- A character whose first bytes have been read. -/
structure Unfinished where
  /-- The bits read so far. -/
  value : Nat
  /-- How many bytes are still owed. -/
  owed : Nat
  /-- The least byte that may come next. -/
  low : Nat := 0x80
  /-- The greatest byte that may come next. -/
  high : Nat := 0xBF

/-- What a first byte says: a whole character, the start of a longer one, or nothing. -/
inductive Lead where
  | whole (c : Char)
  | opens (u : Unfinished)
  | none

/-- Reads a first byte. -/
def lead (byte : UInt8) : Lead :=
  let b := byte.toNat
  if b < 0x80 then .whole (Char.ofNat b)
  else if b < 0xC2 then .none
  else if b < 0xE0 then .opens { value := b - 0xC0, owed := 1 }
  else if b == 0xE0 then .opens { value := 0, owed := 2, low := 0xA0 }
  else if b == 0xED then .opens { value := 0xD, owed := 2, high := 0x9F }
  else if b < 0xF0 then .opens { value := b - 0xE0, owed := 2 }
  else if b == 0xF0 then .opens { value := 0, owed := 3, low := 0x90 }
  else if b < 0xF4 then .opens { value := b - 0xF0, owed := 3 }
  else if b == 0xF4 then .opens { value := 4, owed := 3, high := 0x8F }
  else .none

mutual
/-- The characters of a byte sequence, with `none` for each ill-formed piece. -/
def scan : List UInt8 → List (Option Char)
  | [] => []
  | byte :: rest =>
    match lead byte with
    | .whole c => some c :: scan rest
    | .opens u => scanWithin u rest
    | .none => none :: scan rest

/-- The same scan inside a character. -/
def scanWithin (u : Unfinished) : List UInt8 → List (Option Char)
  | [] => [none]
  | byte :: rest =>
    let b := byte.toNat
    if u.low ≤ b ∧ b ≤ u.high then
      let value := u.value * 0x40 + (b - 0x80)
      if u.owed ≤ 1 then some (Char.ofNat value) :: scan rest
      else scanWithin { value, owed := u.owed - 1 } rest
    else
      match lead byte with
      | .whole c => none :: some c :: scan rest
      | .opens v => none :: scanWithin v rest
      | .none => none :: none :: scan rest
end

/-- The text that well-formed bytes spell. -/
def decode? (bytes : List UInt8) : Option (List Char) := (scan bytes).mapM id

/-- The text that bytes spell, with U+FFFD for each ill-formed piece. -/
def decodeLossy (bytes : List UInt8) : List Char := (scan bytes).map (·.getD '\uFFFD')

end ScriptBridge.Utf8
