import LicenseStamp.Text.Basic

/-! # UTF-8

One scan over the bytes gives the characters and, where the bytes spell none, a gap
for each longest run of bytes that starts like a character but does not become one.
Strict decoding refuses a text with gaps; lenient decoding writes U+FFFD for each.
-/

namespace LicenseStamp.Utf8

/-- A character of which some bytes are read and more must follow. -/
structure Unfinished where
  /-- The bits read so far -/
  value : Nat
  /-- The least value of the next byte -/
  low : Nat
  /-- The greatest value of the next byte -/
  high : Nat
  /-- How many bytes follow the next one -/
  more : Nat
  deriving Repr, DecidableEq

/-- What one byte makes of the bytes before it. -/
inductive Reading where
  /-- A character ends here. -/
  | done (c : Char)
  /-- The character goes on. -/
  | unfinished (state : Unfinished)
  /-- No character holds this byte here. -/
  | refused
  deriving Repr, DecidableEq

/-- Reads the first byte of a character. Leading bytes of overlong forms, of surrogates
    and of values above U+10FFFF are ruled out here or by the range of the second byte. -/
def start (byte : UInt8) : Reading :=
  let b := byte.toNat
  if b < 0x80 then .done (Char.ofNat b)
  else if b < 0xC2 then .refused
  else if b < 0xE0 then .unfinished ⟨b - 0xC0, 0x80, 0xBF, 0⟩
  else if b = 0xE0 then .unfinished ⟨0, 0xA0, 0xBF, 1⟩
  else if b = 0xED then .unfinished ⟨0xD, 0x80, 0x9F, 1⟩
  else if b < 0xF0 then .unfinished ⟨b - 0xE0, 0x80, 0xBF, 1⟩
  else if b = 0xF0 then .unfinished ⟨0, 0x90, 0xBF, 2⟩
  else if b < 0xF4 then .unfinished ⟨b - 0xF0, 0x80, 0xBF, 2⟩
  else if b = 0xF4 then .unfinished ⟨4, 0x80, 0x8F, 2⟩
  else .refused

/-- Reads a later byte of a character. -/
def extend (state : Unfinished) (byte : UInt8) : Reading :=
  let b := byte.toNat
  if state.low ≤ b ∧ b ≤ state.high then
    let value := state.value * 64 + (b - 0x80)
    match state.more with
    | 0 => .done (Char.ofNat value)
    | more + 1 => .unfinished ⟨value, 0x80, 0xBF, more⟩
  else .refused

/-- What the scan writes for a byte that may start a character, and the state after it. -/
def fresh (byte : UInt8) : List (Option Char) × Option Unfinished :=
  match start byte with
  | .done c => ([some c], none)
  | .unfinished state => ([], some state)
  | .refused => ([none], none)

/-- Characters and gaps of some bytes, after a character that may be unfinished. -/
def scanFrom : Option Unfinished → Bytes → List (Option Char)
  | none, [] => []
  | some _, [] => [none]
  | none, b :: rest => (fresh b).1 ++ scanFrom (fresh b).2 rest
  | some state, b :: rest =>
    match extend state b with
    | .done c => some c :: scanFrom none rest
    | .unfinished next => scanFrom (some next) rest
    | .refused => none :: ((fresh b).1 ++ scanFrom (fresh b).2 rest)

/-- Characters and gaps of some bytes. -/
def scan (bytes : Bytes) : List (Option Char) := scanFrom none bytes

/-- The text that bytes spell, if they spell one without gaps. -/
def decode? (bytes : Bytes) : Option Text := (scan bytes).mapM id

/-- The text that bytes spell, each gap written as U+FFFD. -/
def decodeLossy (bytes : Bytes) : Text := (scan bytes).map (·.getD '\uFFFD')

/-- The bytes of one character. -/
def encodeChar (c : Char) : Bytes :=
  let n := c.toNat
  if n < 0x80 then [UInt8.ofNat n]
  else if n < 0x800 then [UInt8.ofNat (0xC0 + n / 64), UInt8.ofNat (0x80 + n % 64)]
  else if n < 0x10000 then
    [UInt8.ofNat (0xE0 + n / 4096), UInt8.ofNat (0x80 + n / 64 % 64), UInt8.ofNat (0x80 + n % 64)]
  else
    [UInt8.ofNat (0xF0 + n / 262144), UInt8.ofNat (0x80 + n / 4096 % 64),
      UInt8.ofNat (0x80 + n / 64 % 64), UInt8.ofNat (0x80 + n % 64)]

/-- The bytes of a text. -/
def encode (text : Text) : Bytes := text.flatMap encodeChar

end LicenseStamp.Utf8
