/-
  Bytes and texts.

  `encode` and `decode?` are UTF-8 in both directions, on lists of bytes.  `lossy` reads any bytes
  as a text for display: each stretch of bytes that begins like a character and breaks off, and
  each byte that begins none, is shown as one U+FFFD.  It is a machine with one state, what is
  still `Pending` of the character that has begun.
-/

namespace CallSweep.Text

/-! ## Exact conversions -/

/-- The UTF-8 bytes of a text. -/
def encode (s : String) : List UInt8 := s.toUTF8.data.toList

/-- The text that some bytes encode. -/
def decode? (bytes : List UInt8) : Option String := String.fromUTF8? ⟨bytes.toArray⟩

theorem encode_eq_flatMap (s : String) : encode s = s.toList.flatMap String.utf8EncodeChar := by
  show s.toByteArray.data.toList = _
  rw [← String.utf8Encode_toList, List.utf8Encode]
  simp

theorem length_encode (s : String) : (encode s).length = s.toUTF8.size := Array.length_toList

theorem fromUTF8?_toUTF8 (s : String) : String.fromUTF8? s.toUTF8 = some s := by
  have valid : s.toUTF8.IsValidUTF8 := s.isValidUTF8
  rw [String.fromUTF8?, dif_pos valid]
  rfl

theorem toUTF8_of_fromUTF8? {bytes : ByteArray} {s : String}
    (decoded : String.fromUTF8? bytes = some s) : s.toUTF8 = bytes := by
  unfold String.fromUTF8? at decoded
  split at decoded
  · cases decoded
    rfl
  · cases decoded

/-- Bytes are read as the text that is written as them. -/
theorem decode?_eq_some_iff {bytes : List UInt8} {s : String} :
    decode? bytes = some s ↔ bytes = encode s := by
  constructor
  · intro decoded
    rw [encode, toUTF8_of_fromUTF8? decoded]
  · rintro rfl
    exact fromUTF8?_toUTF8 s

/-! ## Reading for display -/

/-- A character that has begun: how many bytes it still needs, the range of the next of them, and
    the bits read so far. -/
structure Pending where
  needed : Nat
  low : UInt8
  high : UInt8
  bits : Nat

/-- What a byte begins. -/
inductive Lead where
  | whole (c : Char)
  | begins (p : Pending)
  | stray

/-- The first bytes of characters, with the range that each allows for the byte behind it.  The
    narrowed ranges keep out overlong forms, surrogates and what lies beyond U+10FFFF. -/
def lead (b : UInt8) : Lead :=
  if b < 0x80 then .whole (Char.ofNat b.toNat)
  else if 0xc2 ≤ b && b ≤ 0xdf then .begins ⟨1, 0x80, 0xbf, b.toNat - 0xc0⟩
  else if b == 0xe0 then .begins ⟨2, 0xa0, 0xbf, 0⟩
  else if b == 0xed then .begins ⟨2, 0x80, 0x9f, 0xd⟩
  else if 0xe1 ≤ b && b ≤ 0xef then .begins ⟨2, 0x80, 0xbf, b.toNat - 0xe0⟩
  else if b == 0xf0 then .begins ⟨3, 0x90, 0xbf, 0⟩
  else if b == 0xf4 then .begins ⟨3, 0x80, 0x8f, 4⟩
  else if 0xf1 ≤ b && b ≤ 0xf3 then .begins ⟨3, 0x80, 0xbf, b.toNat - 0xf0⟩
  else .stray

/-- Stands for bytes that are no character. -/
def replacement : Char := '\ufffd'

/-- What a byte shows that continues no character, and what it leaves pending. -/
def begin (b : UInt8) : List Char × Option Pending :=
  match lead b with
  | .whole c => ([c], none)
  | .begins p => ([], some p)
  | .stray => ([replacement], none)

/-- What a byte shows, and what it leaves pending. -/
def step (pending : Option Pending) (b : UInt8) : List Char × Option Pending :=
  match pending with
  | none => begin b
  | some p =>
    if p.low ≤ b && b ≤ p.high then
      let bits := p.bits * 64 + (b.toNat - 0x80)
      if p.needed = 1 then ([Char.ofNat bits], none)
      else ([], some ⟨p.needed - 1, 0x80, 0xbf, bits⟩)
    else
      let (shown, left) := begin b
      (replacement :: shown, left)

/-- The characters of some bytes, `pending` being begun before them. -/
def lossyChars (pending : Option Pending) : List UInt8 → List Char
  | [] => if pending.isSome then [replacement] else []
  | b :: bs =>
    let (shown, left) := step pending b
    shown ++ lossyChars left bs

/-- Any bytes as a text. -/
def lossy (bytes : List UInt8) : String := String.ofList (lossyChars none bytes)

end CallSweep.Text
