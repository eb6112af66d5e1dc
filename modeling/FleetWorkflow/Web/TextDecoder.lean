import FleetWorkflow.Python.Bytes
import FleetWorkflow.Python.JsonText

/-!
# The streaming text decoder

`new TextDecoder()` with `decode(chunk, { stream: true })`: UTF-8, replacement of what is no text, and
one byte order mark dropped at the start. A character whose bytes have not all come is kept in the
state, so chunks may end anywhere: what is decoded from them together is what is decoded from their
concatenation, and the bytes of a text are decoded to the text.
-/

namespace FleetWorkflow.Web

open Python

/-- The state of the UTF-8 decoder between two bytes. -/
structure Utf8Decoder where
  codePoint : ℕ
  needed : ℕ
  seen : ℕ
  lower : ℕ
  upper : ℕ
deriving DecidableEq, Repr

/-- No character has begun. -/
def Utf8Decoder.initial : Utf8Decoder := ⟨0, 0, 0, 0x80, 0xBF⟩

/-- The first byte of a character. -/
def Utf8Decoder.lead (byte : ℕ) : Utf8Decoder × List Char :=
  if byte ≤ 0x7F then (initial, [Char.ofNat byte])
  else if 0xC2 ≤ byte ∧ byte ≤ 0xDF then (⟨byte % 32, 1, 0, 0x80, 0xBF⟩, [])
  else if 0xE0 ≤ byte ∧ byte ≤ 0xEF then
    (⟨byte % 16, 2, 0, if byte = 0xE0 then 0xA0 else 0x80, if byte = 0xED then 0x9F else 0xBF⟩, [])
  else if 0xF0 ≤ byte ∧ byte ≤ 0xF4 then
    (⟨byte % 8, 3, 0, if byte = 0xF0 then 0x90 else 0x80, if byte = 0xF4 then 0x8F else 0xBF⟩, [])
  else (initial, [replacement])

/-- One byte: a byte that cannot go on with a character is taken for the first one of the next. -/
def Utf8Decoder.step (decoder : Utf8Decoder) (byte : ℕ) : Utf8Decoder × List Char :=
  if decoder.needed = 0 then lead byte
  else if decoder.lower ≤ byte ∧ byte ≤ decoder.upper then
    let codePoint := decoder.codePoint * 64 + byte % 64
    if decoder.seen + 1 = decoder.needed then (initial, [Char.ofNat codePoint])
    else (⟨codePoint, decoder.needed, decoder.seen + 1, 0x80, 0xBF⟩, [])
  else ((lead byte).1, replacement :: (lead byte).2)

/-- The characters that the bytes of a chunk complete. -/
def Utf8Decoder.decode (decoder : Utf8Decoder) : Bytes → Utf8Decoder × List Char
  | [] => (decoder, [])
  | byte :: rest =>
    let stepped := decoder.step byte.toNat
    let decoded := stepped.1.decode rest
    (decoded.1, stepped.2 ++ decoded.2)

/-- Two chunks are decoded as one. -/
theorem Utf8Decoder.decode_append (decoder : Utf8Decoder) (chunk rest : Bytes) :
    decoder.decode (chunk ++ rest) = (((decoder.decode chunk).1.decode rest).1,
      (decoder.decode chunk).2 ++ ((decoder.decode chunk).1.decode rest).2) := by
  induction chunk generalizing decoder with
  | nil => rfl
  | cons byte chunk ih => simp only [List.cons_append, decode, ih, List.append_assoc]

namespace Utf8Decoder

/-- The value of a byte. -/
theorem toNat_byte {n : ℕ} (h : n < 256) : (UInt8.ofNat n).toNat = n := UInt8.toNat_ofNat_of_lt' h

theorem step_initial (byte : ℕ) : initial.step byte = lead byte := rfl

section Continuation

variable {codePoint needed seen lower upper byte : ℕ}

/-- A byte inside a character. -/
theorem step_more (h : lower ≤ byte ∧ byte ≤ upper) (hseen : seen + 1 < needed) :
    (⟨codePoint, needed, seen, lower, upper⟩ : Utf8Decoder).step byte =
      (⟨codePoint * 64 + byte % 64, needed, seen + 1, 0x80, 0xBF⟩, []) := by
  simp only [step]
  rw [if_neg (by omega), if_pos h, if_neg (by omega)]

/-- The last byte of a character. -/
theorem step_last (h : lower ≤ byte ∧ byte ≤ upper) (hseen : seen + 1 = needed) :
    (⟨codePoint, needed, seen, lower, upper⟩ : Utf8Decoder).step byte =
      (initial, [Char.ofNat (codePoint * 64 + byte % 64)]) := by
  simp only [step]
  rw [if_neg (by omega), if_pos h, if_pos hseen]

end Continuation

/-- A character of two bytes. -/
theorem decode_two {a b : ℕ} (ha : 0xC2 ≤ a ∧ a ≤ 0xDF) (hb : 0x80 ≤ b ∧ b ≤ 0xBF) :
    initial.decode [UInt8.ofNat a, UInt8.ofNat b] = (initial, [Char.ofNat (a % 32 * 64 + b % 64)]) := by
  have hlead : lead a = (⟨a % 32, 1, 0, 0x80, 0xBF⟩, []) := by
    rw [lead, if_neg (by omega), if_pos ha]
  simp only [decode]
  rw [toNat_byte (by omega), toNat_byte (by omega), step_initial, hlead]
  dsimp only
  rw [step_last hb rfl]
  rfl

/-- A character of three bytes. -/
theorem decode_three {a b c : ℕ} (ha : 0xE0 ≤ a ∧ a ≤ 0xEF)
    (hb : (if a = 0xE0 then 0xA0 else 0x80) ≤ b ∧ b ≤ if a = 0xED then 0x9F else 0xBF) (hc : 0x80 ≤ c ∧ c ≤ 0xBF) :
    initial.decode [UInt8.ofNat a, UInt8.ofNat b, UInt8.ofNat c] =
      (initial, [Char.ofNat ((a % 16 * 64 + b % 64) * 64 + c % 64)]) := by
  have hbyte : b < 256 := by
    have hupper := hb.2
    split at hupper <;> omega
  have hlead : lead a =
      (⟨a % 16, 2, 0, if a = 0xE0 then 0xA0 else 0x80, if a = 0xED then 0x9F else 0xBF⟩, []) := by
    rw [lead, if_neg (by omega), if_neg (by omega), if_pos ha]
  simp only [decode]
  rw [toNat_byte (by omega), toNat_byte hbyte, toNat_byte (by omega), step_initial, hlead]
  dsimp only
  rw [step_more hb (by omega)]
  dsimp only
  rw [step_last hc rfl]
  rfl

/-- A character of four bytes. -/
theorem decode_four {a b c d : ℕ} (ha : 0xF0 ≤ a ∧ a ≤ 0xF4)
    (hb : (if a = 0xF0 then 0x90 else 0x80) ≤ b ∧ b ≤ if a = 0xF4 then 0x8F else 0xBF) (hc : 0x80 ≤ c ∧ c ≤ 0xBF)
    (hd : 0x80 ≤ d ∧ d ≤ 0xBF) : initial.decode [UInt8.ofNat a, UInt8.ofNat b, UInt8.ofNat c, UInt8.ofNat d] =
      (initial, [Char.ofNat (((a % 8 * 64 + b % 64) * 64 + c % 64) * 64 + d % 64)]) := by
  have hbyte : b < 256 := by
    have hupper := hb.2
    split at hupper <;> omega
  have hlead : lead a =
      (⟨a % 8, 3, 0, if a = 0xF0 then 0x90 else 0x80, if a = 0xF4 then 0x8F else 0xBF⟩, []) := by
    rw [lead, if_neg (by omega), if_neg (by omega), if_neg (by omega), if_pos ha]
  simp only [decode]
  rw [toNat_byte (by omega), toNat_byte hbyte, toNat_byte (by omega), toNat_byte (by omega), step_initial, hlead]
  dsimp only
  rw [step_more hb (by omega)]
  dsimp only
  rw [step_more hc (by omega)]
  dsimp only
  rw [step_last hd rfl]
  rfl

/-- The bytes of a character are decoded to it. -/
theorem decode_utf8EncodeChar (c : Char) : initial.decode (String.utf8EncodeChar c) = (initial, [c]) := by
  have hrange := toNat_not_surrogate c
  have hc : ∀ n, n = c.toNat → (initial, [Char.ofNat n]) = (initial, [c]) := by
    rintro n rfl
    rw [Char.ofNat_toNat]
  have hval : c.val.toNat = c.toNat := rfl
  unfold String.utf8EncodeChar
  rw [hval]
  simp only
  split
  · simp only [decode]
    rw [toNat_byte (by omega), step_initial, lead, if_pos (by assumption)]
    exact hc _ rfl
  · split
    · rw [decode_two (by omega) (by omega)]
      exact hc _ (by omega)
    · split
      · rw [decode_three (by omega) (by split <;> split <;> omega) (by omega)]
        exact hc _ (by omega)
      · rw [decode_four (by omega) (by split <;> split <;> omega) (by omega) (by omega)]
        exact hc _ (by omega)

end Utf8Decoder

/-- The bytes of a text are decoded to the text. -/
theorem Utf8Decoder.decode_encodeUtf8 (text : String) : initial.decode (encodeUtf8 text) = (initial, text.toList) := by
  have hbytes : encodeUtf8 text = text.toList.flatMap String.utf8EncodeChar := by
    rw [encodeUtf8, String.toUTF8_eq_toByteArray, ← String.utf8Encode_toList, List.utf8Encode,
      List.toList_data_toByteArray]
  rw [hbytes]
  induction text.toList with
  | nil => rfl
  | cons c cs ih => rw [List.flatMap_cons, decode_append, decode_utf8EncodeChar, ih, List.singleton_append]

/-- The byte order mark. -/
def byteOrderMark : Char := Char.ofNat 0xFEFF

/-- Drop a byte order mark at the start. -/
def serialize (bomSeen : Bool) : List Char → Bool × List Char
  | [] => (bomSeen, [])
  | c :: cs => (true, if !bomSeen && c = byteOrderMark then cs else c :: cs)

/-- The state of a text decoder: of its UTF-8 decoder, and whether the start is over. -/
structure TextDecoder where
  utf8 : Utf8Decoder
  bomSeen : Bool
deriving DecidableEq, Repr

/-- `new TextDecoder()`. -/
def TextDecoder.initial : TextDecoder := ⟨.initial, false⟩

/-- `decoder.decode(chunk, { stream: true })`. -/
def TextDecoder.decode (decoder : TextDecoder) (chunk : Bytes) : TextDecoder × List Char :=
  let decoded := decoder.utf8.decode chunk
  let serialized := serialize decoder.bomSeen decoded.2
  (⟨decoded.1, serialized.1⟩, serialized.2)

/-- Nothing is dropped after the start. -/
@[simp] theorem serialize_true (cs : List Char) : serialize true cs = (true, cs) := by
  cases cs <;> rfl

/-- What is dropped at the start is dropped once. -/
theorem serialize_append (bomSeen : Bool) (cs ds : List Char) :
    serialize bomSeen (cs ++ ds) = ((serialize (serialize bomSeen cs).1 ds).1,
      (serialize bomSeen cs).2 ++ (serialize (serialize bomSeen cs).1 ds).2) := by
  cases cs with
  | nil => rfl
  | cons c cs =>
    rw [List.cons_append, serialize, serialize, serialize_true]
    split <;> rfl

/-- Two chunks are decoded as one. -/
theorem TextDecoder.decode_append (decoder : TextDecoder) (chunk rest : Bytes) :
    decoder.decode (chunk ++ rest) = (((decoder.decode chunk).1.decode rest).1,
      (decoder.decode chunk).2 ++ ((decoder.decode chunk).1.decode rest).2) := by
  simp only [decode, Utf8Decoder.decode_append, serialize_append]

/-- The bytes of a text are decoded to the text, unless it starts with a byte order mark. -/
theorem TextDecoder.decode_encodeUtf8 {text : String} (h : text.toList.head? ≠ some byteOrderMark) :
    (initial.decode (encodeUtf8 text)).2 = text.toList := by
  simp only [decode, initial, Utf8Decoder.decode_encodeUtf8]
  cases hcs : text.toList with
  | nil => rfl
  | cons c cs =>
    rw [hcs] at h
    have hc : c ≠ byteOrderMark := fun heq => h (congrArg some heq)
    simp [serialize, hc]

end FleetWorkflow.Web
