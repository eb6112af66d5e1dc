import FleetWorkflow.Python.Uuid5

/-!
# Bytes and digests

`hashlib.sha256`, `base64.b64encode`, `bytes.decode("utf-8", errors="replace")` and
`uuid.uuid5(uuid.NAMESPACE_OID, name)`.
-/

namespace FleetWorkflow.Python

/-- A byte string. -/
abbrev Bytes := List UInt8

/-- `text.encode("utf-8")`. -/
def encodeUtf8 (text : String) : Bytes := text.toUTF8.data.toList

/-! ## SHA-256 -/

/-- Rotate a 32-bit word to the right. -/
def rotateRight (x : UInt32) (k : UInt32) : UInt32 := (x >>> k) ||| (x <<< (32 - k))

/-- The constants of the rounds. -/
def sha256Constants : List UInt32 :=
  [0x428a2f98, 0x71374491, 0xb5c0fbcf, 0xe9b5dba5, 0x3956c25b, 0x59f111f1, 0x923f82a4, 0xab1c5ed5,
    0xd807aa98, 0x12835b01, 0x243185be, 0x550c7dc3, 0x72be5d74, 0x80deb1fe, 0x9bdc06a7, 0xc19bf174,
    0xe49b69c1, 0xefbe4786, 0x0fc19dc6, 0x240ca1cc, 0x2de92c6f, 0x4a7484aa, 0x5cb0a9dc, 0x76f988da,
    0x983e5152, 0xa831c66d, 0xb00327c8, 0xbf597fc7, 0xc6e00bf3, 0xd5a79147, 0x06ca6351, 0x14292967,
    0x27b70a85, 0x2e1b2138, 0x4d2c6dfc, 0x53380d13, 0x650a7354, 0x766a0abb, 0x81c2c92e, 0x92722c85,
    0xa2bfe8a1, 0xa81a664b, 0xc24b8b70, 0xc76c51a3, 0xd192e819, 0xd6990624, 0xf40e3585, 0x106aa070,
    0x19a4c116, 0x1e376c08, 0x2748774c, 0x34b0bcb5, 0x391c0cb3, 0x4ed8aa4a, 0x5b9cca4f, 0x682e6ff3,
    0x748f82ee, 0x78a5636f, 0x84c87814, 0x8cc70208, 0x90befffa, 0xa4506ceb, 0xbef9a3f7, 0xc67178f2]

/-- Extend the message schedule, kept with its newest word first, by `k` words. -/
def sha256Schedule : ℕ → List UInt32 → List UInt32
  | 0, ws => ws
  | k + 1, ws =>
    let early := ws.getD 14 0
    let late := ws.getD 1 0
    let s0 := rotateRight early 7 ^^^ rotateRight early 18 ^^^ (early >>> 3)
    let s1 := rotateRight late 17 ^^^ rotateRight late 19 ^^^ (late >>> 10)
    sha256Schedule k ((ws.getD 15 0 + s0 + ws.getD 6 0 + s1) :: ws)

/-- The eight chaining words of SHA-256. -/
structure Sha256State where
  a : UInt32
  b : UInt32
  c : UInt32
  d : UInt32
  e : UInt32
  f : UInt32
  g : UInt32
  h : UInt32

/-- One round, with the constant and the schedule word added up. -/
def sha256Round (s : Sha256State) (added : UInt32) : Sha256State :=
  let s1 := rotateRight s.e 6 ^^^ rotateRight s.e 11 ^^^ rotateRight s.e 25
  let choice := (s.e &&& s.f) ^^^ (~~~s.e &&& s.g)
  let first := s.h + s1 + choice + added
  let s0 := rotateRight s.a 2 ^^^ rotateRight s.a 13 ^^^ rotateRight s.a 22
  let majority := (s.a &&& s.b) ^^^ (s.a &&& s.c) ^^^ (s.b &&& s.c)
  ⟨first + s0 + majority, s.a, s.b, s.c, s.d + first, s.e, s.f, s.g⟩

/-- Absorb the 64-byte blocks of a padded message. -/
def sha256Blocks : ℕ → List UInt32 → Sha256State → Sha256State
  | 0, _, s => s
  | blocks + 1, ws, s =>
    let schedule := (sha256Schedule 48 (ws.take 16).reverse).reverse
    let r := (List.zipWith (· + ·) sha256Constants schedule).foldl sha256Round s
    sha256Blocks blocks (ws.drop 16)
      ⟨s.a + r.a, s.b + r.b, s.c + r.c, s.d + r.d, s.e + r.e, s.f + r.f, s.g + r.g, s.h + r.h⟩

/-- `hashlib.sha256(message).hexdigest()`. -/
def sha256 (message : Bytes) : String :=
  let padded := sha1Pad message
  let s := sha256Blocks (padded.length / 64) (words padded)
    ⟨0x6a09e667, 0xbb67ae85, 0x3c6ef372, 0xa54ff53a, 0x510e527f, 0x9b05688c, 0x1f83d9ab, 0x5be0cd19⟩
  let digest := [s.a, s.b, s.c, s.d, s.e, s.f, s.g, s.h].flatMap fun word => bigEndian 4 word.toNat
  String.ofList (digest.flatMap hexByte)

theorem length_bigEndian (k n : ℕ) : (bigEndian k n).length = k := by
  induction k with
  | zero => rfl
  | succ k ih => rw [bigEndian, List.length_cons, ih]

theorem length_flatMap_hexByte (bytes : Bytes) : (bytes.flatMap hexByte).length = 2 * bytes.length := by
  induction bytes with
  | nil => rfl
  | cons b rest ih =>
    rw [List.flatMap_cons, List.length_append, ih, List.length_cons]
    simp only [hexByte, List.length_cons, List.length_nil]
    omega

/-- A digest has 64 digits. -/
theorem length_sha256 (message : Bytes) : (sha256 message).toList.length = 64 := by
  simp only [sha256, String.toList_ofList, length_flatMap_hexByte, List.flatMap_cons, List.flatMap_nil,
    List.length_append, length_bigEndian, List.length_nil]

/-! ## Name-based UUIDs -/

/-- `str(uuid.uuid5(namespace, name))`. -/
def uuid5 (namespaceBytes : Bytes) (name : String) : String :=
  let digest := (sha1 (namespaceBytes ++ encodeUtf8 name)).take 16
  uuidText (digest.mapIdx fun i b =>
    if i = 6 then (b &&& 0x0F) ||| 0x50 else if i = 8 then (b &&& 0x3F) ||| 0x80 else b)

/-- The bytes of `uuid.NAMESPACE_OID`. -/
def namespaceOid : Bytes :=
  [0x6b, 0xa7, 0xb8, 0x12, 0x9d, 0xad, 0x11, 0xd1, 0x80, 0xb4, 0x00, 0xc0, 0x4f, 0xd4, 0x30, 0xc8]

/-! ## Base64 -/

/-- The character of six bits. -/
def base64Char (n : ℕ) : Char :=
  if n < 26 then Char.ofNat (65 + n)
  else if n < 52 then Char.ofNat (71 + n)
  else if n < 62 then Char.ofNat (n - 4)
  else if n = 62 then '+' else '/'

/-- The characters of a byte string. -/
def base64Chars : Bytes → List Char
  | a :: b :: c :: rest =>
    let n := (a.toNat * 256 + b.toNat) * 256 + c.toNat
    base64Char (n / 262144) :: base64Char (n / 4096 % 64) :: base64Char (n / 64 % 64) ::
      base64Char (n % 64) :: base64Chars rest
  | [a, b] =>
    let n := a.toNat * 256 + b.toNat
    [base64Char (n / 1024), base64Char (n / 16 % 64), base64Char (n % 16 * 4), '=']
  | [a] => [base64Char (a.toNat / 4), base64Char (a.toNat % 4 * 16), '=', '=']
  | [] => []

/-- `base64.b64encode(data).decode("ascii")`. -/
def base64 (data : Bytes) : String := String.ofList (base64Chars data)

/-! ## Decoding UTF-8 -/

/-- The replacement character. -/
def replacement : Char := Char.ofNat 0xFFFD

/-- A continuation byte. -/
def isContinuation (b : UInt8) : Bool := 0x80 ≤ b && b ≤ 0xBF

/-- The bytes that can follow a lead byte. -/
def followsLead (lead b : UInt8) : Bool :=
  if lead = 0xE0 then 0xA0 ≤ b && b ≤ 0xBF
  else if lead = 0xED then 0x80 ≤ b && b ≤ 0x9F
  else if lead = 0xF0 then 0x90 ≤ b && b ≤ 0xBF
  else if lead = 0xF4 then 0x80 ≤ b && b ≤ 0x8F
  else isContinuation b

/-- The bits that a continuation byte carries. -/
def continued (n : ℕ) (b : UInt8) : ℕ := n * 64 + b.toNat % 64

/-- The characters of a byte string; each longest broken start of a character is replaced as a whole. -/
def decodeChars : Bytes → List Char
  | [] => []
  | lead :: rest =>
    if lead < 0x80 then Char.ofNat lead.toNat :: decodeChars rest
    else if 0xC2 ≤ lead && lead ≤ 0xF4 then
      match rest with
      | [] => [replacement]
      | b :: rest₁ =>
        if !followsLead lead b then replacement :: decodeChars (b :: rest₁)
        else if lead ≤ 0xDF then Char.ofNat (continued (lead.toNat % 32) b) :: decodeChars rest₁
        else
          match rest₁ with
          | [] => [replacement]
          | c :: rest₂ =>
            if !isContinuation c then replacement :: decodeChars (c :: rest₂)
            else if lead ≤ 0xEF then
              Char.ofNat (continued (continued (lead.toNat % 16) b) c) :: decodeChars rest₂
            else
              match rest₂ with
              | [] => [replacement]
              | d :: rest₃ =>
                if !isContinuation d then replacement :: decodeChars (d :: rest₃)
                else Char.ofNat (continued (continued (continued (lead.toNat % 8) b) c) d) :: decodeChars rest₃
    else replacement :: decodeChars rest

/-- `data.decode("utf-8", errors="replace")`. -/
def decodeReplacing (data : Bytes) : String := String.ofList (decodeChars data)

end FleetWorkflow.Python
