import FleetWorkflow.Python.Text

/-!
# Name-based UUIDs

`uuid.uuid5(uuid.NAMESPACE_URL, name)`: the first sixteen bytes of the SHA-1 digest of the
namespace followed by the UTF-8 name, with the version and variant bits set.
-/

namespace FleetWorkflow.Python

/-- Rotate a 32-bit word to the left. -/
def rotateLeft (x : UInt32) (k : UInt32) : UInt32 := (x <<< k) ||| (x >>> (32 - k))

/-- The bytes of a natural number, most significant first. -/
def bigEndian : ℕ → ℕ → List UInt8
  | 0, _ => []
  | k + 1, n => UInt8.ofNat (n / 256 ^ k) :: bigEndian k n

/-- The SHA-1 padding: one set bit, zeros, and the length in bits on eight bytes. -/
def sha1Pad (message : List UInt8) : List UInt8 :=
  let zeros := (119 - message.length % 64) % 64
  message ++ [0x80] ++ List.replicate zeros 0 ++ bigEndian 8 (8 * message.length)

/-- Split a list of bytes into big-endian 32-bit words. -/
def words : List UInt8 → List UInt32
  | a :: b :: c :: d :: rest =>
    ((a.toUInt32 <<< 24) ||| (b.toUInt32 <<< 16) ||| (c.toUInt32 <<< 8) ||| d.toUInt32) :: words rest
  | _ => []

/-- Extend the message schedule, kept with its newest word first, by `k` words. -/
def sha1Schedule : ℕ → List UInt32 → List UInt32
  | 0, ws => ws
  | k + 1, ws =>
    let word := rotateLeft (ws.getD 2 0 ^^^ ws.getD 7 0 ^^^ ws.getD 13 0 ^^^ ws.getD 15 0) 1
    sha1Schedule k (word :: ws)

/-- The five chaining words of SHA-1. -/
structure Sha1State where
  a : UInt32
  b : UInt32
  c : UInt32
  d : UInt32
  e : UInt32

/-- The round function and constant of round `t`. -/
def sha1Round (t : ℕ) (s : Sha1State) : UInt32 × UInt32 :=
  if t < 20 then ((s.b &&& s.c) ||| (~~~s.b &&& s.d), 0x5A827999)
  else if t < 40 then (s.b ^^^ s.c ^^^ s.d, 0x6ED9EBA1)
  else if t < 60 then ((s.b &&& s.c) ||| (s.b &&& s.d) ||| (s.c &&& s.d), 0x8F1BBCDC)
  else (s.b ^^^ s.c ^^^ s.d, 0xCA62C1D6)

/-- Run the rounds from number `t` on the remaining schedule words. -/
def sha1Rounds : ℕ → List UInt32 → Sha1State → Sha1State
  | _, [], s => s
  | t, w :: ws, s =>
    let (f, k) := sha1Round t s
    sha1Rounds (t + 1) ws ⟨rotateLeft s.a 5 + f + s.e + k + w, s.a, rotateLeft s.b 30, s.c, s.d⟩

/-- Absorb the 64-byte blocks of a padded message. -/
def sha1Blocks : ℕ → List UInt32 → Sha1State → Sha1State
  | 0, _, s => s
  | blocks + 1, ws, s =>
    let schedule := (sha1Schedule 64 (ws.take 16).reverse).reverse
    let r := sha1Rounds 0 schedule s
    sha1Blocks blocks (ws.drop 16) ⟨s.a + r.a, s.b + r.b, s.c + r.c, s.d + r.d, s.e + r.e⟩

/-- The SHA-1 digest of a byte string. -/
def sha1 (message : List UInt8) : List UInt8 :=
  let padded := sha1Pad message
  let s := sha1Blocks (padded.length / 64) (words padded)
    ⟨0x67452301, 0xEFCDAB89, 0x98BADCFE, 0x10325476, 0xC3D2E1F0⟩
  [s.a, s.b, s.c, s.d, s.e].flatMap fun word => bigEndian 4 word.toNat

/-- The bytes of `uuid.NAMESPACE_URL`. -/
def namespaceUrl : List UInt8 :=
  [0x6b, 0xa7, 0xb8, 0x11, 0x9d, 0xad, 0x11, 0xd1, 0x80, 0xb4, 0x00, 0xc0, 0x4f, 0xd4, 0x30, 0xc8]

/-- Two lowercase hexadecimal digits. -/
def hexByte (b : UInt8) : List Char := [Nat.digitChar (b.toNat / 16), Nat.digitChar (b.toNat % 16)]

/-- The textual form of sixteen bytes, `8-4-4-4-12`. -/
def uuidText (bytes : List UInt8) : String :=
  let hex := bytes.flatMap hexByte
  String.ofList (hex.take 8 ++ ['-'] ++ (hex.drop 8).take 4 ++ ['-'] ++ (hex.drop 12).take 4 ++ ['-'] ++
    (hex.drop 16).take 4 ++ ['-'] ++ hex.drop 20)

/-- `str(uuid.uuid5(uuid.NAMESPACE_URL, name))`. -/
def uuid5Url (name : String) : String :=
  let digest := (sha1 (namespaceUrl ++ name.toUTF8.data.toList)).take 16
  uuidText (digest.mapIdx fun i b =>
    if i = 6 then (b &&& 0x0F) ||| 0x50 else if i = 8 then (b &&& 0x3F) ||| 0x80 else b)

/-- A digit is not an equals sign. -/
theorem digitChar_ne_equals (n : ℕ) : Nat.digitChar n ≠ '=' := by
  by_cases hn : n < 16
  · have hall : ∀ m < 16, Nat.digitChar m ≠ '=' := by decide
    exact hall n hn
  · rw [Nat.digitChar_eq_star.mpr (Nat.le_of_not_lt hn)]
    decide

/-- The textual form of an identifier holds digits and hyphens. -/
theorem not_mem_uuidText (bytes : List UInt8) : '=' ∉ (uuidText bytes).toList := by
  have hhex : '=' ∉ bytes.flatMap hexByte := by
    intro hmem
    obtain ⟨b, -, hb⟩ := List.mem_flatMap.mp hmem
    simp only [hexByte, List.mem_cons, List.not_mem_nil, or_false] at hb
    rcases hb with hb | hb
    · exact digitChar_ne_equals _ hb.symm
    · exact digitChar_ne_equals _ hb.symm
  have htake : ∀ n, '=' ∉ (bytes.flatMap hexByte).take n := fun n hmem => hhex (List.mem_of_mem_take hmem)
  have hdrop : ∀ n, '=' ∉ (bytes.flatMap hexByte).drop n := fun n hmem => hhex (List.mem_of_mem_drop hmem)
  have hmiddle : ∀ n, '=' ∉ ((bytes.flatMap hexByte).drop n).take 4 :=
    fun n hmem => hdrop n (List.mem_of_mem_take hmem)
  simp only [uuidText, String.toList_ofList, List.mem_append, List.mem_singleton, htake, hdrop, hmiddle,
    false_or, or_false]
  decide

end FleetWorkflow.Python
