import Mathlib.Algebra.Group.Nat.Defs
import Mathlib.Data.List.Basic
import Mathlib.Data.Nat.Basic

/-!
# Python text predicates

The character classes and string methods of Python that the modelled code uses, over `Char`.
A Python string may also hold lone surrogates; no validated text of the API does, and they
have no counterpart here.
-/

namespace FleetWorkflow.Python

/-- The characters matched by `\s` in a text pattern, which are those `str.strip` removes. -/
def isSpace (c : Char) : Bool :=
  let n := c.toNat
  (9 ≤ n && n ≤ 13) || (28 ≤ n && n ≤ 32) || n = 0x85 || n = 0xA0 || n = 0x1680 ||
    (0x2000 ≤ n && n ≤ 0x200A) || n = 0x2028 || n = 0x2029 || n = 0x202F || n = 0x205F || n = 0x3000

/-- A test that fails on every character of a list. -/
theorem forall_of_all {p : Char → Bool} {cs : List Char} (h : cs.all (fun c => !p c) = true) : ∀ c ∈ cs, p c = false := by
  simpa using h

/-- A run of characters of a class is taken and dropped up to what is not of the class. -/
theorem takeWhile_run {p : Char → Bool} {run rest : List Char} (hrun : ∀ c ∈ run, p c = true)
    (hrest : ∀ c ∈ rest.head?, p c = false) : (run ++ rest).takeWhile p = run ∧ (run ++ rest).dropWhile p = rest := by
  rw [List.takeWhile_append_of_pos hrun, List.dropWhile_append_of_pos hrun]
  cases rest with
  | nil => simp
  | cons c rest => simp [hrest c rfl]

/-- First code points of the runs of ten decimal digits of the character database. -/
def decimalZeros : List ℕ :=
  [0x30, 0x660, 0x6F0, 0x7C0, 0x966, 0x9E6, 0xA66, 0xAE6, 0xB66, 0xBE6, 0xC66, 0xCE6, 0xD66, 0xDE6,
    0xE50, 0xED0, 0xF20, 0x1040, 0x1090, 0x17E0, 0x1810, 0x1946, 0x19D0, 0x1A80, 0x1A90, 0x1B50,
    0x1BB0, 0x1C40, 0x1C50, 0xA620, 0xA8D0, 0xA900, 0xA9D0, 0xA9F0, 0xAA50, 0xABF0, 0xFF10, 0x104A0,
    0x10D30, 0x11066, 0x110F0, 0x11136, 0x111D0, 0x112F0, 0x11450, 0x114D0, 0x11650, 0x116C0,
    0x11730, 0x118E0, 0x11950, 0x11C50, 0x11D50, 0x11DA0, 0x11F50, 0x16A60, 0x16AC0, 0x16B50,
    0x1D7CE, 0x1D7D8, 0x1D7E2, 0x1D7EC, 0x1D7F6, 0x1E140, 0x1E2F0, 0x1E4F0, 0x1E950, 0x1FBF0]

/-- The characters matched by `\d` in a text pattern: the decimal digits of every script. -/
def isDecimal (c : Char) : Bool :=
  decimalZeros.any fun first => first ≤ c.toNat && c.toNat < first + 10

/-- The class `[0-9]`. -/
def isAsciiDigit (c : Char) : Bool := '0' ≤ c && c ≤ '9'

/-- The class `[a-z]`. -/
def isAsciiLower (c : Char) : Bool := 'a' ≤ c && c ≤ 'z'

/-- The class `[A-Z]`. -/
def isAsciiUpper (c : Char) : Bool := 'A' ≤ c && c ≤ 'Z'

/-- `str.strip()` on a list of characters. -/
def stripChars (cs : List Char) : List Char :=
  ((cs.dropWhile isSpace).reverse.dropWhile isSpace).reverse

/-- `str.strip()`. -/
def strip (s : String) : String := String.ofList (stripChars s.toList)

/-- `s.startswith(start)`. -/
def startsWith (s start : String) : Bool := start.toList.isPrefixOf s.toList

/-- The end anchor of a pattern matches at the end and before one final newline. -/
def dropFinalNewline (cs : List Char) : List Char :=
  if cs.getLast? = some '\n' then cs.dropLast else cs

/-- The four hexadecimal digits of a code unit, as the encoder writes them. -/
def hex4 (n : ℕ) : List Char :=
  [Nat.digitChar (n / 4096 % 16), Nat.digitChar (n / 256 % 16), Nat.digitChar (n / 16 % 16),
    Nat.digitChar (n % 16)]

/-- One character inside a JSON string literal, escaped to ASCII. -/
def escapeChar (c : Char) : List Char :=
  let n := c.toNat
  if c = '"' then ['\\', '"']
  else if c = '\\' then ['\\', '\\']
  else if c = '\n' then ['\\', 'n']
  else if c = '\r' then ['\\', 'r']
  else if c = '\t' then ['\\', 't']
  else if n = 12 then ['\\', 'f']
  else if n = 8 then ['\\', 'b']
  else if 32 ≤ n && n ≤ 126 then [c]
  else if n < 0x10000 then ['\\', 'u'] ++ hex4 n
  else
    ['\\', 'u'] ++ hex4 (0xD800 + (n - 0x10000) / 1024) ++
      ['\\', 'u'] ++ hex4 (0xDC00 + (n - 0x10000) % 1024)

/-- `json.dumps` of a string, with the default `ensure_ascii`. -/
def dumpsStr (s : String) : String :=
  String.ofList (['"'] ++ s.toList.flatMap escapeChar ++ ['"'])

example : dumpsStr "a\"\né😀" = "\"a\\\"\\n\\u00e9\\ud83d\\ude00\"" := by decide

/-!
## Digits

The decimal digits of every script: what they are not, and the number that a row of them writes.
-/

/-- What is decided for the ten characters of every run holds of the digits. -/
theorem forall_isDecimal {p : Char → Bool}
    (h : decimalZeros.all (fun first => (List.range 10).all fun i => p (Char.ofNat (first + i))) = true) {c : Char}
    (hc : isDecimal c = true) : p c = true := by
  simp only [isDecimal, List.any_eq_true, Bool.and_eq_true, decide_eq_true_eq] at hc
  obtain ⟨first, hfirst, hle, hlt⟩ := hc
  have hrange := List.all_eq_true.mp (List.all_eq_true.mp h first hfirst) (c.toNat - first)
    (List.mem_range.mpr (by omega))
  rwa [Nat.add_sub_cancel' hle, Char.ofNat_toNat] at hrange

/-- A digit is no space. -/
theorem isSpace_of_isDecimal {c : Char} (h : isDecimal c = true) : isSpace c = false := by
  have hnot := @forall_isDecimal (fun c => !isSpace c) (by decide +kernel) c h
  simpa using hnot

/-!
## The end of a line

A pattern that ends with `$` and has no class with a newline accepts the words of a language, and each of them with one
newline behind it. It agrees with the language on every other text, and on none of these.
-/

variable {cs : List Char} {accepted : List Char → Prop}

/-- One newline behind a word is left out by the end anchor. -/
@[simp] theorem dropFinalNewline_append_newline (word : List Char) : dropFinalNewline (word ++ ['\n']) = word := by
  simp [dropFinalNewline]

/-- A text without a newline is not cut by the end anchor. -/
theorem dropFinalNewline_of_notMem (h : '\n' ∉ cs) : dropFinalNewline cs = cs := by
  rw [dropFinalNewline, if_neg]
  intro hlast
  exact h (List.mem_of_getLast? hlast)

/-- What the end anchor leaves is the text, or the text without its final newline. -/
theorem eq_or_eq_append_dropFinalNewline (cs : List Char) :
    cs = dropFinalNewline cs ∨ cs = dropFinalNewline cs ++ ['\n'] := by
  rw [dropFinalNewline]
  split
  · rename_i hlast
    exact .inr (List.dropLast_append_getLast? _ hlast).symm
  · exact .inl rfl

/-- The end anchor looks behind a character that is no newline. -/
theorem dropFinalNewline_append_cons {c : Char} (hc : c ≠ '\n') (before rest : List Char) :
    dropFinalNewline (before ++ c :: rest) = before ++ c :: dropFinalNewline rest := by
  cases rest with
  | nil => simp [dropFinalNewline, hc]
  | cons d rest =>
    rw [dropFinalNewline, dropFinalNewline, List.getLast?_append, List.getLast?_cons_cons]
    split
    · rename_i hlast
      rw [if_pos (by simpa using hlast), List.dropLast_append_cons, List.dropLast_cons_cons]
    · rename_i hlast
      rw [if_neg (by simpa using hlast)]

/-- A pattern accepts the words of its language, and each with one newline behind it. -/
theorem accepted_dropFinalNewline_iff (hword : ∀ word, accepted word → '\n' ∉ word) :
    accepted (dropFinalNewline cs) ↔ accepted cs ∨ ∃ word, accepted word ∧ cs = word ++ ['\n'] := by
  constructor
  · intro h
    rcases eq_or_eq_append_dropFinalNewline cs with heq | heq
    · rw [heq]
      exact .inl h
    · exact .inr ⟨_, h, heq⟩
  · intro h
    rcases h with h | ⟨word, h, rfl⟩
    · rwa [dropFinalNewline_of_notMem (hword cs h)]
    · rwa [dropFinalNewline_append_newline]

/-- A pattern agrees with its language on a text exactly when the text is no word with a newline behind it. -/
theorem accepted_dropFinalNewline_agrees (hword : ∀ word, accepted word → '\n' ∉ word) :
    (accepted (dropFinalNewline cs) ↔ accepted cs) ↔ ¬ ∃ word, accepted word ∧ cs = word ++ ['\n'] := by
  rw [accepted_dropFinalNewline_iff hword]
  constructor
  · intro hagrees hbroken
    have hcs := hagrees.mp (.inr hbroken)
    obtain ⟨word, -, rfl⟩ := hbroken
    exact hword _ hcs (List.mem_append_right _ (List.mem_singleton_self _))
  · intro hwhole
    exact or_iff_left hwhole

end FleetWorkflow.Python
