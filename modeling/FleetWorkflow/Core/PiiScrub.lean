import FleetWorkflow.Python.Regex

/-!
# Scrubbing of identifiers

The lightweight pass over chat messages and log lines that masks e-mail addresses, Turkish account,
telephone and identity numbers.
-/

namespace FleetWorkflow.Core

open Python

/-- The character database as far as patterns ask it beyond digits and spaces. -/
structure Unicode where
  isAlnum : Char → Bool
  ascii : ∀ c : Char, c.toNat < 128 → isAlnum c = (isAsciiDigit c || isAsciiLower c || isAsciiUpper c)

/-- The class `\w`. -/
def Unicode.isWord (unicode : Unicode) (c : Char) : Bool := unicode.isAlnum c || c = '_'

/-- A character database that knows the letters and digits of ASCII only. -/
def Unicode.asciiOnly : Unicode where
  isAlnum c := isAsciiDigit c || isAsciiLower c || isAsciiUpper c
  ascii _ _ := rfl

/-- The value of a decimal digit of any script. -/
def decimalValue (c : Char) : ℕ :=
  match decimalZeros.find? fun first => first ≤ c.toNat && c.toNat < first + 10 with
  | some first => c.toNat - first
  | none => 0

/-- `_EMAIL_RE`. -/
def emailRe (unicode : Unicode) : Re :=
  .all [.boundary, .chars (fun c => unicode.isWord c || c = '.' || c = '+' || c = '-') 1 none, .one (· = '@'),
    .chars (fun c => unicode.isWord c || c = '-') 1 none, .one (· = '.'),
    .chars (fun c => unicode.isWord c || c = '.' || c = '-') 1 none, .boundary]

/-- `_TR_IBAN_RE`. -/
def trIbanRe : Re := .all [.boundary, .text ['T', 'R'], .times 2 isDecimal, .times 5 isDecimal, .times 17 isDecimal, .boundary]

/-- A separator in a telephone number. -/
def phoneSeparator : Re := .maybe fun c => isSpace c || c = '.' || c = '-'

/-- `_TR_PHONE_RE`. -/
def trPhoneRe : Re :=
  .all [.boundary, .alt (.alt (.text ['+', '9', '0']) (.text ['0'])) (.all []), .one (· = '5'), .times 2 isDecimal,
    phoneSeparator, .times 3 isDecimal, phoneSeparator, .times 2 isDecimal, phoneSeparator, .times 2 isDecimal, .boundary]

/-- `_TCKN_CANDIDATE_RE`. -/
def tcknCandidateRe : Re := .all [.boundary, .times 11 isDecimal, .boundary]

/-- `_tckn_checksum_valid(digits)`. -/
def tcknChecksumValid (digits : List Char) : Bool :=
  if digits.length ≠ 11 || digits.head? = some '0' then false
  else
    match digits.map fun c => (decimalValue c : ℤ) with
    | [n0, n1, n2, n3, n4, n5, n6, n7, n8, n9, n10] =>
      let oddSum := n0 + n2 + n4 + n6 + n8
      let evenSum := n1 + n3 + n5 + n7
      let d10 := (oddSum * 7 - evenSum) % 10
      let d11 := (n0 + n1 + n2 + n3 + n4 + n5 + n6 + n7 + n8 + d10) % 10
      n9 = d10 && n10 = d11
    | _ => false

/-- A scrubbed text, and whether anything was found. -/
structure ScrubResult where
  text : String
  found : Bool

/-- `scrub(text)`. -/
def scrub (unicode : Unicode) (text : String) : ScrubResult :=
  let cs := text.toList
  let noEmail := (emailRe unicode).sub unicode.isWord (fun _ => ['[', 'E', 'M', 'A', 'I', 'L', ']']) cs
  let noIban := trIbanRe.sub unicode.isWord (fun _ => ['[', 'T', 'R', '_', 'I', 'B', 'A', 'N', ']']) noEmail
  let noPhone := trPhoneRe.sub unicode.isWord (fun _ => ['[', 'T', 'R', '_', 'P', 'H', 'O', 'N', 'E', ']']) noIban
  let masked := tcknCandidateRe.sub unicode.isWord
    (fun m => if tcknChecksumValid m then ['[', 'T', 'R', '_', 'T', 'C', 'K', 'N', ']'] else m) noPhone
  { text := String.ofList masked
    found := noEmail ≠ cs || noIban ≠ noEmail || noPhone ≠ noIban ||
      (tcknCandidateRe.findall unicode.isWord noPhone).any tcknChecksumValid }

end FleetWorkflow.Core
