import FleetWorkflow.Core.PiiScrub

/-!
# Quarantine of untrusted content

Retrieved content is put between delimiters with a nonce, and whatever looks like a delimiter in it
is defanged.
-/

namespace FleetWorkflow.Core

open Python

/-- A letter of the tag in either case; the long s counts as an s. -/
def tagLetter (letter c : Char) : Bool :=
  c = letter || c = letter.toUpper || letter = 's' && c.toNat = 0x17F

/-- `_TAG_TOKEN_RE`. -/
def tagTokenRe : Re :=
  .all [.one (· = '<'), .maybe (· = '/'), .chars isSpace 0 none,
    .all (['u', 'n', 't', 'r', 'u', 's', 't', 'e', 'd', '_', 'c', 'o', 'n', 't', 'e', 'x', 't'].map fun letter =>
      .one (tagLetter letter)),
    .boundary, .chars (· ≠ '>') 0 none, .maybe (· = '>')]

/-- A bracket that is visible and delimits nothing. -/
def defang (c : Char) : Char := if c = '<' then '‹' else if c = '>' then '›' else c

/-- `_neutralise_delimiters(text)`. -/
def neutraliseDelimiters (unicode : Unicode) (text : String) : String :=
  String.ofList (tagTokenRe.sub unicode.isWord (fun cs => cs.map defang) text.toList)

/-- A body between delimiters with a nonce. -/
def quarantined (nonce body : String) : String :=
  "<untrusted_context nonce=\"" ++ nonce ++ "\">\n" ++ body ++ "\n</untrusted_context nonce=\"" ++ nonce ++ "\">"

/-- The numbered items of a block, from a number on. -/
def numbered (unicode : Unicode) : ℕ → List String → List String
  | _, [] => []
  | i, item :: rest => ("[chunk:" ++ Nat.repr i ++ "] " ++ neutraliseDelimiters unicode item) :: numbered unicode (i + 1) rest

/-- `wrap_untrusted(content)` on a list of texts. -/
def wrapUntrusted (unicode : Unicode) (nonce : String) (items : List String) : String :=
  quarantined nonce (String.intercalate "\n\n" (numbered unicode 1 items))

end FleetWorkflow.Core
