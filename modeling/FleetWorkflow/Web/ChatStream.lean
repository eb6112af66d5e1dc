import FleetWorkflow.Python.Value
import FleetWorkflow.Web.JsonCodec
import FleetWorkflow.Web.TextDecoder

/-!
# The chat stream and its reader

The API writes each event of a chat message as a block of two lines and a blank one. The web client
reads the bytes of the response in chunks, decodes them as they come, and takes complete blocks from
its buffer.
-/

namespace FleetWorkflow.Web

open Python

/-- An event of a stream with its data. -/
structure Frame where
  event : String
  data : Dict

/-- `_sse(event, data)`. -/
def Frame.sse (frame : Frame) : List Char :=
  ['e', 'v', 'e', 'n', 't', ':', ' '] ++ frame.event.toList ++
    '\n' :: (['d', 'a', 't', 'a', ':', ' '] ++ (dumps (.obj frame.data) ++ ['\n', '\n']))

/-- The white space and the line terminators that `trim` removes. -/
def isTrimmed (c : Char) : Bool :=
  let n := c.toNat
  (9 ≤ n && n ≤ 13) || n = 0x20 || n = 0xA0 || n = 0x1680 || (0x2000 ≤ n && n ≤ 0x200A) || n = 0x2028 ||
    n = 0x2029 || n = 0x202F || n = 0x205F || n = 0x3000 || n = 0xFEFF

/-- `text.trim()`. -/
def trim (cs : List Char) : List Char := ((cs.dropWhile isTrimmed).reverse.dropWhile isTrimmed).reverse

/-- The own enumerable properties of a value; the items and the units of a list and of a string are named by
their positions. -/
def ownProperties : JsValue → List (List ℕ × JsValue)
  | .object fields => fields
  | .array items => items.mapIdx fun i item => (utf16 (Nat.repr i).toList, item)
  | .string units => units.mapIdx fun i unit => (utf16 (Nat.repr i).toList, .string [unit])
  | _ => []

/-- `{ ...fields, ...data }`. -/
def spread (fields : List (List ℕ × JsValue)) (data : JsValue) : List (List ℕ × JsValue) :=
  (ownProperties data).foldl (fun defined property => defineProperty defined property.1 property.2) fields

/-- What the reader throws. -/
inductive ReaderError where
  | syntaxError
  | chatStreamFailed (status : ℕ)
deriving DecidableEq

/-- The name and the data of a block so far, with one line more. -/
def readLine (fields : Option (List Char) × Option (List Char)) (line : List Char) :
    Option (List Char) × Option (List Char) :=
  if ['e', 'v', 'e', 'n', 't', ':'].isPrefixOf line then (some (trim (line.drop 6)), fields.2)
  else if ['d', 'a', 't', 'a', ':'].isPrefixOf line then (fields.1, some (trim (line.drop 5)))
  else fields

/-- `parseSseBlock(block)`. -/
def parseSseBlock (block : List Char) : Except ReaderError (Option JsValue) :=
  match (block.splitOn '\n').foldl readLine (none, none) with
  | (some eventName, some dataLine) =>
    if eventName = [] then .ok none
    else
      match jsonParse dataLine with
      | none => .error .syntaxError
      | some data => .ok (some (.object (spread [(utf16 "type".toList, .string (utf16 eventName))] data)))
  | _ => .ok none

/-- The text before the first separator of two newlines, and the text after it. -/
def splitBlock : List Char → Option (List Char × List Char)
  | [] => none
  | '\n' :: '\n' :: rest => some ([], rest)
  | c :: rest => (splitBlock rest).map fun split => (c :: split.1, split.2)

/-- A separator is taken from the buffer with its block. -/
theorem splitBlock_length {buffer block rest : List Char} (h : splitBlock buffer = some (block, rest)) :
    rest.length < buffer.length := by
  induction buffer using splitBlock.induct generalizing block rest with
  | case1 => cases h
  | case2 more =>
    rw [splitBlock] at h
    cases h
    simp only [List.length_cons]
    omega
  | case3 c more hsep ih =>
    rw [splitBlock] at h
    · obtain ⟨split, hsplit, heq⟩ := Option.map_eq_some_iff.mp h
      cases heq
      have hless := ih hsplit
      rw [List.length_cons]
      omega
    · exact hsep

/-- The loop over the complete blocks of the buffer: their events, and the buffer that is left. -/
def drain (buffer : List Char) : List JsValue × Except ReaderError (List Char) :=
  match _h : splitBlock buffer with
  | none => ([], .ok buffer)
  | some (block, rest) =>
    match parseSseBlock block with
    | .error error => ([], .error error)
    | .ok event => (event.toList ++ (drain rest).1, (drain rest).2)
termination_by buffer.length
decreasing_by all_goals exact splitBlock_length _h

/-- The decoder and the buffer of a reader between two chunks. -/
structure Reader where
  decoder : TextDecoder
  buffer : List Char

/-- The loop over the chunks of a response. -/
def readChunks (reader : Reader) : List Bytes → List JsValue × Except ReaderError Reader
  | [] => ([], .ok reader)
  | chunk :: chunks =>
    let decoded := reader.decoder.decode chunk
    let drained := drain (reader.buffer ++ decoded.2)
    match drained.2 with
    | .error error => (drained.1, .error error)
    | .ok buffer =>
      (drained.1 ++ (readChunks ⟨decoded.1, buffer⟩ chunks).1, (readChunks ⟨decoded.1, buffer⟩ chunks).2)

/-- A response whose body comes in chunks. -/
structure Response where
  ok : Bool
  status : ℕ
  body : Option (List Bytes)

/-- `streamChatMessage(...)`, from the response on: the events that it yields, and how it ends. -/
def streamChatMessage (response : Response) : List JsValue × Except ReaderError Unit :=
  match response.ok, response.body with
  | true, some chunks =>
    let read := readChunks ⟨.initial, []⟩ chunks
    (read.1, read.2.map fun _ => ())
  | _, _ => ([], .error (.chatStreamFailed response.status))

end FleetWorkflow.Web
