import FleetWorkflow.Web.ChatStream

/-!
# The codec of the chat stream

However the bytes of a response are divided into chunks, the reader yields the events of the whole text
at once: the buffer holds what is left of the text so far, and no complete block. Of the blocks that the
API writes it yields the events that were written, in their order.
-/

namespace FleetWorkflow.Web

open Python

/-! ## Blocks -/

theorem drain_none {buffer : List Char} (h : splitBlock buffer = none) : drain buffer = ([], .ok buffer) := by
  rw [drain]
  split
  · rfl
  · rename_i hsome
    rw [h] at hsome
    cases hsome

theorem drain_some {buffer block rest : List Char} (h : splitBlock buffer = some (block, rest)) :
    drain buffer = match parseSseBlock block with
      | .error error => ([], .error error)
      | .ok event => (event.toList ++ (drain rest).1, (drain rest).2) := by
  rw [drain]
  split
  · rename_i hnone
    rw [h] at hnone
    cases hnone
  · rename_i hsome
    rw [h] at hsome
    cases hsome
    rfl

/-- The first block of a text stays the first one when more comes. -/
theorem splitBlock_append {buffer block rest : List Char} (h : splitBlock buffer = some (block, rest))
    (more : List Char) : splitBlock (buffer ++ more) = some (block, rest ++ more) := by
  induction buffer using splitBlock.induct generalizing block rest with
  | case1 => cases h
  | case2 after =>
    rw [splitBlock] at h
    cases h
    rfl
  | case3 c after hsep ih =>
    rw [splitBlock] at h
    · obtain ⟨split, hsplit, heq⟩ := Option.map_eq_some_iff.mp h
      cases heq
      rw [List.cons_append, splitBlock, ih hsplit]
      · rfl
      · intro rest' hc hafter
        cases after with
        | nil => cases hsplit
        | cons d after =>
          injection hafter with hd
          exact hsep after hc (congrArg (· :: after) hd)
    · exact hsep

/-- What is drained from a text leaves no complete block. -/
theorem drain_left {buffer left : List Char} {events : List JsValue} (h : drain buffer = (events, .ok left)) :
    splitBlock left = none := by
  induction hn : buffer.length using Nat.strong_induction_on generalizing buffer events with
  | _ n ih =>
    subst hn
    cases hsplit : splitBlock buffer with
    | none =>
      rw [drain_none hsplit] at h
      obtain ⟨-, hleft⟩ := Prod.mk.inj h
      obtain rfl := Except.ok.inj hleft
      exact hsplit
    | some split =>
      obtain ⟨block, rest⟩ := split
      rw [drain_some hsplit] at h
      cases hparse : parseSseBlock block with
      | error error =>
        rw [hparse] at h
        cases h
      | ok event =>
        rw [hparse] at h
        obtain ⟨-, hleft⟩ := Prod.mk.inj h
        exact ih rest.length (splitBlock_length hsplit) (Prod.ext rfl hleft) rfl

/-- A text in two parts is drained as the first part, and then what is left of it with the second. -/
theorem drain_append (buffer more : List Char) : drain (buffer ++ more) =
    match (drain buffer).2 with
    | .error error => ((drain buffer).1, .error error)
    | .ok left => ((drain buffer).1 ++ (drain (left ++ more)).1, (drain (left ++ more)).2) := by
  induction hn : buffer.length using Nat.strong_induction_on generalizing buffer with
  | _ n ih =>
    subst hn
    cases hsplit : splitBlock buffer with
    | none =>
      rw [drain_none hsplit]
      rfl
    | some split =>
      obtain ⟨block, rest⟩ := split
      rw [drain_some hsplit, drain_some (splitBlock_append hsplit more)]
      cases parseSseBlock block with
      | error error => rfl
      | ok event =>
        dsimp only
        rw [ih rest.length (splitBlock_length hsplit) rest rfl]
        cases (drain rest).2 with
        | error error => rfl
        | ok left => simp only [List.append_assoc]

/-! ## Chunks -/

/-- The chunks of a response are read as their concatenation. -/
theorem readChunks_eq {reader : Reader} (hbuffer : splitBlock reader.buffer = none) (chunks : List Bytes) :
    (readChunks reader chunks).1 = (drain (reader.buffer ++ (reader.decoder.decode chunks.flatten).2)).1 ∧
      (readChunks reader chunks).2.map Reader.buffer =
        (drain (reader.buffer ++ (reader.decoder.decode chunks.flatten).2)).2 := by
  induction chunks generalizing reader with
  | nil =>
    have hnothing : (reader.decoder.decode []).2 = [] := rfl
    rw [List.flatten_nil, hnothing, List.append_nil, drain_none hbuffer]
    exact ⟨rfl, rfl⟩
  | cons chunk chunks ih =>
    rw [List.flatten_cons, TextDecoder.decode_append, ← List.append_assoc, drain_append, readChunks]
    cases hdrained : drain (reader.buffer ++ (reader.decoder.decode chunk).2) with
    | mk events left =>
      cases left with
      | error error => exact ⟨rfl, rfl⟩
      | ok left =>
        obtain ⟨hevents, hleft⟩ := @ih ⟨(reader.decoder.decode chunk).1, left⟩ (drain_left hdrained)
        exact ⟨congrArg (events ++ ·) hevents, hleft⟩

/-! ## Frames -/

/-- A line is no separator. -/
theorem splitBlock_line {line : List Char} (h : '\n' ∉ line) (rest : List Char) :
    splitBlock (line ++ rest) = (splitBlock rest).map fun split => (line ++ split.1, split.2) := by
  induction line with
  | nil => simp
  | cons c line ih =>
    rw [List.mem_cons, not_or] at h
    rw [List.cons_append, splitBlock, ih h.2, Option.map_map]
    · rfl
    · intro more hc _
      exact h.1 hc.symm

/-- Two lines and a separator are taken as one block. -/
theorem splitBlock_lines {line next : List Char} (hline : '\n' ∉ line) (hnext : '\n' ∉ next) (hne : next ≠ [])
    (rest : List Char) :
    splitBlock (line ++ '\n' :: (next ++ '\n' :: '\n' :: rest)) = some (line ++ '\n' :: next, rest) := by
  have hseparator : splitBlock ('\n' :: (next ++ '\n' :: '\n' :: rest)) = some ('\n' :: next, rest) := by
    rw [splitBlock, splitBlock_line hnext, splitBlock]
    · simp
    · intro more _ heq
      cases next with
      | nil => exact hne rfl
      | cons c next =>
        injection heq with hc
        exact hnext (hc ▸ List.mem_cons_self)
  rw [splitBlock_line hline, hseparator]
  rfl

namespace Frame

/-- An event that the reader can tell apart: its name is a line without white space around it, and its data are a
JSON object that names no type. -/
structure Sendable (frame : Frame) : Prop where
  named : frame.event ≠ ""
  line : '\n' ∉ frame.event.toList
  trimmed : trim frame.event.toList = frame.event.toList
  typeFree : ∀ field ∈ frame.data, field.1 ≠ "type"
  encodable : EncodableFields frame.data

/-- The event that is meant by a frame: `{ type: event, ...data }`. -/
def value (frame : Frame) : JsValue :=
  .object ((utf16 "type".toList, .string (utf16 frame.event.toList)) :: ofFields frame.data)

end Frame

/-- Distinct new properties are put behind the others. -/
theorem spread_fields {defined : List (List ℕ × JsValue)} {fields : List (String × Json)} (hfields : EncodableFields fields)
    (hnew : ∀ field ∈ fields, ∀ property ∈ defined, property.1 ≠ utf16 field.1.toList) :
    spread defined (.object (ofFields fields)) = defined ++ ofFields fields := by
  induction fields generalizing defined with
  | nil => simp [spread, ownProperties, ofFields]
  | cons field rest ih =>
    obtain ⟨key, item⟩ := field
    obtain ⟨hkey, -, hrest⟩ := hfields
    have hlater : ∀ field ∈ rest, ∀ property ∈ defined ++ [(utf16 key.toList, ofPython item)],
        property.1 ≠ utf16 field.1.toList := by
      intro field hfield property hproperty
      rcases List.mem_append.mp hproperty with hproperty | hproperty
      · exact hnew field (List.mem_cons_of_mem _ hfield) property hproperty
      · obtain rfl := List.mem_singleton.mp hproperty
        intro heq
        exact hkey field hfield (String.toList_inj.mp (utf16_inj heq)).symm
    have hspread := ih hrest hlater
    simp only [spread, ownProperties, ofFields, List.foldl_cons] at hspread ⊢
    rw [defineProperty_new (hnew _ List.mem_cons_self), hspread, List.append_assoc, List.singleton_append]

/-- An encoded object is trimmed. -/
theorem trim_dumps (fields : Dict) : trim (dumps (.obj fields)) = dumps (.obj fields) := by
  have hopen : isTrimmed '\x7b' = false := rfl
  have hclose : isTrimmed '\x7d' = false := rfl
  rw [dumps, encode, trim, List.dropWhile_cons, if_neg (by simp [hopen]), List.reverse_cons, List.reverse_append,
    List.reverse_singleton, List.singleton_append, List.cons_append, List.dropWhile_cons, if_neg (by simp [hclose])]
  simp

/-- A block that the API writes is parsed as the event that is meant by it. -/
theorem parseSseBlock_frame {frame : Frame} (h : frame.Sendable) :
    parseSseBlock (['e', 'v', 'e', 'n', 't', ':', ' '] ++ frame.event.toList ++
      '\n' :: (['d', 'a', 't', 'a', ':', ' '] ++ dumps (.obj frame.data))) = .ok (some frame.value) := by
  have hdata : '\n' ∉ dumps (.obj frame.data) := newline_not_mem_dumps _ h.encodable
  have hlines : (['e', 'v', 'e', 'n', 't', ':', ' '] ++ frame.event.toList ++
      '\n' :: (['d', 'a', 't', 'a', ':', ' '] ++ dumps (.obj frame.data))).splitOn '\n' =
        [['e', 'v', 'e', 'n', 't', ':', ' '] ++ frame.event.toList,
          ['d', 'a', 't', 'a', ':', ' '] ++ dumps (.obj frame.data)] := by
    rw [List.splitOn_append_cons_self_of_not_mem (by simp [h.line]), List.splitOn_eq_singleton (by simp [hdata])]
  have hevent : trim (' ' :: frame.event.toList) = frame.event.toList := h.trimmed
  have hjson : trim (' ' :: dumps (.obj frame.data)) = dumps (.obj frame.data) := trim_dumps frame.data
  have hread : ([['e', 'v', 'e', 'n', 't', ':', ' '] ++ frame.event.toList,
      ['d', 'a', 't', 'a', ':', ' '] ++ dumps (.obj frame.data)].foldl readLine (none, none)) =
        (some frame.event.toList, some (dumps (.obj frame.data))) := by
    simp [readLine, hevent, hjson]
  have hname : frame.event.toList ≠ [] := by
    intro hnil
    exact h.named (String.toList_eq_nil_iff.mp hnil)
  have hnew : ∀ field ∈ frame.data, ∀ property ∈ [(utf16 "type".toList, JsValue.string (utf16 frame.event.toList))],
      property.1 ≠ utf16 field.1.toList := by
    intro field hfield property hproperty heq
    obtain rfl := List.mem_singleton.mp hproperty
    exact h.typeFree field hfield (String.toList_inj.mp (utf16_inj heq)).symm
  have hparse : jsonParse (dumps (.obj frame.data)) = some (ofPython (.obj frame.data)) := jsonParse_dumps h.encodable
  rw [parseSseBlock, hlines, hread]
  dsimp only
  rw [if_neg hname, hparse]
  dsimp only
  rw [ofPython, spread_fields h.encodable hnew]
  rfl

/-- A block at the start of the buffer yields its event. -/
theorem drain_frame {frame : Frame} (h : frame.Sendable) (rest : List Char) :
    drain (frame.sse ++ rest) = (frame.value :: (drain rest).1, (drain rest).2) := by
  have hdata : '\n' ∉ dumps (.obj frame.data) := newline_not_mem_dumps _ h.encodable
  have hsplit : splitBlock (frame.sse ++ rest) = some (['e', 'v', 'e', 'n', 't', ':', ' '] ++ frame.event.toList ++
      '\n' :: (['d', 'a', 't', 'a', ':', ' '] ++ dumps (.obj frame.data)), rest) := by
    rw [← splitBlock_lines (by simp [h.line]) (by simp [hdata]) (by simp)]
    simp [Frame.sse]
  rw [drain_some hsplit, parseSseBlock_frame h]
  rfl

/-- The blocks that the API writes yield their events, and nothing is left of them. -/
theorem drain_frames {frames : List Frame} (h : ∀ frame ∈ frames, frame.Sendable) :
    drain (frames.flatMap Frame.sse) = (frames.map Frame.value, .ok []) := by
  induction frames with
  | nil => exact drain_none rfl
  | cons frame frames ih =>
    rw [List.flatMap_cons, drain_frame (h frame List.mem_cons_self),
      ih fun other hother => h other (List.mem_cons_of_mem _ hother), List.map_cons]

/-- However the bytes of the frames that the API writes are divided into chunks, the reader yields exactly the
events that are meant by them, in their order, and ends. -/
theorem streamChatMessage_frames (frames : List Frame) (h : ∀ frame ∈ frames, frame.Sendable) (status : ℕ)
    (chunks : List Bytes) (hchunks : chunks.flatten = encodeUtf8 (String.ofList (frames.flatMap Frame.sse))) :
    streamChatMessage ⟨true, status, some chunks⟩ = (frames.map Frame.value, .ok ()) := by
  have hstart : (String.ofList (frames.flatMap Frame.sse)).toList.head? ≠ some byteOrderMark := by
    rw [String.toList_ofList]
    cases frames with
    | nil => simp
    | cons frame frames =>
      rw [List.flatMap_cons, Frame.sse]
      simp
      decide
  have htext := TextDecoder.decode_encodeUtf8 hstart
  obtain ⟨hevents, hleft⟩ := @readChunks_eq ⟨.initial, []⟩ rfl chunks
  rw [hchunks, htext, String.toList_ofList, List.nil_append, drain_frames h] at hevents hleft
  have hstream : streamChatMessage ⟨true, status, some chunks⟩ =
      ((readChunks ⟨.initial, []⟩ chunks).1, (readChunks ⟨.initial, []⟩ chunks).2.map fun _ => ()) := rfl
  rw [hstream, hevents]
  cases hread : (readChunks ⟨.initial, []⟩ chunks).2 with
  | error error =>
    rw [hread] at hleft
    cases hleft
  | ok reader => rfl

/-- The end of a stream. -/
def doneFrame : Frame := ⟨"done", [("message_id", .int 5), ("trace_id", .str "t1")]⟩

/-- An event with a text of two lines. -/
def tokenFrame : Frame := ⟨"token", [("delta", .str "\"é\"\n😀")]⟩

/-- Read byte by byte, the two are yielded one after the other. -/
theorem streamChatMessage_bytes :
    streamChatMessage ⟨true, 200, some ((encodeUtf8 (String.ofList ([tokenFrame, doneFrame].flatMap Frame.sse))).map ([·]))⟩ =
      ([tokenFrame.value, doneFrame.value], .ok ()) := by
  have hsendable : ∀ frame ∈ [tokenFrame, doneFrame], frame.Sendable := by
    intro frame hframe
    simp only [List.mem_cons, List.not_mem_nil, or_false] at hframe
    rcases hframe with rfl | rfl
    · exact ⟨by decide, by decide, by decide, by decide, by simp [tokenFrame, EncodableFields, Encodable]⟩
    · exact ⟨by decide, by decide, by decide, by decide, by simp [doneFrame, EncodableFields, Encodable]⟩
  have hchunks : ∀ bytes : Bytes, (bytes.map ([·])).flatten = bytes := by
    intro bytes
    induction bytes with
    | nil => rfl
    | cons byte bytes ih => rw [List.map_cons, List.flatten_cons, ih, List.singleton_append]
  exact streamChatMessage_frames _ hsendable 200 _ (hchunks _)

end FleetWorkflow.Web
