import FleetWorkflow.Core.Masking

/-!
# Structured logging

A call on one of the fleet's loggers makes a record, the filter scrubs the record's rendered message, and every
handler writes the record as one JSON line. The extra fields of the call join the line as they are: they are
masked exactly when there is nothing in them to mask.
-/

namespace FleetWorkflow.Core

open Python

/-- A logger of the process, and whether the push to Loki is switched off. -/
structure Logger where
  name : String
  disableLoki : Bool

/-- A call `logger.log(level, msg, *args, extra={"fields": fields})`; a dictionary has a key once. -/
structure LogCall (α : Type) where
  levelno : ℕ
  levelname : String
  msg : String
  args : List α
  fields : Option Json
  distinct : ∀ entries, fields = some (.obj entries) → (entries.map Prod.fst).Nodup

/-- `logging.LogRecord`, with its creation time as the formatter writes it. -/
structure LogRecord (α : Type) where
  asctime : String
  levelno : ℕ
  levelname : String
  name : String
  msg : String
  args : List α
  fields : Option Json

/-- Where a handler sends its lines. -/
inductive Handler where
  | stdout
  | loki
deriving DecidableEq, Repr

section Emitting

variable {α : Type} (unicode : Unicode) (percent : String → List α → Except Exc String) (asctime : String)
  (logger : Logger)

/-- `record.getMessage()`: a message without arguments is not formatted. -/
def getMessage (msg : String) (args : List α) : Except Exc String :=
  if args.isEmpty then .ok msg else percent msg args

/-- `PiiScrubFilter.filter(record)`, which lets every record through. -/
def piiScrubFilter (record : LogRecord α) : Except Exc (LogRecord α) := do
  let message ← getMessage percent record.msg record.args
  return { record with msg := (scrub unicode message).text, args := [] }

/-- The document that the formatter writes: its own four members, updated by the extra fields. -/
def payload (asctime levelname name message : String) (fields : Option Json) : Dict :=
  let base := [("ts", .str asctime), ("level", .str levelname), ("logger", .str name), ("message", .str message)]
  match fields with
  | some (.obj extra) => Json.merge base extra
  | _ => base

/-- `_JsonFormatter.format(record)`. -/
def jsonFormat (record : LogRecord α) : Except Exc (List Char) := do
  let message ← getMessage percent record.msg record.args
  return dumpsRaw (.obj (payload record.asctime record.levelname record.name message record.fields))

/-- The handlers that `get_logger` adds, which share one formatter. -/
def Logger.handlers : List Handler := if logger.disableLoki then [.stdout] else [.stdout, .loki]

/-- `logger.log(…)`: the line that each handler writes; a handler whose formatter fails writes none. -/
def Logger.log (call : LogCall α) : Except Exc (List (Handler × List Char)) :=
  if call.levelno < 20 then .ok []
  else do
    let record ← piiScrubFilter unicode percent
      ⟨asctime, call.levelno, call.levelname, logger.name, call.msg, call.args, call.fields⟩
    return logger.handlers.filterMap fun handler =>
      match jsonFormat percent record with
      | .ok line => some (handler, line)
      | .error _ => none

/-- The call writes lines: its level is enabled, and its message can be rendered. -/
def LogCall.Emits (call : LogCall α) : Prop :=
  20 ≤ call.levelno ∧ ∃ message, getMessage percent call.msg call.args = .ok message

/-- The texts of the extra fields, at any depth; the names of the fields are not among them. -/
def LogCall.fieldTexts (call : LogCall α) : List String :=
  match call.fields with
  | some (.obj entries) => entries.flatMap fun entry => textsOf entry.2
  | _ => []

/-- Extra fields whose values are masked. -/
def maskExtra (fields : Option Json) : Option Json :=
  match fields with
  | some (.obj entries) => some (.obj (entries.map fun entry => (entry.1, maskJson unicode entry.2)))
  | other => other

/-- The line of a call in which the message and every value of the extra fields are masked. -/
def Masks (call : LogCall α) (line : List Char) : Prop :=
  ∃ message, getMessage percent call.msg call.args = .ok message ∧
    line = dumpsRaw (.obj (payload asctime call.levelname logger.name (scrub unicode message).text
      (maskExtra unicode call.fields)))

end Emitting

/-! ## Documents with masked values -/

section Members

variable {unicode : Unicode}

/-- A member with its value as it is, or masked. -/
def MaybeMasked (unicode : Unicode) (member member' : String × Json) : Prop :=
  member.1 = member'.1 ∧ (member'.2 = member.2 ∨ member'.2 = maskJson unicode member.2)

/-- A member is one of the two. -/
theorem MaybeMasked.refl (member : String × Json) : MaybeMasked unicode member member := ⟨rfl, .inl rfl⟩

/-- Setting a member. -/
theorem maybeMasked_insert {fields fields' : Dict} (h : List.Forall₂ (MaybeMasked unicode) fields fields')
    {member member' : String × Json} (hmember : MaybeMasked unicode member member') :
    List.Forall₂ (MaybeMasked unicode) (Json.insert fields member.1 member.2)
      (Json.insert fields' member'.1 member'.2) := by
  have hnames : fields.map Prod.fst = fields'.map Prod.fst := by
    induction h with
    | nil => rfl
    | cons hhead _ ih => rw [List.map_cons, List.map_cons, hhead.1, ih]
  have hany : (fields.any fun field => field.1 = member.1) = fields'.any fun field => field.1 = member'.1 := by
    have hmap : ∀ (dict : Dict) (key : String), (dict.any fun field => field.1 = key) =
        (dict.map Prod.fst).any fun name => name = key := by
      intro dict key
      rw [List.any_map]
      rfl
    rw [hmap, hmap, hnames, hmember.1]
  rw [Json.insert, Json.insert, hany]
  split
  · rw [List.forall₂_map_left_iff, List.forall₂_map_right_iff]
    apply h.imp
    intro field field' hfield
    rw [hmember.1, hfield.1]
    split
    · exact ⟨rfl, hmember.2⟩
    · exact hfield
  · exact List.rel_append h (.cons hmember .nil)

/-- Setting members one after another. -/
theorem maybeMasked_merge (entries : Dict) {fields fields' : Dict} (h : List.Forall₂ (MaybeMasked unicode) fields fields') :
    List.Forall₂ (MaybeMasked unicode) (Json.merge fields entries)
      (Json.merge fields' (entries.map fun entry => (entry.1, maskJson unicode entry.2))) := by
  induction entries generalizing fields fields' with
  | nil => exact h
  | cons entry entries ih => exact ih (@maybeMasked_insert _ _ _ h entry _ ⟨rfl, .inr rfl⟩)

/-- Documents that are written alike are alike. -/
theorem eq_of_dumpsRaw_eq {fields fields' : Dict} (h : List.Forall₂ (MaybeMasked unicode) fields fields')
    (heq : dumpsRaw (.obj fields) = dumpsRaw (.obj fields')) : fields = fields' := by
  have hvalues : List.Forall₂ (fun field field' => Unambiguous escapeRaw field.2 field'.2) fields fields' := by
    apply h.imp
    intro field field' hfield
    rcases hfield.2 with hsame | hmasked
    · rw [hsame]
      exact .refl _
    · rw [hmasked]
      exact unambiguous_maskJson _
  have hobj := unambiguous_obj readBack_escapeRaw hvalues [] [] (by simpa [dumpsRaw] using heq)
  exact Json.obj.inj hobj.1

/-- Merging leaves what it does not name. -/
theorem get?_merge_of_not_mem {entries : Dict} {key : String} (h : key ∉ entries.map Prod.fst) (fields : Dict) :
    Json.get? (Json.merge fields entries) key = Json.get? fields key := by
  induction entries generalizing fields with
  | nil => rfl
  | cons entry entries ih =>
    rw [List.map_cons, List.mem_cons, not_or] at h
    rw [Json.merge_cons, ih h.2, Json.get?_insert, if_neg h.1]

/-- Merging gives each name that occurs once its value. -/
theorem get?_merge_of_mem {entries : Dict} (hdistinct : (entries.map Prod.fst).Nodup) {entry : String × Json}
    (h : entry ∈ entries) (fields : Dict) : Json.get? (Json.merge fields entries) entry.1 = some entry.2 := by
  induction entries generalizing fields with
  | nil => exact absurd h List.not_mem_nil
  | cons first entries ih =>
    rw [List.map_cons, List.nodup_cons] at hdistinct
    rw [Json.merge_cons]
    rcases List.mem_cons.mp h with rfl | hmem
    · rw [get?_merge_of_not_mem hdistinct.1, Json.get?_insert, if_pos rfl]
    · exact ih hdistinct.2 hmem _

/-- A document with masked fields is written like the one with the fields as they are exactly when there is nothing
to mask in them. -/
theorem merge_masked_iff {entries : Dict} (hdistinct : (entries.map Prod.fst).Nodup) (fields : Dict) :
    dumpsRaw (.obj (Json.merge fields entries)) =
        dumpsRaw (.obj (Json.merge fields (entries.map fun entry => (entry.1, maskJson unicode entry.2)))) ↔
      ∀ entry ∈ entries, maskJson unicode entry.2 = entry.2 := by
  constructor
  · intro h entry hentry
    have hsame : List.Forall₂ (MaybeMasked unicode) fields fields := List.forall₂_same.mpr fun field _ => .refl field
    have heq := eq_of_dumpsRaw_eq (maybeMasked_merge entries hsame) h
    have hnames : ((entries.map fun entry => (entry.1, maskJson unicode entry.2)).map Prod.fst).Nodup := by
      simpa [Function.comp_def] using hdistinct
    have hmasked := get?_merge_of_mem hnames (List.mem_map_of_mem hentry) fields
    rw [← heq, get?_merge_of_mem hdistinct hentry] at hmasked
    exact (Option.some.inj hmasked).symm
  · intro h
    have hmap : entries.map (fun entry => (entry.1, maskJson unicode entry.2)) = entries := by
      apply (List.map_congr_left fun entry hentry => ?_).trans entries.map_id
      rw [h entry hentry]
      rfl
    rw [hmap]

end Members

/-! ## Lines -/

section Lines

variable {α : Type} {unicode : Unicode} {percent : String → List α → Except Exc String} {asctime : String}
  {logger : Logger}

/-- The standard output is always written to. -/
theorem stdout_mem_handlers (logger : Logger) : .stdout ∈ logger.handlers := by
  rw [Logger.handlers]
  split <;> simp

/-- A call that is not rendered, or is below its logger's level, writes nothing. -/
theorem log_of_not_emits {call : LogCall α} (h : ¬ call.Emits percent) {lines : List (Handler × List Char)}
    (hlog : logger.log unicode percent asctime call = .ok lines) : lines = [] := by
  rw [Logger.log] at hlog
  split at hlog
  · exact (Except.ok.inj hlog).symm
  · rename_i hlevel
    cases hrendered : getMessage percent call.msg call.args with
    | ok message => exact absurd ⟨Nat.le_of_not_lt hlevel, message, hrendered⟩ h
    | error e =>
      rw [piiScrubFilter, hrendered] at hlog
      cases hlog

/-- Every handler writes the line with the message scrubbed and the fields as they are. -/
theorem log_of_emits {call : LogCall α} {message : String} (hlevel : 20 ≤ call.levelno)
    (hrendered : getMessage percent call.msg call.args = .ok message) :
    logger.log unicode percent asctime call = .ok (logger.handlers.map fun handler => (handler,
      dumpsRaw (.obj (payload asctime call.levelname logger.name (scrub unicode message).text call.fields)))) := by
  have hscrubbed : ∀ text : String, getMessage percent text [] = .ok text := fun _ => rfl
  rw [Logger.log, if_neg (Nat.not_lt.mpr hlevel), piiScrubFilter, hrendered]
  simp [jsonFormat, hscrubbed, List.filterMap_eq_map']

/-- The payload with masked fields is written like the payload itself exactly when the texts of the fields are clean. -/
theorem payload_masked_iff (call : LogCall α) (message : String) :
    dumpsRaw (.obj (payload asctime call.levelname logger.name message call.fields)) =
        dumpsRaw (.obj (payload asctime call.levelname logger.name message (maskExtra unicode call.fields))) ↔
      ∀ text ∈ call.fieldTexts, Clean unicode text := by
  cases hfields : call.fields with
  | none => simp [maskExtra, LogCall.fieldTexts, hfields]
  | some value =>
    cases value with
    | obj entries =>
      have hiff := @merge_masked_iff unicode _ (call.distinct entries hfields) [("ts", .str asctime),
        ("level", .str call.levelname), ("logger", .str logger.name), ("message", .str message)]
      simp only [maskExtra, payload, LogCall.fieldTexts, hfields, hiff, maskJson_eq_self_iff, List.mem_flatMap]
      constructor
      · intro h text htext
        obtain ⟨entry, hentry, hmem⟩ := htext
        exact h entry hentry text hmem
      · intro h entry hentry text hmem
        exact h text ⟨entry, hentry, hmem⟩
    | _ => simp [maskExtra, LogCall.fieldTexts, hfields]

/-- Every line that a call emits is masked exactly when the call emits nothing or every text of its extra fields, at
any depth, is clean. -/
theorem log_masks_iff (unicode : Unicode) (percent : String → List α → Except Exc String) (asctime : String)
    (logger : Logger) (call : LogCall α) :
    (∀ lines, logger.log unicode percent asctime call = .ok lines →
        ∀ line ∈ lines, Masks unicode percent asctime logger call line.2) ↔
      (call.Emits percent → ∀ text ∈ call.fieldTexts, Clean unicode text) := by
  constructor
  · intro h hemits
    obtain ⟨hlevel, message, hrendered⟩ := hemits
    obtain ⟨message', hrendered', heq⟩ := h _ (log_of_emits hlevel hrendered) _
      (List.mem_map_of_mem (stdout_mem_handlers logger))
    rw [hrendered] at hrendered'
    rw [← Except.ok.inj hrendered'] at heq
    exact (payload_masked_iff call _).mp heq
  · intro h lines hlog line hline
    by_cases hemits : call.Emits percent
    · obtain ⟨hlevel, message, hrendered⟩ := hemits
      rw [log_of_emits hlevel hrendered] at hlog
      rw [← Except.ok.inj hlog] at hline
      obtain ⟨handler, -, rfl⟩ := List.mem_map.mp hline
      exact ⟨message, hrendered, (payload_masked_iff call _).mpr (h ⟨hlevel, message, hrendered⟩)⟩
    · rw [log_of_not_emits hemits hlog] at hline
      exact absurd hline List.not_mem_nil

/-- A logger with both handlers. -/
def automationLogger : Logger := ⟨"fleet.automation", false⟩

/-- The log call of the internal notification, for a title. -/
def automationNotify (title : String) : LogCall Json where
  levelno := 20
  levelname := "INFO"
  msg := "automation.notify"
  args := []
  fields := some (.obj [("title", .str title)])
  distinct entries h := by
    rw [← Json.obj.inj (Option.some.inj h)]
    simp

/-- A title with an address. -/
def addressTitle : String := String.ofList ['a', '@', 'b', '.', 'c', 'o']

/-- The address is found. -/
theorem addressTitle_found : ¬ Clean .asciiOnly addressTitle := by
  decide

/-- An address in the title of a notification is written as it is. -/
theorem automationNotify_not_masked :
    ¬ ∀ lines, automationLogger.log .asciiOnly (fun msg _ => .ok msg) "2026-01-01T00:00:00+0000"
        (automationNotify addressTitle) = .ok lines →
      ∀ line ∈ lines, Masks .asciiOnly (fun msg _ => .ok msg) "2026-01-01T00:00:00+0000" automationLogger
        (automationNotify addressTitle) line.2 := by
  intro h
  obtain ⟨message, hrendered, heq⟩ := h _ (log_of_emits (Nat.le_refl 20) rfl) _
    (List.mem_map_of_mem (stdout_mem_handlers automationLogger))
  rw [← Except.ok.inj hrendered] at heq
  have hclean := (payload_masked_iff (automationNotify addressTitle) _).mp heq
  exact addressTitle_found (hclean addressTitle List.mem_cons_self)

end Lines

end FleetWorkflow.Core
