import FleetWorkflow.Rag.Calls

/-!
# Text of a document

The text layer of an upload, by its file extension, and the text of a scan: a vision model reads it
unless it is confidential, and the local engine reads it when that did not help.
-/

namespace FleetWorkflow.Rag

open Python Async

/-- The libraries behind ingestion. -/
structure Libraries where
  py : Builtins
  upper : String → String
  pdfPages : Bytes → Except Exc (List String)
  docxParagraphs : Bytes → Except Exc (List String)
  scanText : String → Except Exc (List PiiFinding)

variable (libraries : Libraries)

/-- The extensions of images. -/
def imageExtensions : List String := [".png", ".jpg", ".jpeg", ".tiff", ".bmp", ".gif", ".webp"]

/-- `_extension(filename)`: the last dot and what follows it. -/
def extension (filename : String) : String :=
  match filename.toList.reverse.span (· ≠ '.') with
  | (_, []) => ""
  | (after, _ :: _) => libraries.py.lower (String.ofList ('.' :: after.reverse))

/-- A text layer, or the need to read the upload as an image. -/
structure ExtractResult where
  text : String
  needsOcr : Bool

/-- Extract plain text from an uploaded file. -/
def extractText (data : Bytes) (filename : String) : Except Exc ExtractResult := do
  let ext := extension libraries filename
  if ext = ".pdf" then
    let pages ← libraries.pdfPages data
    let text := String.intercalate "\n\n" ((pages.map strip).filter (· ≠ ""))
    return ⟨text, strip text = ""⟩
  else if ext = ".docx" then
    let paragraphs ← libraries.docxParagraphs data
    return ⟨String.intercalate "\n\n" (paragraphs.filter (strip · ≠ "")), false⟩
  else if ext = ".txt" then return ⟨decodeReplacing data, false⟩
  else if ext ∈ imageExtensions then return ⟨"", true⟩
  else .error ⟨.valueError, "unsupported file type: " ++ ext⟩

/-! ## Scans -/

/-- The names of the sensitivities, in order. -/
def sensitivityNames : List String := ["PUBLIC", "INTERNAL", "CONFIDENTIAL", "PII"]

/-- `Sensitivity.parse(value)`. -/
def parseSensitivity (value : String) : Except Exc ℕ :=
  match sensitivityNames.findIdx? fun name => name = libraries.upper value with
  | some level => .ok level
  | none => .error ⟨.valueError, "unknown sensitivity: " ++ libraries.py.repr (.str value)⟩

/-- The level from which a scan is read locally only. -/
def localOnlyFloor : ℕ := 2

/-- What the vision model is asked. -/
def ocrPrompt : String :=
  "Extract all text from this image exactly as it appears, preserving " ++
  "reading order. Reply with only the extracted text, no commentary."

/-- The message with the image. -/
def visionMessage (image : Bytes) : Json :=
  .obj [("role", .str "user"), ("content", .arr [
    .obj [("type", .str "text"), ("text", .str ocrPrompt)],
    .obj [("type", .str "image_url"),
      ("image_url", .obj [("url", .str ("data:image/png;base64," ++ base64 image))])]])]

/-- Read a scan with the vision model. -/
def tryVision (image : Bytes) (sensitivity : String) : Coroutine String := do
  let content ← await (.reasoning [visionMessage image] sensitivity)
  return strip (content.getD "")

/-- A text and how it was read. -/
structure OcrResult where
  text : String
  source : String

/-- The text of a reader, or nothing when the reader fails. -/
def textOrNothing (reader : Coroutine String) : Coroutine String := do
  match ← reader.attempt with
  | .ok text => return text
  | .error _ => return ""

/-- `ocr_image(...)`: the vision model unless the scan is confidential, then the local engine. -/
def ocrImage (image : Bytes) (sensitivity : String) : Coroutine OcrResult := do
  let level ← Prog.ofExcept (parseSensitivity libraries sensitivity)
  let text ← if level < localOnlyFloor then textOrNothing (tryVision image sensitivity) else pure ""
  if text ≠ "" then return ⟨text, "vision-llm"⟩
  else
    let text ← textOrNothing (await (.tesseract image))
    if text ≠ "" then return ⟨text, "tesseract"⟩ else return ⟨"", "none"⟩

end FleetWorkflow.Rag
