import Mathlib.Data.List.Defs
import FleetWorkflow.Python.Bytes

/-!
# Chunks

A text is split at blank lines, and its paragraphs are packed into chunks up to a budget of words.
A chunk is identified by the digest of its content.
-/

namespace FleetWorkflow.Rag

open Python

/-- A piece of a document. -/
structure Chunk where
  content : String
deriving DecidableEq, Repr

/-- The digest under which a chunk is known. -/
def Chunk.contentSha256 (chunk : Chunk) : String := sha256 (encodeUtf8 chunk.content)

/-- The words of `text.split()`, after the characters of a word that has begun. -/
def splitWordsFrom (begun : List Char) : List Char → List String
  | [] => if begun = [] then [] else [String.ofList begun.reverse]
  | c :: rest =>
    if isSpace c then
      if begun = [] then splitWordsFrom [] rest
      else String.ofList begun.reverse :: splitWordsFrom [] rest
    else splitWordsFrom (c :: begun) rest

/-- `text.split()`. -/
def splitWords (text : String) : List String := splitWordsFrom [] text.toList

/-- The parts of `text.split("\n\n")`, after the characters of a part that has begun. -/
def splitParagraphsFrom (begun : List Char) : List Char → List String
  | '\n' :: '\n' :: rest => String.ofList begun.reverse :: splitParagraphsFrom [] rest
  | c :: rest => splitParagraphsFrom (c :: begun) rest
  | [] => [String.ofList begun.reverse]

/-- `text.split("\n\n")`. -/
def splitParagraphs (text : String) : List String := splitParagraphsFrom [] text.toList

/-- The loop of `chunk_text`: the chunks so far, and the paragraphs of the one that is being filled. -/
structure Packing where
  chunks : List Chunk
  current : List String
  currentLen : ℕ

/-- The chunks with the one that is being filled. -/
def Packing.flush (packing : Packing) : List Chunk :=
  if packing.current = [] then packing.chunks
  else packing.chunks ++ [⟨String.intercalate "\n\n" packing.current⟩]

/-- Pack one paragraph; one that is over the budget is split on its own. -/
def Packing.add (maxTokens : ℕ) (packing : Packing) (para : String) : Packing :=
  let words := splitWords para
  if maxTokens < words.length then
    ⟨packing.flush ++ (words.toChunks maxTokens).map fun piece => ⟨String.intercalate " " piece⟩, [], 0⟩
  else if maxTokens < packing.currentLen + words.length ∧ packing.current ≠ [] then
    ⟨packing.flush, [para], words.length⟩
  else ⟨packing.chunks, packing.current ++ [para], packing.currentLen + words.length⟩

/-- `chunk_text(text, max_tokens=...)`. -/
def chunkText (maxTokens : ℕ) (text : String) : List Chunk :=
  let paragraphs := ((splitParagraphs text).map strip).filter (· ≠ "")
  (paragraphs.foldl (Packing.add maxTokens) ⟨[], [], 0⟩).flush

/-- The default budget of a chunk. -/
def defaultMaxTokens : ℕ := 400

/-- Drop the chunks whose digest is already embedded. -/
def dedupChunks (chunks : List Chunk) (existingHashes : List String) : List Chunk :=
  chunks.filter fun chunk => chunk.contentSha256 ∉ existingHashes

end FleetWorkflow.Rag
