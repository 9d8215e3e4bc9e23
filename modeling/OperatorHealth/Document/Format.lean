import OperatorHealth.Document.Basic

/-!
# Formats of documents

Documents stand in files as texts. Which text a document has, and which document is in a text, is
settled by a format that is given from outside: YAML, as the library reads and writes it that the
program is built with. Nothing here depends on how that is done. Where it matters that what was
written is read back, it is asked for by name.

## Main definitions

* `DocumentFormat`: writing and reading documents.
* `LawfulDocumentFormat`: what is written is read back.
-/

namespace OperatorHealth

/-- How documents stand in texts. -/
class DocumentFormat where
  /-- The text of a document, if it can be written. -/
  write? : Document → Option String
  /-- The document in a text, if the text is one. -/
  read? : String → Option Document

/-- A format that reads back what it has written. -/
class LawfulDocumentFormat [DocumentFormat] : Prop where
  /-- A document can be written if its keys are texts. -/
  isSome_write? (d : Document) : d.hasTextKeys = true → (DocumentFormat.write? d).isSome = true
  /-- The text of a document, on a line that is ended, is read as that document. -/
  read?_of_write? {d : Document} {text : String} :
    DocumentFormat.write? d = some text → DocumentFormat.read? (text ++ "\n") = some d
  /-- A text without a character stands for nothing. -/
  read?_empty : DocumentFormat.read? "" = some .null

end OperatorHealth
