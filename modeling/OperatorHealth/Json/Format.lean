import OperatorHealth.Document.Format
import OperatorHealth.Json.Reader
import OperatorHealth.Json.Writer

/-!
# JSON as a format of documents

JSON is a part of YAML, in which every key is a text.

## Main definitions

* `Json.format`: documents in JSON.
-/

namespace OperatorHealth.Json

/-- Documents in JSON, written if their keys are texts. -/
scoped instance format : DocumentFormat where
  write? d := if d.hasTextKeys then some (write d) else none
  read? := read?

end OperatorHealth.Json
