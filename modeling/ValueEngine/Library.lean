import ValueEngine.Json.Document
import ValueEngine.Property.Table

/-! What an engine has from libraries: the hash under which its objects keep their names, and
the reader of documents. Both are parameters of the operations that need them: what these
do depends neither on which hash it is nor on which texts are documents, and the laws of
the engine hold for every choice of both. Where none is named the standard ones are meant,
by which the engine can be run. -/

namespace ValueEngine

class Library where
  /-- The hash of a name. -/
  hash : String → Nat
  /-- The content of a text that is a document. -/
  document? : String → Option Json.Document

instance Library.standard : Library := ⟨Property.nameHash, Json.Document.parse?⟩

end ValueEngine
