import VectorQuery.Binary64.Layout
import VectorQuery.Change
import VectorQuery.Uuid
import VectorQuery.Wire.Basic

/-!
# Searches

The search directives of a query: by phrases, by a vector, by an object, by keyword and by a question. Each is
checked when it is given and then kept until it is replaced; only phrases add up.

* `Prompt` — a text and the attributes it is limited to.
* `Search` — the directives so far.
* `SearchCall` — a call with its arguments.
* `Search.perform` — what a call does to them; `Search.apply` — the directives after a call that does not fail.
* `nearTextWire?`, … — the wire text of each directive, if it is given.
-/

namespace VectorQuery

/-- A free text and the attributes it is limited to. -/
structure Prompt where
  text : String
  attributes : List String
deriving DecidableEq

/-- The search directives of a query. -/
structure Search where
  phrases : List String := []
  phraseDistance : Option Binary64 := none
  vector : Option (List Binary64 × Binary64) := none
  object : Option (String × Binary64) := none
  keyword : Option Prompt := none
  question : Option Prompt := none
deriving DecidableEq

/-- A text with every double quote turned into an apostrophe. -/
def softenQuotes (text : String) : String :=
  String.ofList (text.toList.map fun c => if c = '"' then '\x27' else c)

namespace Prompt

/-- The prompt of a text that is not empty. -/
def of (text : String) (attributes : List String) : Except Fault Prompt :=
  if text.isEmpty then .error .emptyPrompt else .ok ⟨softenQuotes text, attributes⟩

/-- The wire text of a prompt under a key. -/
def wire (key : String) (prompt : Prompt) : String :=
  let text := (key, Wire.quote prompt.text)
  if prompt.attributes.isEmpty then Wire.record [text]
  else Wire.record [text, ("properties", Wire.list (prompt.attributes.map Wire.quote))]

end Prompt

/-- A call that gives a directive; `δ` is what it says about the distance. -/
inductive SearchCall (δ : Type)
  | nearText (phrases : List String) (distance : δ)
  | nearVector (vector : List Binary64) (distance : δ)
  | nearObjectId (id : String) (distance : δ)
  | nearObject (id : Option String) (distance : δ)
  | byKeyword (text : String) (attributes : List String)
  | byQuestion (text : String) (attributes : List String)

namespace SearchCall

/-- The same call with another distance. -/
def map {δ ε : Type} (f : δ → ε) : SearchCall δ → SearchCall ε
  | .nearText phrases distance => .nearText phrases (f distance)
  | .nearVector vector distance => .nearVector vector (f distance)
  | .nearObjectId id distance => .nearObjectId id (f distance)
  | .nearObject id distance => .nearObject id (f distance)
  | .byKeyword text attributes => .byKeyword text attributes
  | .byQuestion text attributes => .byQuestion text attributes

/-- Whether a call searches by phrases and gives none. -/
def lacksPhrases {δ : Type} : SearchCall δ → Bool
  | .nearText phrases _ => phrases.isEmpty
  | _ => false

end SearchCall

namespace Search

/-! ### Directives -/

/-- A distance, which must be finite. -/
def finiteDistance (distance : Binary64) : Except Fault Binary64 :=
  if distance.isFinite then .ok distance else .error (.wrongType "Invalid value for distance")

/-- More phrases, and the distance for all of them. -/
def nearText (phrases : List String) (distance : Binary64) : Change Search Unit := do
  let distance ← Change.check (finiteDistance distance)
  modify fun search => { search with phrases := search.phrases ++ phrases.map softenQuotes }
  modify fun search => { search with phraseDistance := some distance }

/-- The vector to search near; its components are checked before the distance. -/
def nearVector (vector : List Binary64) (distance : Binary64) : Change Search Unit := do
  match vector.find? (!·.isFinite) with
  | some bad => throw (.wrongType ("invalid vector component " ++ plainFloat.write bad))
  | none =>
    let distance ← Change.check (finiteDistance distance)
    modify fun search => { search with vector := some (vector, distance) }

/-- The object to search near, by an id in hyphenated form, which is kept as it is written. -/
def nearObjectId (id : String) (distance : Binary64) : Change Search Unit := do
  if (Uuid.ofHyphenated? id.toList).isNone then throw (.wrongType s!"invalid uuid '{id}'")
  let distance ← Change.check (finiteDistance distance)
  modify fun search => { search with object := some (id, distance) }

/-- The object to search near, by the id it has if it is stored. -/
def nearObject (id : Option String) (distance : Binary64) : Change Search Unit :=
  match id with
  | none => throw (.wrongType "entity has no id")
  | some id => nearObjectId id distance

/-- The keywords to search for. -/
def byKeyword (text : String) (attributes : List String) : Change Search Unit := do
  let prompt ← Change.check (Prompt.of text attributes)
  modify fun search => { search with keyword := some prompt }

/-- The question to answer. -/
def byQuestion (text : String) (attributes : List String) : Change Search Unit := do
  let prompt ← Change.check (Prompt.of text attributes)
  modify fun search => { search with question := some prompt }

/-- What a call does to the directives. -/
def perform : SearchCall Binary64 → Change Search Unit
  | .nearText phrases distance => nearText phrases distance
  | .nearVector vector distance => nearVector vector distance
  | .nearObjectId id distance => nearObjectId id distance
  | .nearObject id distance => nearObject id distance
  | .byKeyword text attributes => byKeyword text attributes
  | .byQuestion text attributes => byQuestion text attributes

/-- The directives after a call that does not fail. -/
def apply (search : Search) (call : SearchCall Binary64) : Except Fault Search := (perform call).outcome search

/-! ### Wire text -/

/-- The wire text of the phrases, once there is one. -/
def nearTextWire? (search : Search) : Option String :=
  if search.phrases.isEmpty then none
  else search.phraseDistance.map fun distance =>
    Wire.record [("concepts", Wire.list (search.phrases.map Wire.quote)),
      ("distance", wireFloat.write distance)]

/-- The wire text of the vector. -/
def nearVectorWire? (search : Search) : Option String :=
  search.vector.map fun (vector, distance) =>
    Wire.record [("vector", Wire.list (vector.map wireFloat.write)), ("distance", wireFloat.write distance)]

/-- The wire text of the object. -/
def nearObjectWire? (search : Search) : Option String :=
  search.object.map fun (id, distance) =>
    Wire.record [("id", Wire.quote id), ("distance", wireFloat.write distance)]

/-- The wire text of the keywords. -/
def keywordWire? (search : Search) : Option String := search.keyword.map (Prompt.wire "query")

/-- The wire text of the question. -/
def questionWire? (search : Search) : Option String := search.question.map (Prompt.wire "question")

end Search

end VectorQuery
