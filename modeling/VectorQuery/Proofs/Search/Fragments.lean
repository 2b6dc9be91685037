import Mathlib
import VectorQuery.Proofs.Search.Accumulation
import VectorQuery.Proofs.Wire.Denotation

/-!
# Search fragments carry what was given

The fragments of a request are texts that stand for what the successful calls have given, and for
nothing else.

* `Search.Fragment` — a fragment, its wire text and the document that calls come to;
* `Search.document?_withDistance`, `Search.document?_prompt` — the two forms of a fragment are read
  back;
* `Search.document?_ofCalls` — the fragments of sound calls are read back as their documents;
* `Search.fragments_read_back` — **after any calls, a fragment is read back as what has been given**.
-/

namespace VectorQuery.Search

/-! ### Fragments -/

/-- The document of a directive with its distance. -/
def distanceDocument (key : String) (given : Json) (distance : Binary64) : Json :=
  .object [(key, given), ("distance", .float distance)]

/-- The document of the phrases of calls, with the distance of the last call that gives phrases. -/
def phrasesDocument? (calls : List (SearchCall Binary64)) : Option Json :=
  if (calls.flatMap (·.phrases)).isEmpty then none
  else (lastOf (·.phraseDistance?) calls).map
    (distanceDocument "concepts"
      (.array ((calls.flatMap (·.phrases)).map fun phrase => .text (phrase.map softened))))

/-- The document of a prompt under a key: its text with softened quotes, and the attributes as they
are, if there are any. -/
def promptDocument (key : String) (prompt : Prompt) : Json :=
  .object ((key, .text (prompt.text.map softened)) ::
    if prompt.attributes.isEmpty then []
    else [("properties", .array (prompt.attributes.map .text))])

/-- A fragment of a request. -/
inductive Fragment
  | phrases
  | vector
  | object
  | keyword
  | question

namespace Fragment

/-- The wire text of a fragment. -/
def wire? (search : Search) : Fragment → Option String
  | .phrases => search.nearTextWire?
  | .vector => search.nearVectorWire?
  | .object => search.nearObjectWire?
  | .keyword => search.keywordWire?
  | .question => search.questionWire?

/-- Whether a call gives something for a fragment. -/
def IsGiven (call : SearchCall Binary64) : Fragment → Prop
  | .phrases => call.phrases ≠ []
  | .vector => call.vector?.isSome = true
  | .object => call.object?.isSome = true
  | .keyword => call.keyword?.isSome = true
  | .question => call.question?.isSome = true

/-- The document that calls come to in a fragment. -/
def document? (calls : List (SearchCall Binary64)) : Fragment → Option Json
  | .phrases => phrasesDocument? calls
  | .vector => (lastOf (·.vector?) calls).map fun given =>
    distanceDocument "vector" (.array (given.1.map .float)) given.2
  | .object => (lastOf (·.object?) calls).map fun given =>
    distanceDocument "id" (.text given.1) given.2
  | .keyword => (lastOf (·.keyword?) calls).map (promptDocument "query")
  | .question => (lastOf (·.question?) calls).map (promptDocument "question")

/-- There is a document once a call has given something for it. -/
theorem isSome_document?_iff (calls : List (SearchCall Binary64)) (fragment : Fragment) :
    (fragment.document? calls).isSome = true ↔ ∃ call ∈ calls, fragment.IsGiven call := by
  cases fragment with
  | phrases =>
    show (phrasesDocument? calls).isSome = true ↔ ∃ call ∈ calls, call.phrases ≠ []
    by_cases hnone : ∀ call ∈ calls, call.phrases = []
    · have hempty : (calls.flatMap (·.phrases)).isEmpty = true := by simpa using hnone
      rw [phrasesDocument?, if_pos hempty]
      simpa using hnone
    · have hempty : ¬ (calls.flatMap (·.phrases)).isEmpty = true := by simpa using hnone
      have hsome : ∃ call ∈ calls, call.phrases ≠ [] := by simpa using hnone
      obtain ⟨call, hcall, hphrases⟩ := hsome
      have hdistance : call.phraseDistance?.isSome = true := by
        cases call <;> first | rfl | exact absurd rfl hphrases
      rw [phrasesDocument?, if_neg hempty, isSome_map_lastOf_iff]
      exact ⟨fun _ => ⟨call, hcall, hphrases⟩, fun _ => ⟨call, hcall, hdistance⟩⟩
  | vector => exact isSome_map_lastOf_iff
  | object => exact isSome_map_lastOf_iff
  | keyword => exact isSome_map_lastOf_iff
  | question => exact isSome_map_lastOf_iff

end Fragment

/-! ### Reading fragments back -/

section

open Wire

/-- A field before a distance. -/
theorem document?_withDistance {key : String} (hkey : isBareWord key.toList = true)
    (hother : key ∉ ["operator", "distance"]) {wire : String} {document : Json}
    (h : Denotes 1 wire document) {distance : Binary64} (hfinite : distance.isFinite = true) :
    Wire.document? (Wire.record [(key, wire), ("distance", wireFloat.write distance)])
      = .ok (distanceDocument key document distance) := by
  simp only [List.mem_cons, List.not_mem_nil, or_false, not_or] at hother
  have hgiven : FieldDenotes 1 (key, wire, document) := .intro hkey hother.1 h
  have hdistance : FieldDenotes 1 ("distance", wireFloat.write distance, .float distance) :=
    .intro (by decide) (by decide) (denotes_float 1 hfinite)
  have hkeys : [key, "distance"].Nodup := by simpa using hother.2
  exact (Denotes.record (List.forall_mem_cons.2 ⟨hgiven, List.forall_mem_singleton.2 hdistance⟩)
    hkeys).document? (by decide)

/-- A prompt is read back under a key of its own. -/
theorem document?_prompt {key : String} (hkey : isBareWord key.toList = true)
    (hother : key ∉ ["operator", "properties"]) (prompt : Prompt) :
    Wire.document? (prompt.soften.wire key) = .ok (promptDocument key prompt) := by
  simp only [List.mem_cons, List.not_mem_nil, or_false, not_or] at hother
  obtain ⟨text, attributes⟩ := prompt
  have htext : FieldDenotes 1 (key, quote (text.map softened), .text (text.map softened)) :=
    .intro hkey hother.1 (denotes_quote 1 _)
  cases attributes with
  | nil =>
    exact (Denotes.record (List.forall_mem_singleton.2 htext) (List.nodup_singleton key)).document?
      (by decide)
  | cons first others =>
    have hproperties : FieldDenotes 1 ("properties", Wire.list ((first :: others).map quote),
        .array ((first :: others).map .text)) :=
      .intro (by decide) (by decide) (Denotes.list fun name _ => denotes_quote 0 name)
    have hkeys : [key, "properties"].Nodup := by simpa using hother.2
    exact (Denotes.record (List.forall_mem_cons.2 ⟨htext, List.forall_mem_singleton.2 hproperties⟩)
      hkeys).document? (by decide)

/-- The phrases of sound calls are read back. -/
theorem document?_phrases {calls : List (SearchCall Binary64)}
    (hsound : ∀ call ∈ calls, call.isSound = true) :
    (ofCalls calls).nearTextWire?.map Wire.document?
      = (Fragment.document? calls .phrases).map Except.ok := by
  have hempty : (ofCalls calls).phrases.isEmpty = (calls.flatMap (·.phrases)).isEmpty :=
    List.isEmpty_map
  rw [nearTextWire?, Fragment.document?, phrasesDocument?, hempty]
  split
  · rfl
  · rw [Option.map_map, Option.map_map]
    refine Option.map_congr fun distance hlast => ?_
    obtain ⟨call, hcall, hgiven⟩ := exists_of_lastOf hlast
    have hconcepts : Denotes 1 (Wire.list ((ofCalls calls).phrases.map quote))
        (.array ((calls.flatMap (·.phrases)).map fun phrase => .text (phrase.map softened))) := by
      rw [ofCalls, List.map_map]
      exact Denotes.list fun phrase _ => denotes_quote 0 (phrase.map softened)
    rw [Function.comp_apply, Function.comp_apply]
    exact document?_withDistance (by decide) (by decide) hconcepts
      (isFinite_of_phraseDistance (hsound call hcall) hgiven)

/-- The vector of sound calls is read back. -/
theorem document?_vector {calls : List (SearchCall Binary64)}
    (hsound : ∀ call ∈ calls, call.isSound = true) :
    (ofCalls calls).nearVectorWire?.map Wire.document?
      = (Fragment.document? calls .vector).map Except.ok := by
  rw [nearVectorWire?, Fragment.document?, Option.map_map, Option.map_map]
  refine Option.map_congr fun given hlast => ?_
  obtain ⟨call, hcall, hgiven⟩ := exists_of_lastOf hlast
  obtain ⟨hvector, hdistance⟩ := isFinite_of_vector (hsound call hcall) hgiven
  have hcomponents : Denotes 1 (Wire.list (given.1.map wireFloat.write))
      (.array (given.1.map .float)) :=
    Denotes.list fun x hx => denotes_float 0 (hvector x hx)
  rw [Function.comp_apply, Function.comp_apply]
  exact document?_withDistance (by decide) (by decide) hcomponents hdistance

/-- The object of sound calls is read back. -/
theorem document?_object {calls : List (SearchCall Binary64)}
    (hsound : ∀ call ∈ calls, call.isSound = true) :
    (ofCalls calls).nearObjectWire?.map Wire.document?
      = (Fragment.document? calls .object).map Except.ok := by
  rw [nearObjectWire?, Fragment.document?, Option.map_map, Option.map_map]
  refine Option.map_congr fun given hlast => ?_
  obtain ⟨call, hcall, hgiven⟩ := exists_of_lastOf hlast
  rw [Function.comp_apply, Function.comp_apply]
  exact document?_withDistance (by decide) (by decide) (denotes_quote 1 given.1)
    (isFinite_of_object (hsound call hcall) hgiven)

/-- The fragments of sound calls are read back as their documents. -/
theorem document?_ofCalls {calls : List (SearchCall Binary64)}
    (hsound : ∀ call ∈ calls, call.isSound = true) (fragment : Fragment) :
    (fragment.wire? (ofCalls calls)).map Wire.document?
      = (fragment.document? calls).map Except.ok := by
  cases fragment with
  | phrases => exact document?_phrases hsound
  | vector => exact document?_vector hsound
  | object => exact document?_object hsound
  | keyword =>
    rw [Fragment.wire?, Fragment.document?, keywordWire?, ofCalls, Option.map_map, Option.map_map,
      Option.map_map]
    exact Option.map_congr fun prompt _ => document?_prompt (by decide) (by decide) prompt
  | question =>
    rw [Fragment.wire?, Fragment.document?, questionWire?, ofCalls, Option.map_map, Option.map_map,
      Option.map_map]
    exact Option.map_congr fun prompt _ => document?_prompt (by decide) (by decide) prompt

end

/-- **A fragment is read back as the document of the calls.**  Of any calls, in any order, those
succeed that are sound.  A fragment is there iff one of these gives something for it, and the reader
finds in it what they give: all phrases in their order, or else what the last one gives; quotes are
softened in texts, and the numbers, which are finite, and the attributes are the same. -/
theorem fragments_read_back (calls : List (SearchCall Binary64)) (fragment : Fragment) :
    let run := Change.onAll perform {} calls
    let done := Change.succeeded run.1
    done = calls.filter (·.isSound)
    ∧ ((fragment.wire? run.2).isSome = true ↔ ∃ call ∈ done, fragment.IsGiven call)
    ∧ (fragment.wire? run.2).map Wire.document? = (fragment.document? done).map Except.ok := by
  intro run done
  have hdone : done = calls.filter (·.isSound) := succeeded_onAll {} calls
  have hlast : run.2 = ofCalls done := by
    have h := onAll_ofCalls [] calls
    rwa [List.nil_append] at h
  have hsound : ∀ call ∈ done, call.isSound = true := by
    intro call hcall
    rw [hdone] at hcall
    exact List.of_mem_filter hcall
  have hread := document?_ofCalls hsound fragment
  rw [hlast]
  refine ⟨hdone, ?_, hread⟩
  have hsome := congrArg Option.isSome hread
  rw [Option.isSome_map, Option.isSome_map] at hsome
  rw [hsome, Fragment.isSome_document?_iff]

/-- Calls with double quotes in their texts; the first one and the empty keywords fail. -/
def quotedCalls : List (SearchCall Binary64) :=
  [.nearText ["lost"] .nan,
    .nearText ["say \"hi\""] (.ofDecimal false 25 (-2)),
    .byKeyword "a \"b\"" ["the \"title\""],
    .nearText ["sea\\"] (.ofDecimal false 5 (-1)),
    .byKeyword "" []]

/-- The phrases of both searches that succeed are there with the last distance, and the keywords with
their attributes as they are; nothing was asked. -/
theorem fragments_read_back_quotedCalls :
    let search := (Change.onAll perform {} quotedCalls).2
    search.nearTextWire?.map Wire.document?
      = some (.ok (.object
          [("concepts", .array [.text "say 'hi'", .text "sea\\"]),
            ("distance", .float (.ofDecimal false 5 (-1)))]))
    ∧ search.keywordWire?.map Wire.document?
      = some (.ok (.object
          [("query", .text "a 'b'"), ("properties", .array [.text "the \"title\""])]))
    ∧ search.questionWire?.map Wire.document? = none := by
  intro search
  obtain ⟨hdone, -, hphrases⟩ := fragments_read_back quotedCalls .phrases
  obtain ⟨-, -, hkeyword⟩ := fragments_read_back quotedCalls .keyword
  obtain ⟨-, -, hquestion⟩ := fragments_read_back quotedCalls .question
  have hsound : quotedCalls.filter (·.isSound)
      = [.nearText ["say \"hi\""] (.ofDecimal false 25 (-2)),
        .byKeyword "a \"b\"" ["the \"title\""],
        .nearText ["sea\\"] (.ofDecimal false 5 (-1))] := by
    rfl
  have hsoftened : ∀ {text kept : String}, text.toList.map softened = kept.toList →
      text.map softened = kept := by
    intro text kept h
    rw [← String.toList_inj, String.toList_map, h]
  have hhi : "say \"hi\"".map softened = "say 'hi'" := hsoftened (by decide)
  have hsea : "sea\\".map softened = "sea\\" := hsoftened (by decide)
  have hb : "a \"b\"".map softened = "a 'b'" := hsoftened (by decide)
  rw [hdone, hsound] at hphrases hkeyword hquestion
  refine ⟨hphrases.trans ?_, hkeyword.trans ?_, hquestion⟩
  · simp [Fragment.document?, phrasesDocument?, distanceDocument, lastOf, hhi, hsea]
  · simp [Fragment.document?, promptDocument, lastOf, hb]

end VectorQuery.Search
