import Mathlib
import VectorQuery.Backend.Scripted
import VectorQuery.Proofs.Selection.Apart
import VectorQuery.Proofs.Session.Steps

/-!
# The names in a field list that is sent

A selection may hold snippets of several words, over several lines.  The logical names in them are
replaced by the backend's where they stand alone between single spaces, and a line break beside one
keeps it from being replaced.

* `Session.fieldList_renamed_iff` — **which selections are sent under the backend's names**;
* `Session.fieldList_keeps_logical` — a snippet over several lines is not one of them.
-/

namespace VectorQuery.Session

open Selection

variable {σ : Type} [Backend σ]

/-- **A field list is sent under the names of the backend iff logical names stand alone.**  In every
session that can come about in which something is selected, the request can be made, and its field
list is what is written of the selection, each piece between single spaces under its name for the
backend.  Its words are those that are written, each under its name for the backend, iff in every
name that is selected, be it flat, a key or a leaf, logical names stand alone between single spaces;
and no word is a logical name iff they do. -/
theorem fieldList_renamed_iff (collection : Collection) (defaults : Defaults) (backend : σ)
    (events : List (Event σ)) :
    let session := (start collection defaults backend).after events
    let selection := session.query.selection
    selection.HasFields →
    ∃ written request, selection.fields = .ok written ∧ session.query.fetchRequest = .ok request
      ∧ request.fields = " ".intercalate ((pieces written).map backendSpelling)
      ∧ (tokens request.fields = (tokens written).map backendSpelling
        ↔ ∀ name ∈ Field.listNames selection.outline, Apart name)
      ∧ ((∀ token ∈ tokens request.fields, ¬ Logical token)
        ↔ ∀ name ∈ Field.listNames selection.outline, Apart name) := by
  intro session selection hselected
  have hrendered : session.query.Rendered := rendered_start collection defaults backend events
  obtain ⟨request, hrequest⟩ := hrendered.request
  obtain ⟨written, hwritten⟩ : ∃ written, selection.fields = .ok written := hrendered
  obtain ⟨fields, hfields, rfl⟩ := Query.fetchRequest_eq_ok_iff.1 hrequest
  have hrender : selection.render session.query.collection.attributes = .ok (renameAll written) := by
    rw [render, isEmpty_eq, decide_eq_true hselected, hwritten]
    rfl
  obtain rfl : fields = renameAll written := Except.ok.inj (hfields.symm.trans hrender)
  refine ⟨written, _, hwritten, hrequest, renameAll_eq written, ?_, ?_⟩
  · exact tokens_renameAll_iff.trans (apart_fields_iff hwritten)
  · exact not_logical_renameAll_iff.trans (apart_fields_iff hwritten)

/-- A snippet of several words with runs of spaces, and a leaf of two words. -/
def spacedSnippet : List (Event ScriptedBackend) :=
  [.own (.build (.select ["_additional \x7b  id  created_at \x7d"]
    (some (.object [("author", .text "name updated_at")]))))]

/-- Its logical names are replaced. -/
theorem fieldList_renamed_iff_spacedSnippet :
    let session := (start ⟨"Article", ["title"]⟩ ⟨.nan, 25⟩ ({} : ScriptedBackend)).after spacedSnippet
    session.query.selection.HasFields
    ∧ ∃ request, session.query.fetchRequest = .ok request
      ∧ ∀ token ∈ tokens request.fields, ¬ Logical token := by
  intro session
  have hselected : session.query.selection.HasFields := Or.inl (List.cons_ne_nil _ _)
  have hapart : ∀ name ∈ Field.listNames session.query.selection.outline, Apart name := by
    decide +kernel
  obtain ⟨-, request, -, hrequest, -, -, hlogical⟩ :=
    fieldList_renamed_iff ⟨"Article", ["title"]⟩ ⟨.nan, 25⟩ ({} : ScriptedBackend) spacedSnippet
      hselected
  exact ⟨hselected, request, hrequest, hlogical.2 hapart⟩

/-- A snippet over several lines. -/
def brokenSnippet : List (Event ScriptedBackend) :=
  [.own (.build (.select ["_additional \x7b\n  id\n  created_at\n\x7d"] none))]

/-- A logical name before a line break is sent as it is. -/
theorem fieldList_keeps_logical :
    let session := (start ⟨"Article", ["title"]⟩ ⟨.nan, 25⟩ ({} : ScriptedBackend)).after brokenSnippet
    session.query.selection.HasFields
    ∧ ∃ request, session.query.fetchRequest = .ok request
      ∧ "created_at" ∈ tokens request.fields :=
  ⟨Or.inl (List.cons_ne_nil _ _), _, rfl, by decide +kernel⟩

end VectorQuery.Session
