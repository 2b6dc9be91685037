import Mathlib
import VectorQuery.Proofs.Text.Words
import VectorQuery.Selection

/-!
# The words of a field list under renaming

Logical names are replaced after the field list has been written, and only where one stands alone
between single spaces.  So the renaming meets every word of the text unless a logical name stands
beside a blank that is no space.  A text whose only blanks are spaces has no such place, whatever runs
of spaces it holds.

* `Selection.tokens`, `Selection.pieces` — the words of a text, and what stands between single
  spaces;
* `Selection.backendSpelling`, `Selection.Logical` — the three names that are replaced;
* `Selection.Apart` — a text in which they stand alone between single spaces;
* `Selection.tokens_renameAll_iff` — **the words of a renamed text are its words, each renamed, iff
  they do**;
* `Selection.not_logical_renameAll_iff` — and iff they do, no logical name is left;
* `Selection.Spaced`, `Selection.tokens_renameAll` — a text without blanks but spaces.
-/

namespace VectorQuery.Selection

open Text

/-! ### Names -/

/-- The name that the backend has for a name. -/
def backendSpelling (name : String) : String :=
  if name = "feature_projection" then "featureProjection"
  else if name = "created_at" then "creationTimeUnix"
  else if name = "updated_at" then "lastUpdateTimeUnix"
  else name

theorem rename_eq (name : String) : MetaAttribute.rename name = backendSpelling name := by
  rw [MetaAttribute.rename, MetaAttribute.ofLogical?, backendSpelling]
  simp only [MetaAttribute.all, List.find?, MetaAttribute.logicalName, @eq_comm String _ name]
  by_cases hfeature : name = "feature_projection"
  · simp [hfeature, MetaAttribute.backendName]
  by_cases hcreated : name = "created_at"
  · simp [hcreated, MetaAttribute.backendName]
  by_cases hupdated : name = "updated_at"
  · simp [hupdated, MetaAttribute.backendName]
  · simp [hfeature, hcreated, hupdated]

theorem rename_eq_backendSpelling : MetaAttribute.rename = backendSpelling := funext rename_eq

/-- A property of the three backend names and of a name holds of what the name is replaced by. -/
theorem backendSpelling_induction {p : String → Prop} {name : String} (hname : p name)
    (hfeature : p "featureProjection") (hcreated : p "creationTimeUnix")
    (hupdated : p "lastUpdateTimeUnix") : p (backendSpelling name) := by
  rw [backendSpelling]
  split
  · exact hfeature
  · split
    · exact hcreated
    · split
      · exact hupdated
      · exact hname

/-- A name that the backend has another name for. -/
def Logical (name : String) : Prop :=
  name = "feature_projection" ∨ name = "created_at" ∨ name = "updated_at"

instance (name : String) : Decidable (Logical name) := inferInstanceAs (Decidable (_ ∨ _ ∨ _))

theorem backendSpelling_of_not_logical {name : String} (h : ¬ Logical name) :
    backendSpelling name = name := by
  simp only [Logical, not_or] at h
  rw [backendSpelling, if_neg h.1, if_neg h.2.1, if_neg h.2.2]

/-- A name of the backend is not logical. -/
theorem not_logical_backendSpelling (name : String) : ¬ Logical (backendSpelling name) := by
  by_cases hname : Logical name
  · rcases hname with rfl | rfl | rfl <;> simp [Logical, backendSpelling]
  · rwa [backendSpelling_of_not_logical hname]

theorem Logical.word {name : String} (h : Logical name) : Word name.toList := by
  rcases h with rfl | rfl | rfl <;> decide

/-! ### Words of texts -/

/-- The words of a text. -/
def tokens (text : String) : List String := (words text.toList).map String.ofList

/-- What stands in a text between single spaces. -/
def pieces (text : String) : List String := (splitWhen (· = ' ') text.toList).map String.ofList

theorem tokens_intercalate (texts : List String) :
    tokens (" ".intercalate texts) = texts.flatMap tokens := by
  rw [tokens, String.toList_intercalate]
  show (words ([' '].intercalate _)).map String.ofList = _
  rw [words_intercalate (by decide), List.flatMap_map, List.map_flatMap]
  rfl

theorem tokens_word {text : String} (h : Word text.toList) : tokens text = [text] := by
  rw [tokens, words_self h, List.map_singleton, String.ofList_toList]

theorem pieces_intercalate {texts : List String} (h : texts ≠ []) :
    pieces (" ".intercalate texts) = texts.flatMap pieces := by
  rw [pieces, String.toList_intercalate]
  show (splitWhen (· = ' ') ([' '].intercalate _)).map String.ofList = _
  rw [splitWhen_intercalate (by decide) (List.map_eq_nil_iff.not.2 h), List.flatMap_map,
    List.map_flatMap]
  rfl

/-- A text is what its pieces make when they are joined again. -/
theorem intercalate_pieces (text : String) : " ".intercalate (pieces text) = text := by
  have hchars : (fun piece : List Char => (String.ofList piece).toList) = id :=
    funext fun piece => String.toList_ofList
  apply String.toList_injective
  rw [String.toList_intercalate, pieces, List.map_map]
  show [' '].intercalate (List.map (fun piece => (String.ofList piece).toList) _) = _
  rw [hchars, List.map_id, intercalate_splitWhen]

/-- The words of a text stand in its pieces. -/
theorem flatMap_pieces (text : String) : (pieces text).flatMap tokens = tokens text := by
  rw [← tokens_intercalate, intercalate_pieces]

/-! ### Renaming -/

theorem renameAll_eq (text : String) :
    renameAll text = " ".intercalate ((pieces text).map backendSpelling) := by
  rw [renameAll, pieces, List.map_map, ← rename_eq_backendSpelling]
  rfl

theorem word_backendSpelling {name : String} (h : Word name.toList) :
    Word (backendSpelling name).toList :=
  backendSpelling_induction (p := fun name => Word name.toList) h (by decide) (by decide) (by decide)

/-- A text in which logical names stand alone between single spaces. -/
def Apart (text : String) : Prop :=
  ∀ piece ∈ pieces text, ∀ token ∈ tokens piece, Logical token → piece = token

instance (text : String) : Decidable (Apart text) :=
  inferInstanceAs (Decidable (∀ piece ∈ pieces text, ∀ token ∈ tokens piece, _ → piece = token))

/-- A piece in which a logical name stands alone, if there is one, is renamed word by word. -/
theorem tokens_backendSpelling {piece : String}
    (h : ∀ token ∈ tokens piece, Logical token → piece = token) :
    tokens (backendSpelling piece) = (tokens piece).map backendSpelling := by
  by_cases hpiece : Logical piece
  · rw [tokens_word hpiece.word, tokens_word (word_backendSpelling hpiece.word), List.map_singleton]
  · have hother : ∀ token ∈ tokens piece, backendSpelling token = token := by
      intro token htoken
      refine backendSpelling_of_not_logical fun hlogical => hpiece ?_
      rwa [h token htoken hlogical]
    rw [backendSpelling_of_not_logical hpiece, List.map_congr_left hother, List.map_id']

/-- A logical name beside other characters stays. -/
theorem mem_tokens_backendSpelling {piece token : String} (htoken : token ∈ tokens piece)
    (h : piece ≠ token) : token ∈ tokens (backendSpelling piece) := by
  have hpiece : ¬ Logical piece := by
    intro hlogical
    rw [tokens_word hlogical.word, List.mem_singleton] at htoken
    exact h htoken.symm
  rwa [backendSpelling_of_not_logical hpiece]

variable {text : String}

theorem tokens_renameAll_of_apart (h : Apart text) :
    tokens (renameAll text) = (tokens text).map backendSpelling := by
  rw [renameAll_eq, tokens_intercalate, List.flatMap_map, ← flatMap_pieces, List.map_flatMap]
  exact List.flatMap_congr fun piece hpiece => tokens_backendSpelling (h piece hpiece)

/-- Where a logical name does not stand alone, it is left. -/
theorem exists_logical_of_not_apart (h : ¬ Apart text) :
    ∃ token ∈ tokens (renameAll text), Logical token := by
  simp only [Apart, not_forall] at h
  obtain ⟨piece, hpiece, token, htoken, hlogical, hne⟩ := h
  refine ⟨token, ?_, hlogical⟩
  rw [renameAll_eq, tokens_intercalate, List.flatMap_map]
  exact List.mem_flatMap.2 ⟨piece, hpiece, mem_tokens_backendSpelling htoken hne⟩

/-- **No logical name is left iff they stand alone between single spaces.** -/
theorem not_logical_renameAll_iff :
    (∀ token ∈ tokens (renameAll text), ¬ Logical token) ↔ Apart text := by
  constructor
  · intro h
    by_contra hapart
    obtain ⟨token, htoken, hlogical⟩ := exists_logical_of_not_apart hapart
    exact h token htoken hlogical
  · intro h token htoken
    rw [tokens_renameAll_of_apart h] at htoken
    obtain ⟨name, -, rfl⟩ := List.mem_map.1 htoken
    exact not_logical_backendSpelling name

/-- **The words of a renamed text are its words, each renamed, iff logical names stand alone between
single spaces.** -/
theorem tokens_renameAll_iff :
    tokens (renameAll text) = (tokens text).map backendSpelling ↔ Apart text := by
  refine ⟨fun h => not_logical_renameAll_iff.1 fun token htoken => ?_, tokens_renameAll_of_apart⟩
  rw [h] at htoken
  obtain ⟨name, -, rfl⟩ := List.mem_map.1 htoken
  exact not_logical_backendSpelling name

/-- A line break before the space does no harm, and one after the name does. -/
example : Apart "id\n created_at" ∧ ¬ Apart "created_at\n id" := by decide +kernel

/-! ### Texts without blanks but spaces -/

/-- The only blanks of a text are spaces. -/
def Spaced (text : String) : Prop := ∀ c ∈ text.toList, isBlank c = true → c = ' '

-- characters are finitely many, and are not to be tried one after another
instance (text : String) : Decidable (Spaced text) :=
  List.decidableBAll (fun c => isBlank c = true → c = ' ') text.toList

theorem spaced_intercalate {texts : List String} (h : ∀ text ∈ texts, Spaced text) :
    Spaced (" ".intercalate texts) := by
  rw [Spaced, String.toList_intercalate]
  refine forall_mem_intercalate (fun _ => rfl) fun cs hcs => ?_
  obtain ⟨text, htext, rfl⟩ := List.mem_map.1 hcs
  exact h text htext

/-- What stands between spaces is then a word or nothing. -/
theorem Spaced.apart (h : Spaced text) : Apart text := by
  intro piece hpiece token htoken hlogical
  obtain ⟨cs, hcs, rfl⟩ := List.mem_map.1 hpiece
  have hblanks : splitWhen (· = ' ') text.toList = splitWhen isBlank text.toList := by
    apply splitWhen_congr
    intro c hc
    rw [Bool.eq_iff_iff, decide_eq_true_iff]
    exact ⟨fun hspace => hspace ▸ by decide, h c hc⟩
  rw [hblanks] at hcs
  -- an empty piece stands between two spaces in a row, and has no word
  by_cases hempty : cs = []
  · subst hempty
    cases htoken
  · have hword : Word (String.ofList cs).toList := by
      rw [String.toList_ofList]
      exact ⟨hempty, fun c hc => isBlank_eq_false_iff.1 (solid_of_mem_splitWhen hcs c hc)⟩
    rw [tokens_word hword, List.mem_singleton] at htoken
    exact htoken.symm

/-- The words of a renamed text are its words, each renamed, if its only blanks are spaces. -/
theorem tokens_renameAll (h : Spaced text) :
    tokens (renameAll text) = (tokens text).map MetaAttribute.rename := by
  rw [tokens_renameAll_of_apart h.apart, rename_eq_backendSpelling]

end VectorQuery.Selection
