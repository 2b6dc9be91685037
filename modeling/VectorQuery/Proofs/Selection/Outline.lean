import Mathlib

/-!
# Field lists as trees

A field list is a text of names and blocks in braces.  Its words are read one after another: a name
is a leaf, an open brace makes a node of the name before it, a closing brace ends the block that was
opened last.

* `Field`, `Field.listWords` — a name with or without a block, and the words of a field list;
* `Reading.step`, `Field.readAll?` — one more word, and all words of a field list;
* `Field.foldlM_listWords` — the words of fields add these fields to the block that is open;
* `Reading.words_foldlM` — a reading has taken the words that it has met;
* `Field.readAll?_eq_some_iff` — **fields are read from their words, and from no others**.
-/

namespace VectorQuery.Selection

/-- A field: a name, or a name before a block of fields. -/
inductive Field
  | leaf (name : String)
  | node (name : String) (children : List Field)

namespace Field

/-! ### Words and names -/

mutual

/-- The words of a field. -/
def words : Field → List String
  | .leaf name => [name]
  | .node name children => name :: "\x7b" :: (listWords children ++ ["\x7d"])

/-- The words of fields in a row. -/
def listWords : List Field → List String
  | [] => []
  | field :: fields => field.words ++ listWords fields

end

mutual

/-- The names in a field, in the order of its words. -/
def names : Field → List String
  | .leaf name => [name]
  | .node name children => name :: listNames children

/-- The names in fields. -/
def listNames : List Field → List String
  | [] => []
  | field :: fields => field.names ++ listNames fields

end

mutual

/-- The field with other names. -/
def rename (f : String → String) : Field → Field
  | .leaf name => .leaf (f name)
  | .node name children => .node (f name) (renameAll f children)

/-- The fields with other names. -/
def renameAll (f : String → String) : List Field → List Field
  | [] => []
  | field :: fields => field.rename f :: renameAll f fields

end

theorem listWords_append (fields others : List Field) :
    listWords (fields ++ others) = listWords fields ++ listWords others := by
  induction fields with
  | nil => rfl
  | cons field fields ih => rw [List.cons_append, listWords, listWords, ih, List.append_assoc]

theorem listNames_append (fields others : List Field) :
    listNames (fields ++ others) = listNames fields ++ listNames others := by
  induction fields with
  | nil => rfl
  | cons field fields ih => rw [List.cons_append, listNames, listNames, ih, List.append_assoc]

theorem listWords_leaves (names : List String) : listWords (names.map .leaf) = names := by
  induction names with
  | nil => rfl
  | cons name names ih =>
    rw [List.map_cons, listWords, ih]
    rfl

theorem listNames_leaves (names : List String) : listNames (names.map .leaf) = names := by
  induction names with
  | nil => rfl
  | cons name names ih =>
    rw [List.map_cons, listNames, ih]
    rfl

section Rename

variable {f : String → String}

mutual

theorem names_rename : ∀ field : Field, (field.rename f).names = field.names.map f
  | .leaf _ => rfl
  | .node name children => by
    rw [rename, names, names, listNames_renameAll children, List.map_cons]

theorem listNames_renameAll : ∀ fields : List Field,
    listNames (renameAll f fields) = (listNames fields).map f
  | [] => rfl
  | field :: fields => by
    rw [renameAll, listNames, listNames, names_rename field, listNames_renameAll fields,
      List.map_append]

end

mutual

/-- A renaming of words that leaves the braces is a renaming of names. -/
theorem words_rename (hbraces : f "\x7b" = "\x7b" ∧ f "\x7d" = "\x7d") :
    ∀ field : Field, (field.rename f).words = field.words.map f
  | .leaf _ => rfl
  | .node name children => by
    rw [rename, words, words, listWords_renameAll hbraces children, List.map_cons, List.map_cons,
      List.map_append, hbraces.1, List.map_singleton, hbraces.2]

theorem listWords_renameAll (hbraces : f "\x7b" = "\x7b" ∧ f "\x7d" = "\x7d") :
    ∀ fields : List Field, listWords (renameAll f fields) = (listWords fields).map f
  | [] => rfl
  | field :: fields => by
    rw [renameAll, listWords, listWords, words_rename hbraces field,
      listWords_renameAll hbraces fields, List.map_append]

end

end Rename

end Field

/-! ### Reading -/

/-- What has been read: the fields of the block that is open, and from the inside out each block's
name with the fields before it. -/
structure Reading where
  fields : List Field
  outer : List (List Field × String)

namespace Reading

/-- One more word. -/
def step (reading : Reading) (word : String) : Option Reading :=
  if word = "\x7b" then
    match reading.fields.getLast? with
    | some (.leaf name) => some ⟨[], (reading.fields.dropLast, name) :: reading.outer⟩
    | _ => none
  else if word = "\x7d" then
    match reading.outer with
    | (before, name) :: outer => some ⟨before ++ [.node name reading.fields], outer⟩
    | [] => none
  else some ⟨reading.fields ++ [.leaf word], reading.outer⟩

variable {fields : List Field} {outer : List (List Field × String)} {name : String}

/-- A word that is no brace. -/
structure IsName (name : String) : Prop where
  ne_opening : name ≠ "\x7b"
  ne_closing : name ≠ "\x7d"

theorem step_name (h : IsName name) :
    step ⟨fields, outer⟩ name = some ⟨fields ++ [.leaf name], outer⟩ := by
  rw [step, if_neg h.ne_opening, if_neg h.ne_closing]

theorem step_opening :
    step ⟨fields ++ [.leaf name], outer⟩ "\x7b" = some ⟨[], (fields, name) :: outer⟩ := by
  rw [step, if_pos rfl]
  simp only [List.getLast?_concat, List.dropLast_concat]

theorem step_closing {children : List Field} :
    step ⟨children, (fields, name) :: outer⟩ "\x7d"
      = some ⟨fields ++ [.node name children], outer⟩ := by
  rw [step, if_neg (by decide), if_pos rfl]

/-- A step, and then more words. -/
theorem foldlM_cons_of_step {reading next : Reading} {word : String}
    (h : reading.step word = some next) (ws : List String) :
    (word :: ws).foldlM step reading = ws.foldlM step next := by
  rw [List.foldlM_cons, h]
  rfl

/-- A run of steps, and then more words. -/
theorem foldlM_append_of_run {reading next : Reading} {ws : List String}
    (h : ws.foldlM step reading = some next) (more : List String) :
    (ws ++ more).foldlM step reading = more.foldlM step next := by
  rw [List.foldlM_append, h]
  rfl

/-- The words of the blocks around the one that is open. -/
def outerWords : List (List Field × String) → List String
  | [] => []
  | (before, name) :: outer => outerWords outer ++ (Field.listWords before ++ [name, "\x7b"])

/-- The words that a reading has taken. -/
def words (reading : Reading) : List String :=
  outerWords reading.outer ++ Field.listWords reading.fields

/-- A step takes its word. -/
theorem words_step {reading next : Reading} {word : String} (h : reading.step word = some next) :
    next.words = reading.words ++ [word] := by
  obtain ⟨fields, outer⟩ := reading
  rw [step] at h
  split at h
  · rename_i hopening
    split at h
    · rename_i name hlast
      cases h
      -- the last leaf moves out of the fields and stands before its block
      have hfields : fields = fields.dropLast ++ [.leaf name] :=
        (List.dropLast_append_getLast? _ hlast).symm
      rw [words, words, outerWords, hopening]
      conv_rhs => rw [hfields, Field.listWords_append]
      simp [Field.listWords, Field.words]
    · cases h
  · split at h
    · rename_i hclosing
      split at h
      · rename_i before name others houter
        obtain rfl : outer = (before, name) :: others := houter
        cases h
        rw [words, words, hclosing, Field.listWords_append]
        simp [outerWords, Field.listWords, Field.words]
      · cases h
    · cases h
      rw [words, words, Field.listWords_append]
      simp [Field.listWords, Field.words]

/-- A run of steps takes its words. -/
theorem words_foldlM {ws : List String} {reading next : Reading}
    (h : ws.foldlM step reading = some next) : next.words = reading.words ++ ws := by
  induction ws generalizing reading with
  | nil =>
    cases h
    rw [List.append_nil]
  | cons w ws ih =>
    rw [List.foldlM_cons] at h
    obtain ⟨second, hfirst, hmore⟩ := Option.bind_eq_some_iff.1 h
    rw [ih hmore, words_step hfirst, List.append_assoc, List.singleton_append]

end Reading

namespace Field

open Reading

mutual

/-- The words of a field add it to the block that is open. -/
theorem foldlM_words : ∀ (field : Field) {before : List Field} {outer : List (List Field × String)},
    (∀ name ∈ field.names, IsName name) →
    field.words.foldlM step ⟨before, outer⟩ = some ⟨before ++ [field], outer⟩
  | .leaf name, before, outer, h => by
    rw [words, foldlM_cons_of_step (step_name (h name List.mem_cons_self))]
    rfl
  | .node name children, before, outer, h => by
    rw [names, List.forall_mem_cons] at h
    -- the name is a leaf until its block opens
    rw [words, foldlM_cons_of_step (step_name h.1), foldlM_cons_of_step step_opening,
      foldlM_append_of_run (foldlM_listWords children h.2), List.nil_append,
      foldlM_cons_of_step step_closing]
    rfl

/-- The words of fields add these fields to the block that is open. -/
theorem foldlM_listWords : ∀ (fields : List Field) {before : List Field}
    {outer : List (List Field × String)}, (∀ name ∈ listNames fields, IsName name) →
    (listWords fields).foldlM step ⟨before, outer⟩ = some ⟨before ++ fields, outer⟩
  | [], before, outer, _ => by
    rw [List.append_nil]
    rfl
  | field :: fields, before, outer, h => by
    rw [listNames, List.forall_mem_append] at h
    rw [listWords, foldlM_append_of_run (foldlM_words field h.1), foldlM_listWords fields h.2,
      List.append_assoc, List.singleton_append]

end

/-- The fields that are read from words, if every brace has its partner. -/
def readAll? (ws : List String) : Option (List Field) :=
  match ws.foldlM step ⟨[], []⟩ with
  | some ⟨fields, []⟩ => some fields
  | _ => none

/-- **Fields are read from their words, and from no others.** -/
theorem readAll?_eq_some_iff {ws : List String} {fields : List Field}
    (h : ∀ name ∈ listNames fields, IsName name) :
    readAll? ws = some fields ↔ listWords fields = ws := by
  constructor
  · intro hread
    rw [readAll?] at hread
    split at hread
    · rename_i found hrun
      cases hread
      exact words_foldlM hrun
    · cases hread
  · rintro rfl
    rw [readAll?, foldlM_listWords fields h]
    rfl

end Field

end VectorQuery.Selection
