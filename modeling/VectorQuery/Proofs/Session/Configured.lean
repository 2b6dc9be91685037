import Mathlib
import VectorQuery.Proofs.Defaults
import VectorQuery.Proofs.Search.Accumulation
import VectorQuery.Proofs.Session.Fetches
import VectorQuery.Proofs.Session.Paging
import VectorQuery.Proofs.Uuid.Spelling

/-!
# Defaults that are read can be used

A search that leaves the distance out takes the default one.  Whatever the settings were, a default
that has been read is finite, so such a search never fails for its distance; and the page size makes a
limit that the check of limits takes.

* `Unmeasured` — the searches that leave the distance out and are right otherwise, each with the part
  of the request that it writes;
* `Session.run_search` — a search that is sound succeeds;
* `Session.defaults_after` — a session keeps its defaults;
* `Session.run_unmeasured` — **a search without a distance is sent with the default one**;
* `Session.defaults_usable` — **which settings are taken, and what they are good for**.
-/

namespace VectorQuery

/-! ### Searches without a distance -/

/-- A search that leaves the distance out and is right otherwise, after others: it has a phrase, or
finite components, or an id in hyphenated form.  With it come the part of the request that it writes,
and what stands there before the distance. -/
inductive Unmeasured (search : Search) :
    SearchCall (Option Binary64) → (FetchRequest → Option String) → String × String → Prop
  | nearText {phrases : List String} (h : phrases ≠ []) :
      Unmeasured search (.nearText phrases none) (·.nearText)
        ("concepts", Wire.list ((search.phrases ++ phrases.map (String.map Search.softened)).map Wire.quote))
  | nearVector {vector : List Binary64} (h : ∀ x ∈ vector, x.isFinite = true) :
      Unmeasured search (.nearVector vector none) (·.nearVector)
        ("vector", Wire.list (vector.map wireFloat.write))
  | nearObjectId {id : String} {uuid : Uuid} (h : uuid.Hyphenated id.toList) :
      Unmeasured search (.nearObjectId id none) (·.nearObject) ("id", Wire.quote id)
  | nearObject {id : String} {uuid : Uuid} (h : uuid.Hyphenated id.toList) :
      Unmeasured search (.nearObject (some id) none) (·.nearObject) ("id", Wire.quote id)

namespace Unmeasured

variable {query : Query} {call : SearchCall (Option Binary64)} {part : FetchRequest → Option String}
  {item : String × String}

/-- With a finite default, such a search is sound. -/
theorem isSound (h : Unmeasured query.search call part item)
    (hfinite : query.defaults.distance.isFinite = true) :
    call.lacksPhrases = false ∧ (call.map query.distanceOr).isSound = true := by
  have hid : ∀ {id : String} {uuid : Uuid}, uuid.Hyphenated id.toList →
      (Uuid.ofHyphenated? id.toList).isSome = true := by
    intro id uuid h
    rw [Uuid.ofHyphenated?_eq_some_iff.2 h]
    rfl
  cases h with
  | nearText h => exact ⟨List.isEmpty_eq_false_iff.2 h, hfinite⟩
  | nearVector h => exact ⟨rfl, Bool.and_eq_true_iff.2 ⟨List.all_eq_true.2 h, hfinite⟩⟩
  | nearObjectId h => exact ⟨rfl, Bool.and_eq_true_iff.2 ⟨hid h, hfinite⟩⟩
  | nearObject h => exact ⟨rfl, Bool.and_eq_true_iff.2 ⟨hid h, hfinite⟩⟩

/-- What it writes ends in the default distance. -/
theorem part_eq (h : Unmeasured query.search call part item) {search : Search}
    (hgiven : query.search.Given (call.map query.distanceOr) search) {request : FetchRequest}
    (hrequest : (query.withSearch search).fetchRequest = .ok request) :
    part request
      = some (Wire.record [item, ("distance", wireFloat.write query.defaults.distance)]) := by
  obtain ⟨fields, -, rfl⟩ := Query.fetchRequest_eq_ok_iff.1 hrequest
  cases h with
  | nearText h =>
    cases hgiven
    show Search.nearTextWire? _ = _
    rw [Search.nearTextWire?, if_neg (by simp [Query.withSearch, h])]
    rfl
  | nearVector => cases hgiven; rfl
  | nearObjectId => cases hgiven; rfl
  | nearObject => cases hgiven; rfl

end Unmeasured

namespace Session

variable {σ : Type} [Backend σ]

/-- A search that is sound succeeds. -/
theorem run_search (session : Session σ) {call : SearchCall (Option Binary64)}
    (hphrases : call.lacksPhrases = false)
    (hsound : (call.map session.query.distanceOr).isSound = true) :
    ∃ search, session.query.search.Given (call.map session.query.distanceOr) search
      ∧ session.run (.build (.search call))
        = (.ok .done, { session with query := session.query.withSearch search, loaded := none }) := by
  have hok := Search.isOk_perform (call.map session.query.distanceOr) session.query.search
  rw [hsound] at hok
  rcases Search.perform_cases (call.map session.query.distanceOr) session.query.search with
    ⟨fault, hfault⟩ | ⟨search, hsearch, hgiven⟩
  · rw [Change.on, hfault] at hok
    cases hok
  · have hwithin : Change.within (·.search) Query.withSearch
        (Search.perform (call.map session.query.distanceOr)) session.query
          = .ok () (session.query.withSearch search) := by
      rw [Change.within, hsearch]
    have hperform : Query.perform (.search call) session.query
        = .ok () (session.query.withSearch search) := by
      simp only [Query.perform, hphrases]
      exact hwithin
    refine ⟨search, hgiven, ?_⟩
    rw [run, Change.on, build_eq, hperform]
    rfl

/-- A session keeps its defaults. -/
theorem defaults_after (session : Session σ) (events : List (Event σ)) :
    (session.after events).query.defaults = session.query.defaults :=
  query_after (p := fun query => query.defaults = session.query.defaults)
    (fun hbuilt h => hbuilt.agrees.defaults.trans h) rfl events

/-- **A search without a distance is sent with the default one**, in every session that can come about
with a finite default. -/
theorem run_unmeasured (collection : Collection) {defaults : Defaults}
    (hfinite : defaults.distance.isFinite = true) (backend : σ) (events : List (Event σ))
    {call : SearchCall (Option Binary64)} {part : FetchRequest → Option String} {item : String × String}
    (h : Unmeasured ((start collection defaults backend).after events).query.search call part item) :
    ∃ next request, ((start collection defaults backend).after events).run (.build (.search call))
        = (.ok .done, next)
      ∧ next.query.fetchRequest = .ok request
      ∧ part request = some (Wire.record [item, ("distance", wireFloat.write defaults.distance)]) := by
  have hdefaults : ((start collection defaults backend).after events).query.defaults = defaults :=
    defaults_after _ events
  have hrendered := rendered_start collection defaults backend events
  generalize (start collection defaults backend).after events = session at h hdefaults hrendered
  subst hdefaults
  obtain ⟨hphrases, hsound⟩ := h.isSound hfinite
  obtain ⟨search, hgiven, hrun⟩ := session.run_search hphrases hsound
  have hnext : (session.query.withSearch search).Rendered := hrendered
  obtain ⟨request, hrequest⟩ := hnext.request
  exact ⟨_, request, hrun, hrequest, h.part_eq hgiven hrequest⟩

open Defaults in
/-- **Defaults that are read can be used.**  Settings give defaults iff none of the two is bad, and a
fault names the distance if that one is bad, else the page size.  The defaults are those that the
settings spell.  The page size is then the limit of a new query, as a canonical numeral; and in every
session that can come about, searches that leave the distance out succeed if they are right otherwise,
and are sent with the distance. -/
theorem defaults_usable (lookup : String → Option String) (collection : Collection) (backend : σ)
    (events : List (Event σ)) :
    let distanceSetting := "WEAVIATE_SIMILARITY_DISTANCE"
    let pageSizeSetting := "QUERY_DEFAULTS_LIMIT"
    let badDistance := ∃ raw core, lookup distanceSetting = some raw ∧ Text.Trimmed raw.toList core
      ∧ NoDistance core
    let badPageSize := ∃ raw core, lookup pageSizeSetting = some raw ∧ Text.Trimmed raw.toList core
      ∧ ∀ size, ¬ Numeral.WordText core size
    (∀ defaults, ofLookup lookup = .ok defaults →
      Given DistanceText (Binary64.ofDecimal false 55 (-2)) (lookup distanceSetting) defaults.distance
      ∧ Given Numeral.WordText 25 (lookup pageSizeSetting) defaults.pageSize
      ∧ (Query.new collection defaults).limit = toString defaults.pageSize.toNat
      ∧ PageNumeral (Query.new collection defaults).limit
      ∧ let session := (start collection defaults backend).after events
        ∀ call part item, Unmeasured session.query.search call part item →
          ∃ next request, session.run (.build (.search call)) = (.ok .done, next)
            ∧ next.query.fetchRequest = .ok request
            ∧ part request
              = some (Wire.record [item, ("distance", wireFloat.write defaults.distance)]))
    ∧ ((∃ fault, ofLookup lookup = .error fault) ↔ badDistance ∨ badPageSize)
    ∧ ∀ fault, ofLookup lookup = .error fault →
        (badDistance → ∃ reason, fault = .badSetting distanceSetting reason)
        ∧ (¬ badDistance → ∃ reason, fault = .badSetting pageSizeSetting reason) := by
  intro distanceSetting pageSizeSetting badDistance badPageSize
  have hbad : badDistance ↔ Bad DistanceText (lookup distanceKey) := by
    simp only [badDistance, Bad, noDistance_iff]
    rfl
  have hcases := ofLookup_cases lookup
  rw [← hbad] at hcases
  refine ⟨?_, ?_, ?_⟩
  · intro defaults hread
    rcases hcases with ⟨found, hfound, hreads⟩ | ⟨reason, hfault, -⟩ | ⟨reason, hfault, -⟩
    · obtain rfl : found = defaults := Except.ok.inj (hfound.symm.trans hread)
      refine ⟨hreads.distance, hreads.pageSize, rfl, .of_ofNat found.pageSize.toNat_lt, ?_⟩
      intro session call part item hcall
      exact run_unmeasured collection hreads.isFinite backend events hcall
    · rw [hfault] at hread
      cases hread
    · rw [hfault] at hread
      cases hread
  · rcases hcases with ⟨defaults, hread, hreads⟩ | ⟨reason, hfault, hdistance⟩ |
      ⟨reason, hfault, -, hpageSize⟩
    · refine iff_of_false ?_ ?_
      · intro h
        obtain ⟨fault, hfault⟩ := h
        rw [hread] at hfault
        cases hfault
      · intro h
        exact h.elim (fun h => hreads.distance.not_bad (hbad.1 h)) hreads.pageSize.not_bad
    · exact iff_of_true ⟨_, hfault⟩ (Or.inl hdistance)
    · exact iff_of_true ⟨_, hfault⟩ (Or.inr hpageSize)
  · intro fault h
    rcases hcases with ⟨defaults, hread, -⟩ | ⟨reason, hfault, hdistance⟩ | ⟨reason, hfault, hgood, -⟩
    · rw [hread] at h
      cases h
    · obtain rfl := Except.error.inj (hfault.symm.trans h)
      exact ⟨fun _ => ⟨reason, rfl⟩, fun hgood => absurd hdistance hgood⟩
    · obtain rfl := Except.error.inj (hfault.symm.trans h)
      exact ⟨fun hdistance => absurd hdistance hgood, fun _ => ⟨reason, rfl⟩⟩

/-- A distance and a page size with blanks around them, plus signs and zeros. -/
def paddedSettings (key : String) : Option String :=
  if key = "WEAVIATE_SIMILARITY_DISTANCE" then some "\t+00.5E-0 " else some " +007\n"

/-- The settings are taken and used; a decimal that is too large is refused for its distance. -/
theorem defaults_usable_paddedSettings :
    Defaults.ofLookup paddedSettings = .ok ⟨.ofDecimal false 5 (-1), 7⟩
    ∧ (Query.new ⟨"Article", ["title"]⟩ ⟨.ofDecimal false 5 (-1), 7⟩).limit = "7"
    ∧ (∃ next request, (start ⟨"Article", ["title"]⟩ ⟨.ofDecimal false 5 (-1), 7⟩ busyOnce).run
          (.build (.search (.nearText ["sea"] none))) = (.ok .done, next)
        ∧ next.query.fetchRequest = .ok request
        ∧ request.nearText = some "\x7b concepts: [\"sea\"], distance: 0.5 \x7d")
    ∧ ∃ reason, Defaults.ofLookup (fun _ => some "1e400")
        = .error (.badSetting "WEAVIATE_SIMILARITY_DISTANCE" reason) := by
  have hread : Defaults.ofLookup paddedSettings = .ok ⟨.ofDecimal false 5 (-1), 7⟩ := by decide
  obtain ⟨hgood, -, -⟩ := defaults_usable paddedSettings ⟨"Article", ["title"]⟩ busyOnce []
  obtain ⟨-, -, hlimit, -, hsearch⟩ := hgood _ hread
  obtain ⟨-, hrefused, hnames⟩ :=
    defaults_usable (fun _ => some "1e400") ⟨"Article", ["title"]⟩ busyOnce []
  have hlarge : FloatText "1e400".toList (.infinite false) := Binary64.ofText?_eq_some_iff.1 (by decide)
  have htrimmed : Text.Trimmed "1e400".toList "1e400".toList := Text.trim_eq_iff.1 (by decide)
  have hbad : ∃ raw core, some "1e400" = some raw ∧ Text.Trimmed raw.toList core
      ∧ Defaults.NoDistance core :=
    ⟨_, _, rfl, htrimmed, .infinite hlarge⟩
  obtain ⟨fault, hfault⟩ := hrefused.2 (Or.inl hbad)
  obtain ⟨reason, rfl⟩ := (hnames fault hfault).1 hbad
  have hsea : "sea".map Search.softened = "sea" := by
    rw [← String.toList_inj, String.toList_map]
    decide
  have hsent := hsearch _ _ _ (.nearText (show ["sea"] ≠ [] by decide))
  rw [List.map_singleton, hsea] at hsent
  exact ⟨hread, hlimit, hsent, reason, hfault⟩

end Session

end VectorQuery
