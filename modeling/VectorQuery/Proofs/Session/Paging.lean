import Mathlib
import VectorQuery.Proofs.Session.Counting
import VectorQuery.Proofs.Text.Numeral

/-!
# Pages are told by canonical numerals

A limit and an offset are texts.  One is taken only if it is the numeral that a number of 64 bits is
written with, so in every request both are such numerals, and they are the ones given last.

* `PageNumeral` — the texts that are to be taken, digit by digit;
* `PageNumeral.iff_ofNat`, `pagingText_eq` — they are the numerals of the numbers of 64 bits, and what
  the check takes;
* `PageBound` — the limit and the offset, with what calls and requests say about each;
* `Session.kept_after` — a bound after any events is the one given last;
* `Session.paging_canonical` — **which texts are taken, and what requests ask for**.
-/

namespace VectorQuery

open Text

/-! ### Numerals -/

/-- A text of decimal digits, without a leading zero unless it is zero, that denotes a number of 64
bits. -/
structure PageNumeral (text : String) : Prop where
  nonempty : text ≠ ""
  digits : ∀ c ∈ text.toList, c.isDigit = true
  canonical : text.toList.head? = some '0' → text = "0"
  bounded : Nat.ofDigitChars 10 text.toList 0 ≤ 18446744073709551615

namespace PageNumeral

theorem of_ofNat {n : ℕ} (hn : n < UInt64.size) : PageNumeral (Numeral.ofNat n) where
  nonempty := by
    rw [Numeral.ofNat, Ne, String.ofList_eq_empty_iff]
    exact Nat.toDigits_ne_nil
  digits := by
    rw [Numeral.ofNat, String.toList_ofList]
    exact fun _ => isDigit_of_mem_toDigits
  canonical := by
    rw [Numeral.ofNat, String.toList_ofList]
    rcases Nat.eq_zero_or_pos n with rfl | hpos
    · exact fun _ => rfl
    · exact fun h => absurd h (toDigits_head_ne_zero hpos)
  bounded := by
    rw [Numeral.ofNat, String.toList_ofList, Nat.ofDigitChars_ten_toDigits]
    exact Nat.le_of_lt_succ hn

/-- They are the numerals of the numbers of 64 bits. -/
theorem iff_ofNat {text : String} :
    PageNumeral text ↔ ∃ n < UInt64.size, Numeral.ofNat n = text := by
  constructor
  · intro h
    refine ⟨Nat.ofDigitChars 10 text.toList 0, Nat.lt_succ_of_le h.bounded, ?_⟩
    rw [Numeral.ofNat]
    cases hcs : text.toList with
    | nil => exact absurd (String.toList_eq_nil_iff.1 hcs) h.nonempty
    | cons c cs =>
      by_cases hzero : c = '0'
      · have htext := h.canonical (by rw [hcs, hzero]; rfl)
        rw [← hcs, htext]
        decide
      · have hdigits := h.digits
        rw [hcs] at hdigits
        rw [toDigits_ofDigitChars hzero hdigits, ← hcs, String.ofList_toList]
  · intro h
    obtain ⟨n, hn, rfl⟩ := h
    exact of_ofNat hn

end PageNumeral

/-- The check takes these texts, and names what it refuses. -/
theorem pagingText_eq (what text : String) :
    (PageNumeral text → pagingText what text = .ok text)
    ∧ (¬ PageNumeral text → pagingText what text
      = .error (.wrongType s!"{what} must be a non-negative integer, got '{text}'")) := by
  have hcheck : ((Numeral.word64? text.toList).any fun n => Numeral.ofNat n.toNat = text) = true
      ↔ PageNumeral text := by
    rw [PageNumeral.iff_ofNat]
    constructor
    · intro h
      obtain ⟨n, -, hn⟩ := (Option.any_eq_true _ _).1 h
      exact ⟨n.toNat, n.toNat_lt, of_decide_eq_true hn⟩
    · intro h
      obtain ⟨n, hn, rfl⟩ := h
      rw [Numeral.ofNat, String.toList_ofList, Numeral.word64?_toDigits hn, Option.any_some,
        UInt64.toNat_ofNat_of_lt' hn]
      exact decide_eq_true rfl
  rw [← hcheck, pagingText]
  exact ⟨fun h => if_pos h, fun h => if_neg h⟩

theorem pagingText_eq_ok_iff {what text found : String} :
    pagingText what text = .ok found ↔ PageNumeral text ∧ found = text := by
  by_cases h : PageNumeral text
  · rw [(pagingText_eq what text).1 h]
    simp [h, eq_comm]
  · rw [(pagingText_eq what text).2 h]
    simp [h]

/-! ### Limits and offsets -/

/-- One of the two numbers that tell a page. -/
inductive PageBound
  | limit
  | offset

namespace PageBound

/-- What a fault calls it. -/
def name : PageBound → String
  | .limit => "limit"
  | .offset => "offset"

/-- The call that gives it. -/
def call (text : String) : PageBound → Call
  | .limit => .limit text
  | .offset => .offset text

/-- The text that a call gives for it. -/
def given? : PageBound → Call → Option String
  | .limit, .limit text => some text
  | .offset, .offset text => some text
  | _, _ => none

/-- What a query has for it. -/
def kept (query : Query) : PageBound → String
  | .limit => query.limit
  | .offset => query.offset

/-- What a request has for it. -/
def sent (request : FetchRequest) : PageBound → String
  | .limit => request.limit
  | .offset => request.offset

/-- What a new query has for it: one page of the configured size, from the start. -/
def standard (defaults : Defaults) : PageBound → String
  | .limit => toString defaults.pageSize.toNat
  | .offset => "0"

theorem numeral_standard (defaults : Defaults) (bound : PageBound) :
    PageNumeral (bound.standard defaults) := by
  cases bound with
  | limit => exact .of_ofNat defaults.pageSize.toNat_lt
  | offset => exact .of_ofNat (n := 0) (by decide)

/-- A call that succeeds leaves what it gives, which is a numeral, or what was there. -/
theorem kept_built {before after : Query} {call : Call} (h : before.Built call after)
    (bound : PageBound) :
    bound.kept after = (bound.given? call).getD (bound.kept before)
    ∧ ∀ text ∈ bound.given? call, PageNumeral text := by
  cases h with
  | limit h =>
    obtain ⟨hnumeral, rfl⟩ := pagingText_eq_ok_iff.1 h
    cases bound <;> simp [kept, given?, hnumeral]
  | offset h =>
    obtain ⟨hnumeral, rfl⟩ := pagingText_eq_ok_iff.1 h
    cases bound <;> simp [kept, given?, hnumeral]
  | _ => cases bound <;> exact ⟨rfl, nofun⟩

theorem numeral_built {before after : Query} {call : Call} (h : before.Built call after)
    {bound : PageBound} (hbefore : PageNumeral (bound.kept before)) :
    PageNumeral (bound.kept after) := by
  obtain ⟨hkept, hgiven⟩ := kept_built h bound
  rw [hkept]
  cases hcall : bound.given? call with
  | none => exact hbefore
  | some text => exact hgiven text hcall

end PageBound

namespace Session

variable {σ : Type} [Backend σ]

/-! ### One call -/

theorem run_bound (session : Session σ) (bound : PageBound) {text : String} (h : PageNumeral text) :
    ∃ next, session.run (.build (bound.call text)) = (.ok .done, next) := by
  cases bound <;>
    simp only [PageBound.call, run, Change.on, build_eq, Query.perform, (pagingText_eq _ text).1 h] <;>
    exact ⟨_, rfl⟩

theorem run_bound_refused (session : Session σ) (bound : PageBound) {text : String}
    (h : ¬ PageNumeral text) :
    session.run (.build (bound.call text))
      = (.error (.wrongType s!"{bound.name} must be a non-negative integer, got '{text}'"), session) := by
  cases bound <;>
    simp only [PageBound.call, run, Change.on, build_eq, Query.perform, (pagingText_eq _ text).2 h] <;>
    rfl

/-! ### Calls that have succeeded -/

/-- **A bound is the one given last**, or the one from before. -/
theorem kept_after (session : Session σ) (events : List (Event σ)) (bound : PageBound) :
    bound.kept (session.after events).query
      = ((session.completed events).filterMap bound.given?).getLast?.getD
          (bound.kept session.query) := by
  rw [session.view_after bound.kept (fun text call => (bound.given? call).getD text)
    (fun h => (PageBound.kept_built h bound).1) events]
  generalize bound.kept session.query = text
  induction session.completed events generalizing text with
  | nil => rfl
  | cons call calls ih =>
    rw [List.foldl_cons, ih]
    cases hgiven : bound.given? call with
    | none => rw [List.filterMap_cons_none hgiven, Option.getD_none]
    | some given => rw [List.filterMap_cons_some hgiven, List.getLast?_cons, Option.getD_some,
        Option.getD_some]

/-- **Pages are told by canonical numerals.**  In every session that can come about, a text is taken
as a limit or as an offset iff it consists of decimal digits, has no leading zero unless it is zero,
and denotes a number of 64 bits; any other text is refused by name and leaves the session as it is.
Whatever has happened, and whatever the page size is, the request has a limit and an offset of this
form: those that were taken last, or else the page size and zero. -/
theorem paging_canonical (collection : Collection) (defaults : Defaults) (backend : σ)
    (events : List (Event σ)) (bound : PageBound) :
    let session := (start collection defaults backend).after events
    let done := (start collection defaults backend).completed events
    (∀ text,
      ((session.run (.build (bound.call text))).1.isOk = true ↔ PageNumeral text)
      ∧ (¬ PageNumeral text → session.run (.build (bound.call text))
        = (.error (.wrongType s!"{bound.name} must be a non-negative integer, got '{text}'"),
          session)))
    ∧ ∃ request, session.query.fetchRequest = .ok request
      ∧ PageNumeral (bound.sent request)
      ∧ bound.sent request
        = (done.filterMap bound.given?).getLast?.getD (bound.standard defaults) := by
  intro session done
  refine ⟨fun text => ⟨?_, session.run_bound_refused bound⟩, ?_⟩
  · by_cases h : PageNumeral text
    · obtain ⟨next, hnext⟩ := session.run_bound bound h
      rw [hnext]
      exact iff_of_true rfl h
    · rw [session.run_bound_refused bound h]
      exact iff_of_false Bool.false_ne_true h
  · obtain ⟨request, hrequest⟩ := (rendered_start collection defaults backend events).request
    obtain ⟨fields, -, hfetch⟩ := Query.fetchRequest_eq_ok_iff.1 hrequest
    have hsent : bound.sent request = bound.kept session.query := by
      rw [hfetch]
      cases bound <;> rfl
    have hstart : bound.kept (start collection defaults backend).query = bound.standard defaults := by
      cases bound <;> rfl
    refine ⟨request, hrequest, ?_, ?_⟩
    · rw [hsent]
      refine query_after (p := fun query => PageNumeral (bound.kept query))
        (fun hbuilt => PageBound.numeral_built hbuilt) ?_ events
      rw [hstart]
      exact bound.numeral_standard defaults
    · rw [hsent, ← hstart]
      exact kept_after _ events bound

end Session

end VectorQuery
