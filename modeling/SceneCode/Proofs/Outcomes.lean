import Mathlib.Algebra.Order.Ring.Int
import SceneCode.Proofs.DistinctKeys
import SceneCode.Settings

/-!
# What comes of a configuration file

Settings are given by the values of a few keys. A value means something or it is malformed
(`Converts`), and where the key is missing there is a default (`Sets`): the whole table of
simplifications has another default than the keys in it. The order of the checks does not show in
the result, except that the range of the precision is only checked when everything else is in order.

What reads a text as a table is left open. All that is asked of it is that the keys in a table are
distinct, so to look a key up is to ask for its entry, wherever it stands. All conditions on the
entries are thus about membership, and tables that agree on the known keys have the same outcome
(`ofEntries?_eq`). The reader of configuration files is of this kind
(`distinctEntries_of_read?_eq`).

A date or a time stands for a table without known keys, by which all simplifications are off
(`Settings.ofToml?_date`).

* `Settings.ofText?_outcome`: which texts are malformed, which ask for too high a precision, and
  which settings the others give.
-/

namespace SceneCode

open Toml

/-! ## Results -/

section Results

variable {α β : Type} {x y : Except SettingsError α} {Means Means' : α → Prop}
  {k : α → Except SettingsError β}

/-- The result is the one thing that is meant; if nothing is meant it is malformed. -/
inductive Converts : Except SettingsError α → (α → Prop) → Prop
  | ok {a : α} {Means : α → Prop} : (∀ b, Means b ↔ b = a) → Converts (.ok a) Means
  | malformed {Means : α → Prop} : (∀ a, ¬Means a) → Converts (.error .malformed) Means

namespace Converts

/-- The meaning may be said in other words. -/
theorem congr (hx : Converts x Means) (h : ∀ a, Means a ↔ Means' a) : Converts x Means' := by
  cases hx with
  | ok hmeans => exact .ok fun b => (h b).symm.trans (hmeans b)
  | malformed hnone => exact .malformed fun a => mt (h a).2 (hnone a)

theorem of_toOption_eq_some (hx : Converts x Means) {a : α} (h : x.toOption = some a) :
    Means a := by
  cases hx with
  | ok hmeans =>
    obtain rfl := Option.some.inj h
    exact (hmeans _).2 rfl
  | malformed => cases h

/-- There is one result for a meaning. -/
theorem eq (hx : Converts x Means) (hy : Converts y Means) : x = y := by
  cases hx with
  | ok hmeans =>
    cases hy with
    | ok hmeans' => rw [(hmeans _).1 ((hmeans' _).2 rfl)]
    | malformed hnone => exact absurd ((hmeans _).2 rfl) (hnone _)
  | malformed hnone =>
    cases hy with
    | ok hmeans => exact absurd ((hmeans _).2 rfl) (hnone _)
    | malformed => rfl

/-- A result of two steps has a meaning in between. -/
theorem bind_eq_ok_iff (hx : Converts x Means) {b : β} :
    x >>= k = .ok b ↔ ∃ a, Means a ∧ k a = .ok b := by
  cases hx with
  | ok hmeans =>
    refine ⟨fun h => ⟨_, (hmeans _).2 rfl, h⟩, fun ⟨a, ha, h⟩ => ?_⟩
    obtain rfl := (hmeans a).1 ha
    exact h
  | malformed hnone => exact ⟨nofun, fun ⟨a, ha, _⟩ => absurd ha (hnone a)⟩

/-- Either there is no meaning, or what comes next fails. -/
theorem bind_eq_error_iff (hx : Converts x Means) {e : SettingsError} :
    x >>= k = .error e ↔
      (e = .malformed ∧ ∀ a, ¬Means a) ∨ ∃ a, Means a ∧ k a = .error e := by
  cases hx with
  | ok hmeans =>
    refine ⟨fun h => .inr ⟨_, (hmeans _).2 rfl, h⟩, ?_⟩
    rintro (⟨-, hnone⟩ | ⟨a, ha, h⟩)
    · exact absurd ((hmeans _).2 rfl) (hnone _)
    · obtain rfl := (hmeans a).1 ha
      exact h
  | malformed hnone =>
    constructor
    · intro h
      cases h
      exact .inl ⟨rfl, hnone⟩
    · rintro (⟨rfl, -⟩ | ⟨a, ha, -⟩)
      · rfl
      · exact absurd ha (hnone a)

end Converts

end Results

/-! ## Keys -/

section Keys

variable {α : Type} {entries entries' : Entries} {key : String} {Means : Value → α → Prop}
  {missing a : α}

/-- The key has a value that means `a`, or the key is missing and `a` is the default. -/
def Sets (entries : Entries) (key : String) (Means : Value → α → Prop) (missing a : α) : Prop :=
  (∃ v, (key, v) ∈ entries ∧ Means v a) ∨ (∀ v, (key, v) ∉ entries) ∧ a = missing

/-- A key is looked up, and its value is converted, or there is a default. -/
theorem Converts.lookup (h : DistinctEntries entries)
    {convert? : Option Value → Except SettingsError α} (hmissing : convert? none = .ok missing)
    (hconvert : ∀ v, v.Distinct → Converts (convert? (some v)) (Means v)) :
    Converts (convert? (entries.lookup key)) (Sets entries key Means missing) := by
  cases hlookup : entries.lookup key with
  | none =>
    have hnone := lookup_eq_none_iff.1 hlookup
    rw [hmissing]
    refine .ok fun a => ⟨?_, fun ha => .inr ⟨hnone, ha⟩⟩
    rintro (⟨v, hv, -⟩ | ⟨-, ha⟩)
    · exact absurd hv (hnone v)
    · exact ha
  | some v =>
    have hv := h.lookup_eq_some_iff.1 hlookup
    refine (hconvert v (h.values _ hv)).congr fun a => ⟨fun ha => .inl ⟨v, hv, ha⟩, ?_⟩
    rintro (⟨w, hw, ha⟩ | ⟨hnone, -⟩)
    · obtain rfl := Option.some.inj (hlookup.symm.trans (h.lookup_eq_some_iff.2 hw))
      exact ha
    · exact absurd hv (hnone v)

/-- As there is a default, something is set unless the value of the key means nothing. -/
theorem exists_sets_iff (h : DistinctEntries entries) :
    (∃ a, Sets entries key Means missing a) ↔ ∀ v, (key, v) ∈ entries → ∃ a, Means v a := by
  constructor
  · rintro ⟨a, ⟨v, hv, hmeans⟩ | ⟨hnone, -⟩⟩ w hw
    · have heq := (h.lookup_eq_some_iff.2 hv).symm.trans (h.lookup_eq_some_iff.2 hw)
      exact ⟨a, Option.some.inj heq ▸ hmeans⟩
    · exact absurd hw (hnone w)
  · intro hall
    by_cases hkey : ∃ v, (key, v) ∈ entries
    · obtain ⟨v, hv⟩ := hkey
      obtain ⟨a, hmeans⟩ := hall v hv
      exact ⟨a, .inl ⟨v, hv, hmeans⟩⟩
    · exact ⟨missing, .inr ⟨not_exists.1 hkey, rfl⟩⟩

/-- Neither table has the key, or both have it, with values that are the same in some respect. -/
structure SameAt (key : String) (Same : Value → Value → Prop) (entries entries' : Entries) :
    Prop where
  left : ∀ v, (key, v) ∈ entries → ∃ w, (key, w) ∈ entries' ∧ Same v w
  right : ∀ w, (key, w) ∈ entries' → ∃ v, (key, v) ∈ entries ∧ Same v w

/-- Tables with the same value at a key are the same there. -/
theorem SameAt.of_mem_iff {Same : Value → Value → Prop} (hrefl : ∀ v, Same v v)
    (h : ∀ v, (key, v) ∈ entries ↔ (key, v) ∈ entries') : SameAt key Same entries entries' :=
  ⟨fun v hv => ⟨v, (h v).1 hv, hrefl v⟩, fun v hv => ⟨v, (h v).2 hv, hrefl v⟩⟩

/-- What a key sets is decided by the entries with that key. -/
theorem SameAt.sets_iff {Same : Value → Value → Prop} (h : SameAt key Same entries entries')
    (hmeans : ∀ v w, Same v w → ∀ a, Means v a ↔ Means w a) :
    Sets entries key Means missing a ↔ Sets entries' key Means missing a := by
  constructor
  · rintro (⟨v, hv, ha⟩ | ⟨hnone, ha⟩)
    · obtain ⟨w, hw, hsame⟩ := h.left v hv
      exact .inl ⟨w, hw, (hmeans v w hsame a).1 ha⟩
    · refine .inr ⟨fun w hw => ?_, ha⟩
      obtain ⟨v, hv, -⟩ := h.right w hw
      exact hnone v hv
  · rintro (⟨w, hw, ha⟩ | ⟨hnone, ha⟩)
    · obtain ⟨v, hv, hsame⟩ := h.right w hw
      exact .inl ⟨v, hv, (hmeans v w hsame a).2 ha⟩
    · refine .inr ⟨fun v hv => ?_, ha⟩
      obtain ⟨w, hw, -⟩ := h.left v hv
      exact hnone w hw

end Keys

/-! ## Values -/

/-- The keys of the simplifications in their table. -/
def flagKeys : List String := ["skip_redundant_state", "skip_initial_save_state"]

def IsFlag (v : Value) (on : Bool) : Prop := v = .boolean on

/-- The value is an integer of 32 bits, without a sign. -/
def IsPlaces (v : Value) (places : ℕ) : Prop := v = .integer places ∧ places < 2 ^ 32

/-- The simplifications that a value stands for: in a table and in an array, those that are not
    given are off. -/
inductive StandsFor : Value → Simplifications → Prop
  | table (origin : Origin) {entries : Entries} {s : Simplifications} :
      Sets entries "skip_redundant_state" IsFlag false s.emptyBrackets →
      Sets entries "skip_initial_save_state" IsFlag false s.outerBracket →
      StandsFor (.table origin entries) s
  | array {items : List Value} {s : Simplifications} :
      items.getD 0 (.boolean false) = .boolean s.emptyBrackets →
      items.getD 1 (.boolean false) = .boolean s.outerBracket →
      StandsFor (.array items) s
  | moment (moment : Moment) : StandsFor (.moment moment) ⟨false, false⟩

section Pairs

variable {origin : Origin} {entries : Entries} {items : List Value} {s : Simplifications}

/-- A table sets each rewrite by its own key, or leaves it off. -/
theorem standsFor_table_iff : StandsFor (.table origin entries) s ↔
    Sets entries "skip_redundant_state" IsFlag false s.emptyBrackets ∧
      Sets entries "skip_initial_save_state" IsFlag false s.outerBracket := by
  constructor
  · rintro ⟨⟩
    exact ⟨‹_›, ‹_›⟩
  · exact fun ⟨hfirst, hsecond⟩ => .table origin hfirst hsecond

/-- An array sets each rewrite by its place, or leaves it off. -/
theorem standsFor_array_iff : StandsFor (.array items) s ↔
    items.getD 0 (.boolean false) = .boolean s.emptyBrackets ∧
      items.getD 1 (.boolean false) = .boolean s.outerBracket := by
  constructor
  · rintro ⟨⟩
    exact ⟨‹_›, ‹_›⟩
  · exact fun ⟨hfirst, hsecond⟩ => .array hfirst hsecond

/-- A date or time leaves both rewrites off. -/
theorem standsFor_moment_iff {moment : Moment} :
    StandsFor (.moment moment) s ↔ s = ⟨false, false⟩ := by
  constructor
  · rintro ⟨⟩
    rfl
  · rintro rfl
    exact .moment moment

/-- The two simplifications are independent of each other. -/
theorem exists_simplifications_iff (Means Means' : Bool → Prop) :
    (∃ s : Simplifications, Means s.emptyBrackets ∧ Means' s.outerBracket) ↔
      (∃ on, Means on) ∧ ∃ on, Means' on :=
  ⟨fun ⟨_, hfirst, hsecond⟩ => ⟨⟨_, hfirst⟩, ⟨_, hsecond⟩⟩,
    fun ⟨⟨_, hfirst⟩, ⟨_, hsecond⟩⟩ => ⟨⟨_, _⟩, hfirst, hsecond⟩⟩

end Pairs

/-- A flag is a boolean, and anything else is a fault. -/
theorem converts_flag? (v : Value) : Converts (flag? (some v)) (IsFlag v) := by
  cases v with
  | boolean on => exact .ok fun a => by simp [IsFlag, eq_comm]
  | _ => exact .malformed nofun

theorem converts_flag?_getElem? (items : List Value) (i : ℕ) :
    Converts (flag? items[i]?) fun on => items.getD i (.boolean false) = .boolean on := by
  rw [List.getD_eq_getElem?_getD]
  cases items[i]? with
  | none => exact .ok fun a => by simp [eq_comm]
  | some v => exact converts_flag? v

/-- A number of places is an integer in range, and anything else is a fault. -/
theorem converts_places? (v : Value) : Converts (places? v) (IsPlaces v) := by
  cases v with
  | integer n =>
    have hrange : Int.pow 2 32 = (2 ^ 32 : ℕ) := rfl
    rw [places?, hrange]
    split
    · next h =>
      lift n to ℕ using h.1
      have hlt : n < 2 ^ 32 := Int.ofNat_lt.1 h.2
      refine .ok fun a => ⟨?_, ?_⟩
      · rintro ⟨⟨⟩, -⟩
        rfl
      · rintro rfl
        exact ⟨rfl, hlt⟩
    · next h =>
      refine .malformed fun a ⟨heq, hlt⟩ => h ?_
      cases heq
      exact ⟨Int.natCast_nonneg a, Int.ofNat_lt.2 hlt⟩
  | _ => exact .malformed fun _ h => nomatch h.1

/-- Two truth values are given together. -/
theorem Converts.both {x y : Except SettingsError Bool} {Means Means' : Bool → Prop}
    (hx : Converts x Means) (hy : Converts y Means') :
    Converts (do
      let emptyBrackets ← x
      let outerBracket ← y
      return (⟨emptyBrackets, outerBracket⟩ : Simplifications))
      fun s => Means s.emptyBrackets ∧ Means' s.outerBracket := by
  cases hx with
  | malformed hnone => exact .malformed fun s hs => hnone _ hs.1
  | ok hmeans =>
    cases hy with
    | malformed hnone => exact .malformed fun s hs => hnone _ hs.2
    | ok hmeans' =>
      refine .ok fun s => ⟨fun ⟨hfirst, hsecond⟩ => ?_, ?_⟩
      · rw [← (hmeans _).1 hfirst, ← (hmeans' _).1 hsecond]
      · rintro rfl
        exact ⟨(hmeans _).2 rfl, (hmeans' _).2 rfl⟩

/-- A value of the rewrites is a table, an array, or a date or time, and its parts are converted as
    such. -/
theorem converts_ofValue? {v : Value} (h : v.Distinct) :
    Converts (Simplifications.ofValue? v) (StandsFor v) := by
  cases v with
  | table origin entries =>
    have hentries := distinct_table_iff.1 h
    exact (Converts.both (.lookup hentries rfl fun v _ => converts_flag? v)
      (.lookup hentries rfl fun v _ => converts_flag? v)).congr fun s => standsFor_table_iff.symm
  | array items =>
    exact (Converts.both (converts_flag?_getElem? items 0)
      (converts_flag?_getElem? items 1)).congr fun s => standsFor_array_iff.symm
  | moment m => exact .ok fun s => standsFor_moment_iff
  | _ => exact .malformed nofun

/-! ## Types -/

/-- The value is of the type that the simplifications should be of: a table in which they have truth
    values, an array that starts with truth values, or a date or a time. -/
inductive Fits : Value → Prop
  | table (origin : Origin) {entries : Entries} :
      (∀ key ∈ flagKeys, ∀ v, (key, v) ∈ entries → ∃ on, IsFlag v on) → Fits (.table origin entries)
  | array {items : List Value} :
      (∀ i < 2, ∀ v, items[i]? = some v → ∃ on, IsFlag v on) → Fits (.array items)
  | moment (moment : Moment) : Fits (.moment moment)

/-- An item that is missing is no fault. -/
theorem exists_getD_eq_boolean_iff {items : List Value} {i : ℕ} :
    (∃ on, items.getD i (.boolean false) = .boolean on) ↔
      ∀ v, items[i]? = some v → ∃ on, IsFlag v on := by
  rw [List.getD_eq_getElem?_getD]
  cases items[i]? with
  | none => exact ⟨nofun, fun _ => ⟨false, rfl⟩⟩
  | some v => exact ⟨fun h w hw => Option.some.inj hw ▸ h, fun h => h v rfl⟩

/-- The types are right if a value stands for something. -/
theorem exists_standsFor_iff {v : Value} (h : v.Distinct) : (∃ s, StandsFor v s) ↔ Fits v := by
  cases v with
  | table origin entries =>
    have hentries := distinct_table_iff.1 h
    simp only [standsFor_table_iff]
    rw [exists_simplifications_iff, exists_sets_iff hentries, exists_sets_iff hentries]
    constructor
    · exact fun ⟨hfirst, hsecond⟩ =>
        .table origin (List.forall_mem_cons.2 ⟨hfirst, List.forall_mem_singleton.2 hsecond⟩)
    · intro hfits
      cases hfits with
      | table _ hall => exact ⟨hall _ (by decide), hall _ (by decide)⟩
  | array items =>
    simp only [standsFor_array_iff]
    refine (exists_simplifications_iff (fun on => items.getD 0 (.boolean false) = .boolean on)
      (fun on => items.getD 1 (.boolean false) = .boolean on)).trans ?_
    rw [exists_getD_eq_boolean_iff, exists_getD_eq_boolean_iff]
    constructor
    · refine fun ⟨hfirst, hsecond⟩ => .array fun i hi => ?_
      match i with
      | 0 => exact hfirst
      | 1 => exact hsecond
    · intro hfits
      cases hfits with
      | array hall => exact ⟨hall 0 (by decide), hall 1 (by decide)⟩
  | moment m => exact ⟨fun _ => .moment m, fun _ => ⟨_, .moment m⟩⟩
  | _ => exact ⟨nofun, nofun⟩

/-- A known key has a value that is not of the type it should be of. -/
def Faulty (entries : Entries) : Prop :=
  (∃ v, ("precision", v) ∈ entries ∧ ∀ places, ¬IsPlaces v places) ∨
    ∃ v, ("optimize", v) ∈ entries ∧ ¬Fits v

/-- Without a fault, both keys are set, by their values or by default. -/
theorem not_faulty_iff {entries : Entries} (h : DistinctEntries entries) :
    ¬Faulty entries ↔ (∃ s, Sets entries "optimize" StandsFor .all s) ∧
      ∃ places, Sets entries "precision" IsPlaces 3 places := by
  rw [exists_sets_iff h, exists_sets_iff h, Faulty, not_or, and_comm]
  simp only [not_exists, not_and, not_not, not_forall]
  exact and_congr_left' (forall₂_congr fun v hv => (exists_standsFor_iff (h.values _ hv)).symm)

/-! ## Tables -/

/-- What is given for the simplifications; all of them are used if nothing is. -/
def simplifications? : Option Value → Except SettingsError Simplifications
  | none => .ok .all
  | some v => Simplifications.ofValue? v

/-- What is given for the precision; three decimal places are used if nothing is. -/
def precision? : Option Value → Except SettingsError ℕ
  | none => .ok 3
  | some v => places? v

namespace Settings

/-- The range is looked at only after both values have been converted. -/
theorem ofEntries?_eq_bind (entries : Entries) : ofEntries? entries = (do
    let simplifications ← simplifications? (entries.lookup "optimize")
    let precision ← precision? (entries.lookup "precision")
    if Swift.maxPlaces < precision then .error (.precision precision)
    else .ok { precision, simplifications }) := by
  rw [ofEntries?]
  cases entries.lookup "optimize" <;> cases entries.lookup "precision" <;> rfl

section Entries

variable {entries : Entries} (h : DistinctEntries entries)
include h

theorem converts_simplifications? : Converts (simplifications? (entries.lookup "optimize"))
    (Sets entries "optimize" StandsFor .all) :=
  .lookup h rfl fun _ => converts_ofValue?

theorem converts_precision? : Converts (precision? (entries.lookup "precision"))
    (Sets entries "precision" IsPlaces 3) :=
  .lookup h rfl fun v _ => converts_places? v

/-- Settings come out if both values are in order and the precision is in range. -/
theorem ofEntries?_eq_ok_iff {settings : Settings} : ofEntries? entries = .ok settings ↔
    Sets entries "optimize" StandsFor .all settings.simplifications ∧
      Sets entries "precision" IsPlaces 3 settings.precision ∧
        settings.precision ≤ Swift.maxPlaces := by
  rw [ofEntries?_eq_bind, (converts_simplifications? h).bind_eq_ok_iff]
  simp only [(converts_precision? h).bind_eq_ok_iff]
  constructor
  · rintro ⟨simplifications, hs, precision, hp, heq⟩
    split at heq
    · cases heq
    · next hrange =>
      cases heq
      exact ⟨hs, hp, Nat.not_lt.1 hrange⟩
  · rintro ⟨hs, hp, hrange⟩
    exact ⟨_, hs, _, hp, if_neg (Nat.not_lt.2 hrange)⟩

/-- An error is a fault in a value, or else a precision out of range. -/
theorem ofEntries?_eq_error_iff {e : SettingsError} :
    ofEntries? entries = .error e ↔ (e = .malformed ∧ Faulty entries) ∨
      ¬Faulty entries ∧ ∃ places, Sets entries "precision" IsPlaces 3 places ∧
        Swift.maxPlaces < places ∧ e = .precision places := by
  have hsound := not_faulty_iff h
  rw [ofEntries?_eq_bind, (converts_simplifications? h).bind_eq_error_iff]
  simp only [(converts_precision? h).bind_eq_error_iff]
  constructor
  · rintro (⟨rfl, hnone⟩ | ⟨s, hs, ⟨rfl, hnone⟩ | ⟨places, hp, heq⟩⟩)
    · exact .inl ⟨rfl, by_contra fun hfaulty => (hsound.1 hfaulty).1.elim hnone⟩
    · exact .inl ⟨rfl, by_contra fun hfaulty => (hsound.1 hfaulty).2.elim hnone⟩
    · split at heq
      · next hrange =>
        cases heq
        exact .inr ⟨hsound.2 ⟨⟨s, hs⟩, places, hp⟩, places, hp, hrange, rfl⟩
      · cases heq
  · rintro (⟨rfl, hfaulty⟩ | ⟨hfaulty, places, hp, hrange, rfl⟩)
    · by_cases hs : ∃ s, Sets entries "optimize" StandsFor .all s
      · obtain ⟨s, hs⟩ := hs
        exact .inr ⟨s, hs, .inl ⟨rfl, fun places hp => hsound.2 ⟨⟨s, hs⟩, places, hp⟩ hfaulty⟩⟩
      · exact .inl ⟨rfl, not_exists.1 hs⟩
    · obtain ⟨⟨s, hs⟩, -⟩ := hsound.1 hfaulty
      exact .inr ⟨s, hs, .inr ⟨places, hp, if_pos hrange⟩⟩

/-- The precision in the error is the value that is given. -/
theorem ofEntries?_eq_precision_iff {places : ℕ} :
    ofEntries? entries = .error (.precision places) ↔
      ¬Faulty entries ∧ ("precision", .integer places) ∈ entries ∧ Swift.maxPlaces < places := by
  rw [ofEntries?_eq_error_iff h]
  constructor
  · rintro (⟨heq, -⟩ | ⟨hsound, n, hn, hrange, heq⟩)
    · cases heq
    · cases heq
      -- The default is in range, so the precision was given.
      rcases hn with ⟨v, hv, rfl, -⟩ | ⟨-, rfl⟩
      · exact ⟨hsound, hv, hrange⟩
      · exact absurd hrange (by decide)
  · rintro ⟨hsound, hv, hrange⟩
    refine .inr ⟨hsound, places, .inl ⟨_, hv, ?_⟩, hrange, rfl⟩
    by_contra hplaces
    refine hsound (.inl ⟨_, hv, fun n hn => hplaces ?_⟩)
    cases hn.1
    exact hn

end Entries

end Settings

/-! ## Unknown keys -/

/-- Both values are the same truth value, or neither is one. -/
def SameFlag (v w : Value) : Prop := ∀ on, IsFlag v on ↔ IsFlag w on

/-- Both values are the same integer, or neither is one. -/
def SameInteger (v w : Value) : Prop := ∀ n, v = .integer n ↔ w = .integer n

/-- Tables may differ in unknown keys, and arrays in items that are not looked at. -/
inductive SameSimplifications : Value → Value → Prop
  | table (origin origin' : Origin) {entries entries' : Entries} :
      (∀ key ∈ flagKeys, SameAt key SameFlag entries entries') →
      SameSimplifications (.table origin entries) (.table origin' entries')
  | array {items items' : List Value} : (∀ i < 2, Option.Rel SameFlag items[i]? items'[i]?) →
      SameSimplifications (.array items) (.array items')
  | tables (elements elements' : List Value) :
      SameSimplifications (.tables elements) (.tables elements')
  | refl (v : Value) : SameSimplifications v v

/-- Tables may differ in unknown keys, and in the order of keys. -/
structure SameKnown (entries entries' : Entries) : Prop where
  precision : SameAt "precision" SameInteger entries entries'
  optimize : SameAt "optimize" SameSimplifications entries entries'

/-- The same integer is the same number of places. -/
theorem SameInteger.isPlaces_iff {v w : Value} (h : SameInteger v w) (places : ℕ) :
    IsPlaces v places ↔ IsPlaces w places :=
  and_congr_left' (h places)

/-- What counts in a value of the rewrites is all that its meaning depends on. -/
theorem SameSimplifications.standsFor_iff {v w : Value} (h : SameSimplifications v w)
    (s : Simplifications) : StandsFor v s ↔ StandsFor w s := by
  cases h with
  | @table origin origin' entries entries' hsame =>
    have hsets (key : String) (hkey : key ∈ flagKeys) (on : Bool) :
        Sets entries key IsFlag false on ↔ Sets entries' key IsFlag false on :=
      (hsame key hkey).sets_iff fun v w hflag => hflag
    rw [standsFor_table_iff, standsFor_table_iff]
    exact and_congr (hsets _ (by decide) _) (hsets _ (by decide) _)
  | @array items items' hsame =>
    have hitem (i : ℕ) (hi : i < 2) (on : Bool) : items.getD i (.boolean false) = .boolean on ↔
        items'.getD i (.boolean false) = .boolean on := by
      have hrel := hsame i hi
      rw [List.getD_eq_getElem?_getD, List.getD_eq_getElem?_getD]
      generalize items[i]? = v at hrel
      generalize items'[i]? = w at hrel
      cases hrel with
      | none => rfl
      | some hflag => exact hflag on
    rw [standsFor_array_iff, standsFor_array_iff]
    exact and_congr (hitem 0 (by decide) _) (hitem 1 (by decide) _)
  | tables elements elements' => exact ⟨nofun, nofun⟩
  | refl => rfl

namespace Settings

/-- Only the known keys are looked at. -/
theorem ofEntries?_eq {entries entries' : Entries} (h : DistinctEntries entries)
    (h' : DistinctEntries entries') (hsame : SameKnown entries entries') :
    ofEntries? entries = ofEntries? entries' := by
  have hs := (converts_simplifications? h).eq ((converts_simplifications? h').congr fun s =>
    (hsame.optimize.sets_iff fun v w => SameSimplifications.standsFor_iff).symm)
  have hp := (converts_precision? h).eq ((converts_precision? h').congr fun places =>
    (hsame.precision.sets_iff fun v w => SameInteger.isPlaces_iff).symm)
  rw [ofEntries?_eq_bind, ofEntries?_eq_bind, hs, hp]

/-! ## Texts -/

section Texts

variable {table? : String → Option Entries} {text : String}

theorem ofText?_eq_ofEntries? {entries : Entries} (h : table? text = some entries) :
    ofText? table? text = ofEntries? entries := by
  rw [ofText?, h]

/-- Every other outcome than a malformed text comes from a text that can be read. -/
theorem ofText?_eq_iff {result : Except SettingsError Settings}
    (hresult : result ≠ .error .malformed) : ofText? table? text = result ↔
      ∃ entries, table? text = some entries ∧ ofEntries? entries = result := by
  constructor
  · intro h
    cases htable : table? text with
    | none =>
      rw [ofText?, htable] at h
      exact absurd h.symm hresult
    | some entries => exact ⟨entries, rfl, (ofText?_eq_ofEntries? htable).symm.trans h⟩
  · rintro ⟨entries, htable, h⟩
    exact (ofText?_eq_ofEntries? htable).trans h

/-- Text is malformed if there is no table in it, or a fault in the table. -/
theorem ofText?_eq_malformed_iff
    (hdistinct : ∀ entries, table? text = some entries → DistinctEntries entries) :
    ofText? table? text = .error .malformed ↔
      ∀ entries, table? text = some entries → Faulty entries := by
  cases htable : table? text with
  | none =>
    rw [ofText?, htable]
    exact ⟨nofun, fun _ => rfl⟩
  | some entries =>
    rw [ofText?_eq_ofEntries? htable, ofEntries?_eq_error_iff (hdistinct entries htable)]
    constructor
    · rintro (⟨-, hfaulty⟩ | ⟨-, places, -, -, heq⟩) entries' heq'
      · exact Option.some.inj heq' ▸ hfaulty
      · cases heq
    · exact fun h => .inl ⟨rfl, h entries rfl⟩

end Texts

/-- Whatever reads texts as tables, if only their keys are distinct: a text is malformed if it
    cannot be read, or if a known key has a value that is not of the right type; if it is not
    malformed, the precision has to be in range. The settings are then those that are given or,
    where they are not given, the defaults. Nothing else changes the outcome. -/
theorem ofText?_outcome (table? : String → Option Entries)
    (hdistinct : ∀ text entries, table? text = some entries → DistinctEntries entries)
    (text : String) :
    (ofText? table? text = .error .malformed ↔
      ∀ entries, table? text = some entries → Faulty entries) ∧
    (∀ places : ℕ, ofText? table? text = .error (.precision places) ↔
      ∃ entries, table? text = some entries ∧ ¬Faulty entries ∧
        ("precision", .integer places) ∈ entries ∧ 9 < places) ∧
    (∀ settings, ofText? table? text = .ok settings ↔
      ∃ entries, table? text = some entries ∧
        Sets entries "optimize" StandsFor .all settings.simplifications ∧
          Sets entries "precision" IsPlaces 3 settings.precision ∧ settings.precision ≤ 9) ∧
    ∀ other entries entries', table? text = some entries → table? other = some entries' →
      SameKnown entries entries' → ofText? table? text = ofText? table? other := by
  refine ⟨ofText?_eq_malformed_iff (hdistinct text), fun places => ?_, fun settings => ?_, ?_⟩
  · refine (ofText?_eq_iff ?_).trans (exists_congr fun entries => and_congr_right fun htable =>
      ofEntries?_eq_precision_iff (hdistinct text entries htable))
    exact nofun
  · refine (ofText?_eq_iff ?_).trans (exists_congr fun entries => and_congr_right fun htable =>
      ofEntries?_eq_ok_iff (hdistinct text entries htable))
    exact nofun
  · intro other entries entries' h h' hsame
    rw [ofText?_eq_ofEntries? h, ofText?_eq_ofEntries? h']
    exact ofEntries?_eq (hdistinct text entries h) (hdistinct other entries' h') hsame

/-- What is looked up in a file, if it has a precision only. -/
theorem exists_read?_eq (text : String) (places : ℕ) (h : ((read? text).any fun entries =>
      (entries.lookup "optimize").isNone &&
        (entries.lookup "precision").any fun v => (places? v).toOption == some places) = true) :
    ∃ entries, read? text = some entries ∧ (∀ v, ("optimize", v) ∉ entries) ∧
      ∀ v, ("precision", v) ∈ entries ↔ v = .integer places := by
  rw [Option.any_eq_true] at h
  obtain ⟨entries, hread, h⟩ := h
  rw [Bool.and_eq_true, Option.isNone_iff_eq_none, Option.any_eq_true] at h
  obtain ⟨hnone, v, hv, hplaces⟩ := h
  obtain ⟨rfl, -⟩ := (converts_places? v).of_toOption_eq_some (eq_of_beq hplaces)
  refine ⟨entries, hread, lookup_eq_none_iff.1 hnone, fun w => ?_⟩
  rw [← (distinctEntries_of_read?_eq hread).lookup_eq_some_iff, hv, Option.some.injEq, eq_comm]

/-- In configuration files all keys are distinct. The second of these starts with another key. -/
theorem ofText?_outcome_unknownKey :
    (∀ text entries, read? text = some entries → DistinctEntries entries) ∧ ∃ entries entries',
      read? "precision = 2" = some entries ∧ read? "a = 1\nprecision = +2" = some entries' ∧
        SameKnown entries entries' ∧
          ofToml? "precision = 2" = ofToml? "a = 1\nprecision = +2" := by
  obtain ⟨entries, hread, hoptimize, hprecision⟩ :=
    exists_read?_eq "precision = 2" 2 (by decide +kernel)
  obtain ⟨entries', hread', hoptimize', hprecision'⟩ :=
    exists_read?_eq "a = 1\nprecision = +2" 2 (by decide +kernel)
  have hsame : SameKnown entries entries' := by
    refine ⟨.of_mem_iff (fun v n => .rfl) fun v => ?_, .of_mem_iff .refl fun v => ?_⟩
    · rw [hprecision, hprecision']
    · exact iff_of_false (hoptimize v) (hoptimize' v)
  have hdistinct : ∀ text entries, read? text = some entries → DistinctEntries entries :=
    fun _ _ => distinctEntries_of_read?_eq
  exact ⟨hdistinct, entries, entries', hread, hread', hsame,
    (ofText?_outcome read? hdistinct _).2.2.2 _ _ _ hread hread' hsame⟩

/-- A date is neither a table nor an array, and is not malformed. -/
theorem ofToml?_date : ∃ entries date, read? "optimize = 2020-01-01" = some entries ∧
    ("optimize", .moment date) ∈ entries ∧
      ofToml? "optimize = 2020-01-01" = .ok ⟨3, ⟨false, false⟩⟩ := by
  have hdate : ((read? "optimize = 2020-01-01").any fun entries =>
      (entries.lookup "optimize").any fun v =>
        v.ctorIdx == (Value.moment (.date ⟨2020, 1, 1⟩)).ctorIdx) = true := by
    decide +kernel
  have hok : (ofToml? "optimize = 2020-01-01").toOption = some ⟨3, ⟨false, false⟩⟩ := by
    decide +kernel
  rw [Option.any_eq_true] at hdate
  obtain ⟨entries, hread, hdate⟩ := hdate
  rw [Option.any_eq_true] at hdate
  obtain ⟨v, hlookup, hindex⟩ := hdate
  obtain ⟨date, rfl⟩ : ∃ date, v = .moment date := by
    cases v with
    | moment date => exact ⟨date, rfl⟩
    | _ => cases hindex
  refine ⟨entries, date, hread, mem_of_lookup_eq_some hlookup, ?_⟩
  cases hresult : ofToml? "optimize = 2020-01-01" with
  | ok settings =>
    rw [hresult] at hok
    rw [Option.some.inj hok]
  | error e =>
    rw [hresult] at hok
    cases hok

end Settings

end SceneCode
