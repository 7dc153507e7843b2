import Mathlib.Data.List.Nodup
import SceneCode.Toml.Document

/-!
# The keys of a table are distinct

A key of a configuration file is assigned to once: an assignment fails where there is a value
already, and what leads to a key only replaces tables by tables that hold more. So the keys of every
table that is read are distinct, at any depth (`Value.Distinct`), and a value can be looked up
wherever it stands among the entries (`DistinctEntries.lookup_eq_some_iff`).

Values are built by readers, and lines are carried out on tables. What is known of everything that a
reader yields (`Reader.Yields`) goes through the ways in which readers are put together, and
distinct keys are kept by every step of carrying out a line (`DistinctEntries.assign?`,
`DistinctEntries.enter?`).

* `distinctEntries_of_read?_eq`: the keys in a file are distinct.
-/

namespace SceneCode

/-! ## Readers -/

namespace Reader

variable {α β : Type}

/-- Everything that a reader yields has a property. -/
def Yields (r : Reader α) (P : α → Prop) : Prop :=
  ∀ text a rest, r text = some (a, rest) → P a

namespace Yields

variable {r s : Reader α} {P : α → Prop} {Q : β → Prop} {k : α → Reader β}

/-- What holds of everything holds of what is read. -/
theorem of_forall (h : ∀ a, P a) : r.Yields P := fun _ a _ _ => h a

theorem pure {a : α} (h : P a) : Yields (pure a) P := by
  intro text b rest hb
  obtain ⟨rfl, -⟩ := Prod.mk.inj (Option.some.inj hb)
  exact h

theorem failure : Yields failure P := fun _ _ _ h => nomatch h

/-- What is known of the first result may be used for the second one. -/
theorem bind (hr : r.Yields P) (hk : ∀ a, P a → (k a).Yields Q) : (r >>= k).Yields Q := by
  intro text b rest h
  obtain ⟨⟨a, rest'⟩, ha, hb⟩ := Option.bind_eq_some_iff.1 h
  exact hk a (hr text a rest' ha) rest' b rest hb

/-- What comes before does not matter. -/
theorem after (r : Reader α) (hk : ∀ a, (k a).Yields Q) : (r >>= k).Yields Q :=
  (of_forall (r := r) fun _ => trivial).bind fun a _ => hk a

theorem map {g : α → β} (hr : r.Yields fun a => Q (g a)) : (g <$> r).Yields Q :=
  hr.bind fun _ ha => pure ha

/-- Whichever of two readers succeeds, it has yielded the result. -/
theorem orElse (hr : r.Yields P) (hs : s.Yields P) : (r <|> s).Yields P := by
  intro text a rest h
  have hor : (r text).orElse (fun _ => s text) = some (a, rest) := h
  cases hfirst : r text with
  | some result =>
    rw [hfirst] at hor
    exact hr text a rest (hfirst.trans hor)
  | none =>
    rw [hfirst] at hor
    exact hs text a rest hor

theorem optional (hr : r.Yields P) : (optional r).Yields fun found => ∀ a ∈ found, P a := by
  refine orElse (map fun text a rest h b hb => ?_) (pure fun a ha => nomatch ha)
  obtain rfl := Option.some.inj hb
  exact hr text a rest h

/-- All results of a repetition are results of the reader, by induction on the limit. -/
theorem atMost (hr : r.Yields P) (count : Nat) :
    (Reader.atMost count r).Yields fun found => ∀ a ∈ found, P a := by
  induction count with
  | zero => exact pure (List.forall_mem_nil _)
  | succ count ih =>
    refine hr.optional.bind fun found hfound => ?_
    cases found with
    | none => exact pure (List.forall_mem_nil _)
    | some a =>
      exact ih.bind fun others hothers => pure (List.forall_mem_cons.2 ⟨hfound a rfl, hothers⟩)

theorem many (hr : r.Yields P) : (many r).Yields fun found => ∀ a ∈ found, P a :=
  after get fun _ => hr.atMost _

/-- What is between the results does not matter. -/
theorem separated (separator : Reader β) (hr : r.Yields P) :
    (separated separator r).Yields fun found => ∀ a ∈ found, P a :=
  hr.bind fun _ ha => (many (after separator fun _ => hr)).bind fun _ hothers =>
    pure (List.forall_mem_cons.2 ⟨ha, hothers⟩)

theorem seqRight (r : Reader β) (hs : s.Yields P) : (r *> s).Yields P :=
  after r fun _ => hs

theorem seqLeft (hr : r.Yields P) (s : Reader β) : (r <* s).Yields P :=
  hr.bind fun _ ha => after s fun _ => pure ha

end Yields

/-- What is yielded on a whole text is one of the results. -/
theorem Yields.of_run?_eq {r : Reader α} {P : α → Prop} (hr : r.Yields P) {text : List Char} {a : α}
    (h : r.run? text = some a) : P a := by
  rw [run?] at h
  split at h
  · next b heq =>
    obtain rfl := Option.some.inj h
    exact hr text b [] heq
  · cases h

end Reader

/-! ## Entries -/

namespace Toml

/-- The keys of a table are distinct, in all tables that a value is made of. -/
inductive Value.Distinct : Value → Prop
  | string (text : String) : Distinct (.string text)
  | integer (value : Int) : Distinct (.integer value)
  | float (value : Double) : Distinct (.float value)
  | boolean (value : Bool) : Distinct (.boolean value)
  | moment (moment : Moment) : Distinct (.moment moment)
  | array {items : List Value} : (∀ item ∈ items, Distinct item) → Distinct (.array items)
  | table (origin : Origin) {entries : Entries} : (entries.map Prod.fst).Nodup →
      (∀ entry ∈ entries, Distinct entry.2) → Distinct (.table origin entries)
  | tables {elements : List Value} : (∀ element ∈ elements, Distinct element) →
      Distinct (.tables elements)

/-- The keys of the entries are distinct, and also those in the values. -/
structure DistinctEntries (entries : Entries) : Prop where
  keys : (entries.map Prod.fst).Nodup
  values : ∀ entry ∈ entries, entry.2.Distinct

/-- The keys of a table are those of its entries. -/
theorem distinct_table_iff {origin : Origin} {entries : Entries} :
    (Value.table origin entries).Distinct ↔ DistinctEntries entries := by
  constructor
  · rintro ⟨⟩
    exact ⟨‹_›, ‹_›⟩
  · intro h
    exact .table origin h.keys h.values

theorem distinct_tables_iff {elements : List Value} :
    (Value.tables elements).Distinct ↔ ∀ element ∈ elements, element.Distinct := by
  constructor
  · rintro ⟨⟩
    assumption
  · exact .tables

theorem lookup_eq_none_iff {entries : Entries} {key : String} :
    entries.lookup key = none ↔ ∀ v, (key, v) ∉ entries := by
  rw [List.lookup_eq_none_iff]
  constructor
  · intro h v hv
    exact bne_iff_ne.1 (h (key, v) hv) rfl
  · rintro h ⟨key', v⟩ hv
    refine bne_iff_ne.2 fun heq => h v ?_
    rwa [heq]

theorem mem_of_lookup_eq_some {entries : Entries} {key : String} {v : Value}
    (h : entries.lookup key = some v) : (key, v) ∈ entries := by
  obtain ⟨before, after, rfl, -⟩ := List.lookup_eq_some_iff.1 h
  exact List.mem_append_right _ List.mem_cons_self

namespace DistinctEntries

variable {entries : Entries} {key : String} {v : Value}

theorem nil : DistinctEntries [] := ⟨List.nodup_nil, fun _ h => nomatch h⟩

theorem of_lookup (h : DistinctEntries entries) (hv : entries.lookup key = some v) : v.Distinct :=
  h.values (key, v) (mem_of_lookup_eq_some hv)

/-- A value can be looked up wherever it stands. -/
theorem lookup_eq_some_iff (h : DistinctEntries entries) :
    entries.lookup key = some v ↔ (key, v) ∈ entries := by
  refine ⟨mem_of_lookup_eq_some, fun hv => ?_⟩
  cases hlookup : entries.lookup key with
  | none => exact absurd hv (lookup_eq_none_iff.1 hlookup v)
  | some w =>
    have heq := List.inj_on_of_nodup_map h.keys hv (mem_of_lookup_eq_some hlookup) rfl
    rw [(Prod.mk.inj heq).2]

/-- A key that is not there may be added. -/
theorem concat (h : DistinctEntries entries) (hkey : entries.lookup key = none) (hv : v.Distinct) :
    DistinctEntries (entries ++ [(key, v)]) := by
  refine ⟨?_, List.forall_mem_append.2 ⟨h.values, List.forall_mem_singleton.2 hv⟩⟩
  rw [List.map_append]
  refine h.keys.append (List.nodup_singleton _) (List.disjoint_singleton.2 fun hmem => ?_)
  obtain ⟨⟨_, w⟩, hw, rfl⟩ := List.mem_map.1 hmem
  exact lookup_eq_none_iff.1 hkey w hw

/-- Replacing a value keeps the keys, in the same order. -/
theorem replace (h : DistinctEntries entries) (hv : v.Distinct) :
    DistinctEntries (replaceEntry key v entries) := by
  refine ⟨?_, fun entry hentry => ?_⟩
  · have hkeys : (replaceEntry key v entries).map Prod.fst = entries.map Prod.fst := by
      rw [replaceEntry, List.map_map]
      refine List.map_congr_left fun entry _ => ?_
      rw [Function.comp_apply]
      split
      · next heq => exact heq.symm
      · rfl
    rw [hkeys]
    exact h.keys
  · obtain ⟨old, hold, rfl⟩ := List.mem_map.1 hentry
    split
    · exact hv
    · exact h.values old hold

/-! What is assigned to in a table that comes next keeps the keys distinct there, and thus here. -/

section Next

variable {origin : Origin} {elements : List Value} {next? : Option Entries} {result : Entries}
  (h : DistinctEntries entries) (hnext : ∀ inner, next? = some inner → DistinctEntries inner)
include h hnext

/-- A table is made for the key, and the rest of the path goes on in it. -/
theorem concat_next (hkey : entries.lookup key = none)
    (hresult : (do return entries ++ [(key, .table origin (← next?))]) = some result) :
    DistinctEntries result := by
  obtain ⟨inner, hinner, heq⟩ := Option.bind_eq_some_iff.1 hresult
  obtain rfl := Option.some.inj heq
  exact h.concat hkey (distinct_table_iff.2 (hnext inner hinner))

/-- The rest of the path goes on in a table that is there. -/
theorem replace_next
    (hresult : (do return replaceEntry key (.table origin (← next?)) entries) = some result) :
    DistinctEntries result := by
  obtain ⟨inner, hinner, heq⟩ := Option.bind_eq_some_iff.1 hresult
  obtain rfl := Option.some.inj heq
  exact h.replace (distinct_table_iff.2 (hnext inner hinner))

/-- The rest of the path goes on in the last table of an array of tables. -/
theorem replace_last_next (helements : ∀ element ∈ elements, element.Distinct)
    (hresult : (do
      let inner ← next?
      return replaceEntry key (.tables (elements ++ [.table origin inner])) entries) =
        some result) : DistinctEntries result := by
  obtain ⟨inner, hinner, heq⟩ := Option.bind_eq_some_iff.1 hresult
  obtain rfl := Option.some.inj heq
  exact h.replace (.tables (List.forall_mem_append.2
    ⟨helements, List.forall_mem_singleton.2 (distinct_table_iff.2 (hnext inner hinner))⟩))

end Next

/-- The keys of a table that is found are distinct. -/
theorem of_lookup_table {origin : Origin} {inner : Entries} (h : DistinctEntries entries)
    (hlookup : entries.lookup key = some (.table origin inner)) : DistinctEntries inner :=
  distinct_table_iff.1 (h.of_lookup hlookup)

theorem of_lookup_tables {elements : List Value} (h : DistinctEntries entries)
    (hlookup : entries.lookup key = some (.tables elements)) :
    ∀ element ∈ elements, element.Distinct :=
  distinct_tables_iff.1 (h.of_lookup hlookup)

theorem of_getLast?_eq {elements : List Value} {origin : Origin} {inner : Entries}
    (helements : ∀ element ∈ elements, element.Distinct)
    (hlast : elements.getLast? = some (.table origin inner)) : DistinctEntries inner :=
  distinct_table_iff.1 (helements _ (List.mem_of_getLast? hlast))

/-- An assignment fails where the key is taken, and otherwise adds a key or changes a table on its
    way. The induction is on the path. -/
theorem assign? {path : List String} {result : Entries} (hv : v.Distinct)
    (h : DistinctEntries entries) (hresult : Toml.assign? v path entries = some result) :
    DistinctEntries result := by
  fun_induction Toml.assign? v path entries generalizing result with
  | case1 | case2 | case6 | case8 | case10 | case11 => cases hresult
  | case3 key entries hkey =>
    obtain rfl := Option.some.inj hresult
    exact h.concat (Option.not_isSome_iff_eq_none.1 hkey) hv
  | case4 key next rest entries hlookup ih =>
    exact h.concat_next (fun _ hinner => ih nil hinner) hlookup hresult
  | case5 key next rest entries inner hlookup ih =>
    exact h.replace_next (fun _ hinner => ih (h.of_lookup_table hlookup) hinner) hresult
  | case7 key next rest entries inner hlookup _ ih =>
    exact h.replace_next (fun _ hinner => ih (h.of_lookup_table hlookup) hinner) hresult
  | case9 key next rest entries elements hlookup origin inner hlast _ ih =>
    have helements := h.of_lookup_tables hlookup
    exact h.replace_last_next (fun _ hinner => ih (of_getLast?_eq helements hlast) hinner)
      (fun element hmem => helements element (List.dropLast_subset _ hmem)) hresult

/-- Assignments keep keys distinct one after the other. -/
theorem assignAll? {assignments : List (List String × Value)} {result : Entries}
    (hvalues : ∀ assignment ∈ assignments, assignment.2.Distinct) (h : DistinctEntries entries)
    (hresult : Toml.assignAll? assignments entries = some result) : DistinctEntries result := by
  induction assignments generalizing entries with
  | nil =>
    obtain rfl := Option.some.inj hresult
    exact h
  | cons assignment rest ih =>
    obtain ⟨hfirst, hrest⟩ := List.forall_mem_cons.1 hvalues
    obtain ⟨between, hbetween, hresult⟩ := Option.bind_eq_some_iff.1 hresult
    exact ih hrest (h.assign? hfirst hbetween) hresult

/-- A header leads to the table that is changed, through tables that are there or made on the way.
    The change has to keep keys distinct in the table where the path ends. -/
theorem enterPath? {change : String → Entries → Option Entries}
    (hchange : ∀ key entries result, DistinctEntries entries → change key entries = some result →
      DistinctEntries result) {path : List String} {result : Entries} (h : DistinctEntries entries)
    (hresult : Toml.enterPath? change path entries = some result) : DistinctEntries result := by
  fun_induction Toml.enterPath? change path entries generalizing result with
  | case1 | case4 | case7 | case8 => cases hresult
  | case2 key entries => exact hchange key entries result h hresult
  | case3 key next rest entries hlookup ih =>
    exact h.concat_next (fun _ hinner => ih nil hinner) hlookup hresult
  | case5 key next rest entries origin inner _ hlookup ih =>
    exact h.replace_next (fun _ hinner => ih (h.of_lookup_table hlookup) hinner) hresult
  | case6 key next rest entries elements hlookup origin inner hlast ih =>
    have helements := h.of_lookup_tables hlookup
    exact h.replace_last_next (fun _ hinner => ih (of_getLast?_eq helements hlast) hinner)
      (fun element hmem => helements element (List.dropLast_subset _ hmem)) hresult

/-- A block makes a table, a table of an array, or goes on in a table that was only implied, and
    assigns to keys there. -/
theorem enter? {block : Block} {result : Entries}
    (hvalues : ∀ assignment ∈ block.assignments, assignment.2.Distinct)
    (h : DistinctEntries entries) (hresult : block.enter? entries = some result) :
    DistinctEntries result := by
  refine h.enterPath? (fun key entries result h hresult => ?_) hresult
  have hnext {inner entries : Entries} (h : DistinctEntries entries)
      (hinner : Toml.assignAll? block.assignments entries = some inner) : DistinctEntries inner :=
    h.assignAll? hvalues hinner
  split at hresult
  · split at hresult
    · next hlookup =>
      obtain ⟨inner, hinner, heq⟩ := Option.bind_eq_some_iff.1 hresult
      obtain rfl := Option.some.inj heq
      exact h.concat hlookup
        (.tables (List.forall_mem_singleton.2 (distinct_table_iff.2 (hnext nil hinner))))
    · next elements hlookup =>
      exact h.replace_last_next (fun _ => hnext nil) (h.of_lookup_tables hlookup) hresult
    · cases hresult
  · split at hresult
    · next hlookup => exact h.concat_next (fun _ => hnext nil) hlookup hresult
    · next inner hlookup =>
      exact h.replace_next (fun _ => hnext (h.of_lookup_table hlookup)) hresult
    · cases hresult

end DistinctEntries

/-! ## Values -/

open Reader

/-- A value that is no array and no table has no keys. -/
theorem yields_simpleValue : simpleValue.Yields Value.Distinct :=
  .orElse (.map (.of_forall .string)) <| .orElse (.map (.of_forall .moment)) <|
    .orElse (.map (.of_forall .float)) <| .orElse (.map (.of_forall .integer)) <|
      .orElse (.map (.of_forall .float)) (.map (.of_forall .boolean))

section Nested

variable {item : Reader Value} (h : item.Yields Value.Distinct)
include h

/-- The keys in an array are distinct if those in its items are. -/
theorem yields_arrayOf : (arrayOf item).Yields Value.Distinct := by
  have hitems : (separated (char ',') (spaceAndLines *> item <* spaceAndLines)).Yields
      fun items => ∀ v ∈ items, v.Distinct :=
    .separated _ ((h.seqRight _).seqLeft _)
  refine .after _ fun _ => .bind (.optional (hitems.bind fun items hitems => .after _ fun _ =>
    .pure hitems)) fun items hitems => .after _ fun _ => .after _ fun _ => .pure (.array ?_)
  cases items with
  | none => exact List.forall_mem_nil _
  | some items => exact hitems items rfl

/-- The keys of an inline table are distinct, as they are assigned to one after the other. -/
theorem yields_tableOf : (tableOf item).Yields Value.Distinct := by
  have hassignments : (separated (char ',') (do
      let key ← key
      let _ ← char '='
      let value ← blanks *> item <* blanks
      return (key, value))).Yields fun assignments =>
        ∀ assignment ∈ assignments, assignment.2.Distinct :=
    .separated _ (.after _ fun _ => .after _ fun _ =>
      ((h.seqRight _).seqLeft _).bind fun _ hvalue => .pure hvalue)
  refine .after _ fun _ => .bind (.optional hassignments) fun assignments hassignments =>
    .after _ fun _ => .after _ fun _ => ?_
  split
  · next entries hentries =>
    refine .pure (distinct_table_iff.2 (DistinctEntries.nil.assignAll? ?_ hentries))
    cases assignments with
    | none => exact List.forall_mem_nil _
    | some assignments => exact hassignments assignments rfl
  · exact .failure

end Nested

/-- The keys in a value are distinct, however deep it is nested, by induction on the depth that is
    left. -/
theorem yields_value (depth : Nat) : (value depth).Yields Value.Distinct := by
  induction depth with
  | zero => exact yields_simpleValue
  | succ depth ih =>
    exact .orElse yields_simpleValue (.orElse (yields_arrayOf ih) (yields_tableOf ih))

/-! ## Files -/

/-- The value of a line has distinct keys, if the line is an assignment. -/
def Line.Distinct : Line → Prop
  | .assignment _ value => value.Distinct
  | .header _ _ => True

/-- The keys in the value of an assignment are distinct. -/
theorem yields_line : line.Yields Line.Distinct :=
  .orElse (.seqLeft (.seqRight _ (.map (.of_forall fun _ => trivial))) _) <|
    .orElse (.seqLeft (.seqRight _ (.map (.of_forall fun _ => trivial))) _) <|
      .after _ fun _ => .after _ fun _ => ((yields_value maxDepth).seqRight _).bind fun _ hvalue =>
        .pure hvalue

theorem yields_lines (count : Nat) : (lines count).Yields fun ls => ∀ l ∈ ls, l.Distinct := by
  induction count with
  | zero => exact .failure
  | succ count ih =>
    refine .after get fun text => ?_
    split
    · exact .pure (List.forall_mem_nil _)
    · refine .after _ fun _ => yields_line.optional.bind fun first hfirst => .after _ fun _ =>
        ih.bind fun others hothers => .pure (List.forall_mem_append.2 ⟨fun l hl => ?_, hothers⟩)
      exact hfirst l (Option.mem_toList.1 hl)

/-- Sorting lines into blocks keeps their values. -/
theorem distinct_blocks {ls : List Line} (h : ∀ l ∈ ls, l.Distinct) :
    (∀ assignment ∈ (blocks ls).1, assignment.2.Distinct) ∧
      ∀ block ∈ (blocks ls).2, ∀ assignment ∈ block.assignments, assignment.2.Distinct := by
  induction ls with
  | nil => exact ⟨List.forall_mem_nil _, List.forall_mem_nil _⟩
  | cons l rest ih =>
    obtain ⟨hfirst, hrest⟩ := List.forall_mem_cons.1 h
    obtain ⟨hassignments, hblocks⟩ := ih hrest
    cases l with
    | assignment key value => exact ⟨List.forall_mem_cons.2 ⟨hfirst, hassignments⟩, hblocks⟩
    | header path further =>
      exact ⟨List.forall_mem_nil _, List.forall_mem_cons.2 ⟨hassignments, hblocks⟩⟩

/-- Blocks keep keys distinct one after the other. -/
theorem distinctEntries_of_foldlM_enter?_eq {blocks : List Block} {entries result : Entries}
    (hblocks : ∀ block ∈ blocks, ∀ assignment ∈ block.assignments, assignment.2.Distinct)
    (h : DistinctEntries entries)
    (hresult : blocks.foldlM (fun entries block => block.enter? entries) entries = some result) :
    DistinctEntries result := by
  induction blocks generalizing entries with
  | nil =>
    obtain rfl := Option.some.inj hresult
    exact h
  | cons block rest ih =>
    obtain ⟨hfirst, hrest⟩ := List.forall_mem_cons.1 hblocks
    obtain ⟨between, hbetween, hresult⟩ := Option.bind_eq_some_iff.1 hresult
    exact ih hrest (h.enter? hfirst hbetween) hresult

/-- The keys in a file are distinct. -/
theorem distinctEntries_of_read?_eq {text : String} {entries : Entries}
    (h : read? text = some entries) : DistinctEntries entries := by
  obtain ⟨ls, hlines, h⟩ := Option.bind_eq_some_iff.1 h
  obtain ⟨hassignments, hblocks⟩ := distinct_blocks ((yields_lines _).of_run?_eq hlines)
  obtain ⟨first, hfirst, h⟩ := Option.bind_eq_some_iff.1 h
  exact distinctEntries_of_foldlM_enter?_eq hblocks
    (DistinctEntries.nil.assignAll? hassignments hfirst) h

end Toml

end SceneCode
