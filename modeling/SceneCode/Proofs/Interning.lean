import Mathlib.Data.List.Basic
import Mathlib.Data.List.Induction
import SceneCode.Proofs.WellScoped

/-!
# Names of resources

Colours, paths, transforms, gradients, images and patterns (`Kind`) are each named by indices of
their own. Commands of different sorts may use resources of one kind (`DrawingCommand.entry?`). The
resources of a kind, in the order of their first use, are the distinct ones among those that the
commands use (`distinct`), and this is the table of that kind (`entries_afterAll`).

A command that uses a resource prints one name of its kind, by which the resource is referred to.
If the resource is new, its declaration comes before that (`Output.Uses`). So a table and the
declarations grow together, an index at a time (`range_append_declares_output`). Patterns are
declared in the preamble and all others in the body, so that the order is the same in the output of
a whole stream.

Names that are printed inside of closures are not counted here: the stream of a mask or a pattern
is a scope of its own, with names of its own.

* `names_foldl_render`: each resource is declared once, at its first use, and is referred to by the
  name with its index among the distinct resources at every use, and no other resource is.
-/

namespace SceneCode.Swift

/-! ## Kinds of resources -/

/-- The kinds of resources that are given names. -/
inductive Kind
  | color
  | path
  | transform
  | gradient
  | image
  | pattern
  deriving DecidableEq

/-- A resource that is given a name. -/
inductive Entry
  | color (color : Color)
  | path (path : Path)
  | transform (matrix : Affine Literal)
  | gradient (gradient : Gradient)
  | image (image : Image)
  | pattern (pattern : Pattern resources)
  deriving DecidableEq

def Entry.kind : Entry → Kind
  | color _ => .color
  | path _ => .path
  | transform _ => .transform
  | gradient _ => .gradient
  | image _ => .image
  | pattern _ => .pattern

/-- The resource that a command uses by its name. -/
def DrawingCommand.entry? : DrawingCommand resources → Option Entry
  | .transform (.matrix m) => some (.transform m)
  | .set (.fill c) => some (.color c)
  | .set (.fillPattern p) => some (.pattern p)
  | .set (.stroke c) => some (.color c)
  | .set (.clip p _) => some (.path p)
  | .mark (.stroke p) => some (.path p)
  | .mark (.fill p _) => some (.path p)
  | .mark (.image i _) => some (.image i)
  | .mark (.linearGradient g _ _) => some (.gradient g)
  | .mark (.radialGradient g _ _ _ _) => some (.gradient g)
  | _ => none

/-- The resources of a kind that are used by some commands, each where it is used first. -/
def distinct (κ : Kind) (commands : Drawing resources) : List Entry :=
  ((commands.filterMap DrawingCommand.entry?).filter (·.kind = κ)).eraseDups

/-- The table of a kind. -/
def Tables.entries (t : Tables) : Kind → List Entry
  | .color => t.colors.map .color
  | .path => t.paths.map .path
  | .transform => t.matrices.map .transform
  | .gradient => t.gradients.map .gradient
  | .image => t.images.map .image
  | .pattern => t.patterns.map .pattern

/-- The table of a kind with the resource of a command added, if that is of the kind. -/
def enterUsed (κ : Kind) (c : DrawingCommand resources) (table : List Entry) : List Entry :=
  match DrawingCommand.entry? c with
  | some r => if r.kind = κ then enter r table else table
  | none => table

/-- Patterns are used by pattern fills only. -/
theorem exists_fillPattern_of_kind_eq {c : DrawingCommand resources} {r : Entry}
    (h : DrawingCommand.entry? c = some r) (hr : r.kind = .pattern) :
    ∃ p, c = .set (.fillPattern p) := by
  match c with
  | .set (.fillPattern p) => exact ⟨p, rfl⟩
  | .transform (.matrix _) | .set (.fill _) | .set (.stroke _) | .set (.clip _ _)
  | .mark (.stroke _) | .mark (.fill _ _) | .mark (.image _ _) | .mark (.linearGradient _ _ _)
  | .mark (.radialGradient _ _ _ _ _) =>
    obtain rfl := Option.some.inj h
    cases hr

/-! ## Tables -/

section Enter

variable {α β : Type} [DecidableEq α] [DecidableEq β]

/-- Entering one after the other keeps the first of equals, as `List.eraseDups` does. -/
theorem eraseDups_concat (a : α) (l : List α) : (l ++ [a]).eraseDups = enter a l.eraseDups := by
  rw [List.eraseDups_append]
  by_cases h : a ∈ l
  · rw [enter_of_mem (List.mem_eraseDups.2 h)]
    simp [List.removeAll, h]
  · rw [enter_of_not_mem fun hmem => h (List.mem_eraseDups.1 hmem)]
    simp [List.removeAll, h, List.eraseDups_cons]

/-- A table never has a resource twice. -/
theorem nodup_enter {table : List α} (h : table.Nodup) (a : α) : (enter a table).Nodup := by
  by_cases ha : a ∈ table
  · rwa [enter_of_mem ha]
  · rw [enter_of_not_mem ha]
    exact List.nodup_append.2 ⟨h, List.pairwise_singleton _ a, fun b hb d hd heq =>
      ha (List.mem_singleton.1 hd ▸ heq ▸ hb)⟩

theorem nodup_eraseDups (l : List α) : l.eraseDups.Nodup := by
  induction l using List.reverseRecOn with
  | nil => exact List.nodup_nil
  | append_singleton l a ih =>
    rw [eraseDups_concat]
    exact nodup_enter ih a

variable {g : α → β} (hg : Function.Injective g)
include hg

/-- Tables of one kind are compared within the kind. -/
theorem map_enter (a : α) (table : List α) :
    (enter a table).map g = enter (g a) (table.map g) := by
  by_cases h : a ∈ table
  · rw [enter_of_mem h, enter_of_mem (List.mem_map_of_mem h)]
  · rw [enter_of_not_mem h, enter_of_not_mem fun hmem => h ((List.mem_map_of_injective hg).1 hmem),
      List.map_append]
    rfl

theorem idxOf_map (a : α) (table : List α) : (table.map g).idxOf (g a) = table.idxOf a := by
  induction table with
  | nil => rfl
  | cons b table ih =>
    rw [List.map_cons, List.idxOf_cons, List.idxOf_cons, ih]
    by_cases h : b = a
    · rw [h, beq_self_eq_true, beq_self_eq_true]
    · rw [beq_false_of_ne h, beq_false_of_ne fun heq => h (hg heq)]

end Enter

/-- The resource of a command is entered into the table of its kind. -/
theorem enterUsed_of_kind_eq {κ : Kind} {c : DrawingCommand resources} {r : Entry}
    (h : DrawingCommand.entry? c = some r) (hr : r.kind = κ) (table : List Entry) :
    enterUsed κ c table = enter r table := by
  simp only [enterUsed, h, hr, if_true]

/-- All other tables stay as they are. -/
theorem enterUsed_of_kind_ne {κ : Kind} {c : DrawingCommand resources}
    (h : ∀ r, DrawingCommand.entry? c = some r → r.kind ≠ κ) (table : List Entry) :
    enterUsed κ c table = table := by
  cases hc : DrawingCommand.entry? c with
  | none => simp only [enterUsed, hc]
  | some r => simp only [enterUsed, hc, h r hc, if_false]

/-- One more command enters its resource, if it has one of the kind. -/
theorem distinct_concat (κ : Kind) (commands : Drawing resources) (c : DrawingCommand resources) :
    distinct κ (commands ++ [c]) = enterUsed κ c (distinct κ commands) := by
  cases h : DrawingCommand.entry? c with
  | none => simp [distinct, enterUsed, h]
  | some r =>
    by_cases hr : r.kind = κ
    · simp [distinct, enterUsed, h, hr, eraseDups_concat]
    · simp [distinct, enterUsed, h, hr]

theorem nodup_distinct (κ : Kind) (commands : Drawing resources) : (distinct κ commands).Nodup :=
  nodup_eraseDups _

/-- What comes later is entered later. -/
theorem distinct_prefix_append (κ : Kind) (first second : Drawing resources) :
    distinct κ first <+: distinct κ (first ++ second) := by
  simp only [distinct, List.filterMap_append, List.filter_append, List.eraseDups_append]
  exact List.prefix_append _ _

section Indices

variable {κ : Kind} {c : DrawingCommand resources} {r : Entry}

/-- A resource that is used stands at its index from then on. -/
theorem getElem?_distinct_concat (h : DrawingCommand.entry? c = some r) (hr : r.kind = κ)
    (before : Drawing resources) :
    (distinct κ (before ++ [c]))[(distinct κ before).idxOf r]? = some r := by
  rw [distinct_concat, enterUsed_of_kind_eq h hr]
  exact getElem?_idxOf_enter r (distinct κ before)

/-- Later commands do not change the index of a resource. -/
theorem getElem?_distinct_append_cons (h : DrawingCommand.entry? c = some r) (hr : r.kind = κ)
    (before after : Drawing resources) :
    (distinct κ (before ++ c :: after))[(distinct κ before).idxOf r]? = some r := by
  have hprefix := distinct_prefix_append κ (before ++ [c]) after
  rw [List.append_assoc] at hprefix
  obtain ⟨hlt, hget⟩ := List.getElem?_eq_some_iff.1 (getElem?_distinct_concat h hr before)
  exact (List.prefix_iff_getElem?.1 hprefix _ hlt).trans (congrArg some hget)

end Indices

namespace Tables

variable (t : Tables)

/-- The tables after a resource has been used. -/
def enterEntry : Entry → Tables
  | .color c => t.enterColor c
  | .path p => t.enterPath p
  | .transform m => t.enterMatrix m
  | .gradient g => t.enterGradient g
  | .image i => t.enterImage i
  | .pattern p => t.enterPattern p

theorem enterColor_eq (c : Color) :
    t.enterColor c = { t with spaces := (t.enterColor c).spaces, colors := enter c t.colors } := by
  by_cases h : c ∈ t.colors
  · rw [enterColor, if_pos h, enter_of_mem h]
  · rw [enterColor, if_neg h, enter_of_not_mem h]

theorem enterGradient_eq (g : Gradient) :
    t.enterGradient g =
      { t with spaces := (t.enterGradient g).spaces, gradients := enter g t.gradients } := by
  by_cases h : g ∈ t.gradients
  · rw [enterGradient, if_pos h, enter_of_mem h]
  · rw [enterGradient, if_neg h, enter_of_not_mem h]

/-- Entering a resource changes the table of its kind only. -/
theorem entries_enterEntry (r : Entry) (κ : Kind) :
    (t.enterEntry r).entries κ = if r.kind = κ then enter r (t.entries κ) else t.entries κ := by
  cases r with
  | color c =>
    rw [enterEntry, enterColor_eq]
    cases κ <;> first | exact map_enter (fun _ _ => Entry.color.inj) c t.colors | rfl
  | path p => cases κ <;> first | exact map_enter (fun _ _ => Entry.path.inj) p t.paths | rfl
  | transform m =>
    cases κ <;> first | exact map_enter (fun _ _ => Entry.transform.inj) m t.matrices | rfl
  | gradient g =>
    rw [enterEntry, enterGradient_eq]
    cases κ <;> first | exact map_enter (fun _ _ => Entry.gradient.inj) g t.gradients | rfl
  | image i => cases κ <;> first | exact map_enter (fun _ _ => Entry.image.inj) i t.images | rfl
  | pattern p =>
    cases κ <;> first | exact map_enter (fun _ _ => Entry.pattern.inj) p t.patterns | rfl

/-- A command enters the resource that it uses. -/
theorem entries_after (c : DrawingCommand resources) (κ : Kind) :
    (t.after (drawCommand c)).entries κ = enterUsed κ c (t.entries κ) := by
  match c with
  | .transform (.matrix m) => exact t.entries_enterEntry (.transform m) κ
  | .set (.fill c) | .set (.stroke c) => exact t.entries_enterEntry (.color c) κ
  | .set (.fillPattern (.of tile contents)) =>
    exact t.entries_enterEntry (.pattern (.of tile contents)) κ
  | .set (.clip p _) | .mark (.stroke p) | .mark (.fill p _) =>
    exact t.entries_enterEntry (.path p) κ
  | .mark (.image i _) => exact t.entries_enterEntry (.image i) κ
  | .mark (.linearGradient g _ _) | .mark (.radialGradient g _ _ _ _) =>
    exact t.entries_enterEntry (.gradient g) κ
  | .set (.clipMask _ _) => cases κ <;> rfl
  | .push _ | .pop _ | .transform (.translate _ _) | .transform (.scale _ _)
  | .transform (.rotate _) | .set (.lineWidth _) | .set (.lineCap _) | .set (.lineJoin _)
  | .set (.miterLimit _) | .set (.alpha _) | .set (.blendMode _) => rfl

/-- The table of a kind has the distinct resources that have been used. -/
theorem entries_afterAll (commands : Drawing resources) (κ : Kind) :
    (afterAll {} (drawAll commands)).entries κ = distinct κ commands := by
  induction commands using List.reverseRecOn with
  | nil => cases κ <;> rfl
  | append_singleton commands c ih =>
    have hlast : drawAll (commands ++ [c]) = drawAll commands ++ [drawCommand c] := by
      simp [drawAll_eq_map]
    rw [hlast, afterAll_append, distinct_concat, ← ih]
    exact entries_after _ c κ

end Tables

/-! ## Names on the lines of a scope -/

namespace Kind

/-- The family of the names of a kind. -/
def family : Kind → Family
  | color => .color
  | path => .path
  | transform => .transform
  | gradient => .gradient
  | image => .image
  | pattern => .pattern

/-- The name of the resource with an index. -/
def name (κ : Kind) (k : Nat) : Name := .numbered κ.family k

/-- The index of a name of the kind. -/
def index? (κ : Kind) : Name → Option Nat
  | .numbered family k => if family = κ.family then some k else none
  | _ => none

/-- The indices of the names of the kind that are declared by some statements, on lines of their
    own scope. -/
def declares (κ : Kind) (ss : List Statement) : List Nat :=
  (declared (Statement.allCode ss)).filterMap κ.index?

/-- The indices of the names of the kind that some statements refer to, on lines of their own
    scope. -/
def refers (κ : Kind) (ss : List Statement) : List Nat :=
  ((Statement.allCode ss).flatMap Code.refers).filterMap κ.index?

/-- The index of a name can be read off its text. -/
theorem index?_eq_some_iff {κ : Kind} {n : Name} {k : Nat} :
    κ.index? n = some k ↔ n.text = (κ.name k).text := by
  rw [Name.text_injective.eq_iff, name]
  cases n with
  | numbered f j => by_cases hf : f = κ.family <;> simp [index?, hf]
  | space _ | patternAlpha | context => simp [index?]

theorem declares_append (κ : Kind) (first second : List Statement) :
    κ.declares (first ++ second) = κ.declares first ++ κ.declares second := by
  rw [declares, Statement.allCode_append, declared_append, List.filterMap_append]
  rfl

theorem refers_append (κ : Kind) (first second : List Statement) :
    κ.refers (first ++ second) = κ.refers first ++ κ.refers second := by
  rw [refers, Statement.allCode_append, List.flatMap_append, List.filterMap_append]
  rfl

end Kind

/-- Of the names of all kinds, the statements declare none, and refer to the given ones. -/
structure RefersOnly (ss : List Statement) (indices : Kind → List Nat) : Prop where
  declares (κ : Kind) : κ.declares ss = []
  refers (κ : Kind) : κ.refers ss = indices κ

/-- The statements have nothing to do with names of any kind. -/
abbrev Nameless (ss : List Statement) : Prop := RefersOnly ss fun _ => []

theorem nameless_nil : Nameless [] := ⟨fun _ => rfl, fun _ => rfl⟩

/-- Statements without names may come first. -/
theorem Nameless.append {first second : List Statement} {indices : Kind → List Nat}
    (h : Nameless first) (h' : RefersOnly second indices) : RefersOnly (first ++ second) indices :=
  ⟨fun κ => by rw [κ.declares_append, h.declares, h'.declares, List.append_nil],
    fun κ => by rw [κ.refers_append, h.refers, h'.refers, List.nil_append]⟩

/-- Spaces have names without numbers. -/
theorem Tables.nameless_declareSpace (t : Tables) (s : ColorSpace) :
    Nameless (t.declareSpace s) := by
  rw [declareSpace]
  split
  · exact nameless_nil
  · cases s <;> exact ⟨fun κ => by cases κ <;> rfl, fun κ => by cases κ <;> rfl⟩

/-- Calls declare nothing. -/
theorem Kind.declares_calls (κ : Kind) (calls : List Call) : κ.declares (calls.map .call) = [] := by
  induction calls with
  | nil => rfl
  | cons c rest ih =>
    have hcall : κ.declares [.call c] = [] := by
      rw [Kind.declares, Statement.allCode_singleton, Statement.code, declared_line,
        c.declares_line]
      rfl
    rw [List.map_cons, ← List.singleton_append, κ.declares_append, hcall, ih, List.append_nil]

theorem refersOnly_calls (calls : List Call) {indices : Kind → List Nat}
    (h : ∀ κ : Kind, κ.refers (calls.map .call) = indices κ) :
    RefersOnly (calls.map .call) indices :=
  ⟨fun κ => κ.declares_calls calls, h⟩

/-! ## Declarations -/

namespace Entry

/-- The statements that declare a resource. -/
def declaration (k : Nat) : Entry → List Statement
  | color c => [.color k c]
  | path p => .path k :: p.steps.map (.extendPath k)
  | transform m => [.transform k m]
  | gradient g => [.locations k g.locations, .gradient k g.colors]
  | image i => [.image k i]
  | pattern p => Tables.patternStatements k (drawPattern p)

variable (k : Nat) (κ : Kind)

theorem declares_extendPath (steps : List PathStep) :
    κ.declares (steps.map (.extendPath k)) = [] := by
  induction steps with
  | nil => rfl
  | cons step rest ih =>
    have hstep : κ.declares [.extendPath k step] = [] := by cases κ <;> rfl
    rw [List.map_cons, ← List.singleton_append, κ.declares_append, hstep, ih, List.append_nil]

/-- The steps of a path refer to that path and to nothing else. -/
theorem refers_extendPath (steps : List PathStep) :
    ∀ j ∈ κ.refers (steps.map (.extendPath k)), κ = .path ∧ j = k := by
  induction steps with
  | nil => exact List.forall_mem_nil _
  | cons step rest ih =>
    have hstep : ∀ j ∈ κ.refers [.extendPath k step], κ = .path ∧ j = k := by
      cases κ with
      | path => exact List.forall_mem_singleton.2 ⟨rfl, rfl⟩
      | _ => exact List.forall_mem_nil _
    rw [List.map_cons, ← List.singleton_append, κ.refers_append]
    exact List.forall_mem_append.2 ⟨hstep, ih⟩

/-- A resource declares one name of its own kind. -/
theorem declares_declaration (r : Entry) :
    κ.declares (r.declaration k) = if κ = r.kind then [k] else [] := by
  cases r with
  | path p =>
    have hpath : κ.declares [.path k] = if κ = .path then [k] else [] := by cases κ <;> rfl
    rw [declaration, ← List.singleton_append, κ.declares_append, hpath, declares_extendPath,
      List.append_nil]
    rfl
  | gradient g =>
    obtain ⟨content, hcode, hdeclares, _⟩ := names_gradient k g.colors
    rw [declaration, Kind.declares, Statement.allCode, Statement.allCode_singleton, hcode,
      declared_append, declared_line, hdeclares]
    cases κ <;> rfl
  | color _ | transform _ | image _ | pattern _ => cases κ <;> rfl

/-- The declaration of a resource refers to no other one of its kind. -/
theorem refers_declaration (r : Entry) :
    ∀ j ∈ κ.refers (r.declaration k), κ = r.kind ∧ j = k := by
  cases r with
  | path p =>
    have hpath : κ.refers [.path k] = [] := by cases κ <;> rfl
    rw [declaration, ← List.singleton_append, κ.refers_append, hpath]
    exact refers_extendPath k κ p.steps
  | gradient g =>
    obtain ⟨content, hcode, _, hrefers⟩ := names_gradient k g.colors
    have hspaces : ∀ n ∈ Line.refers content, κ.index? n = none := by
      rw [hrefers]
      simp only [List.mem_append, List.mem_cons, List.mem_map, List.not_mem_nil, or_false]
      rintro n ((rfl | ⟨c, _, rfl⟩) | rfl)
      · rfl
      · rfl
      · cases κ <;> rfl
    have hgradient : κ.refers [.gradient k g.colors] = [] := by
      rw [Kind.refers, Statement.allCode_singleton, hcode]
      exact List.filterMap_eq_nil_iff.2 fun n hn => hspaces n (by simpa [Code.refers] using hn)
    have hlocations : κ.refers [.locations k g.locations] = [] := by cases κ <;> rfl
    rw [declaration, ← List.singleton_append, κ.refers_append, hlocations, hgradient]
    exact List.forall_mem_nil _
  | color _ | transform _ | image _ | pattern _ => cases κ <;> exact List.forall_mem_nil _

end Entry

/-- The output refers to a resource by the name with an index. If the resource is new, it is
    declared before that. -/
def Output.Uses (o : Output) (r : Entry) (k : Nat) (new : Prop) [Decidable new] : Prop :=
  ∃ before after, o.statements = before ++ (if new then r.declaration k else []) ++ after ∧
    Nameless before ∧ RefersOnly after fun κ => if κ = r.kind then [k] else []

/-! ## Commands -/

namespace Tables

variable (t : Tables)

/-- What declares a resource and refers to it after that, uses it. -/
theorem uses_of_statements {α : Type} [DecidableEq α] {g : α → Entry}
    (hg : Function.Injective g) {a : α} {table : List α}
    (htable : t.entries (g a).kind = table.map g) {o : Output} {before after : List Statement}
    (ho : o.statements =
      (if a ∈ table then [] else before ++ (g a).declaration table.length) ++ after)
    (hbefore : Nameless before)
    (hafter : RefersOnly after fun κ => if κ = (g a).kind then [table.idxOf a] else []) :
    o.Uses (g a) ((t.entries (g a).kind).idxOf (g a)) (g a ∉ t.entries (g a).kind) := by
  rw [htable, idxOf_map hg]
  have hmem : g a ∈ table.map g ↔ a ∈ table := List.mem_map_of_injective hg
  by_cases h : a ∈ table
  · refine ⟨[], after, ?_, nameless_nil, hafter⟩
    rw [ho, if_pos h, if_neg (not_not_intro (hmem.2 h))]
    rfl
  · refine ⟨before, after, ?_, hbefore, hafter⟩
    rw [ho, if_neg h, if_pos fun hm => h (hmem.1 hm), List.idxOf_eq_length h]

/-- A command uses its resource, by the name with its index in the table. -/
theorem uses_output (c : DrawingCommand resources) (r : Entry)
    (h : DrawingCommand.entry? c = some r) :
    (t.output (drawCommand c)).Uses r ((t.entries r.kind).idxOf r) (r ∉ t.entries r.kind) := by
  match c with
  | .transform (.matrix m) =>
    obtain rfl := Option.some.inj h
    exact t.uses_of_statements (fun _ _ => Entry.transform.inj) rfl rfl nameless_nil
      (refersOnly_calls [_] fun κ => by cases κ <;> rfl)
  | .set (.fill c) | .set (.stroke c) =>
    obtain rfl := Option.some.inj h
    exact t.uses_of_statements (fun _ _ => Entry.color.inj) rfl rfl
      (t.nameless_declareSpace c.space) (refersOnly_calls [_] fun κ => by cases κ <;> rfl)
  | .set (.fillPattern (.of tile contents)) =>
    obtain rfl := Option.some.inj h
    -- The declaration is in the preamble, and that of the space comes after it.
    exact t.uses_of_statements (fun _ _ => Entry.pattern.inj) rfl rfl nameless_nil
      ((t.nameless_declareSpace .pattern).append
        (refersOnly_calls [_, _] fun κ => by cases κ <;> rfl))
  | .set (.clip p _) | .mark (.stroke p) | .mark (.fill p _) =>
    obtain rfl := Option.some.inj h
    exact t.uses_of_statements (fun _ _ => Entry.path.inj) rfl rfl nameless_nil
      (refersOnly_calls [_, _] fun κ => by cases κ <;> rfl)
  | .mark (.image i _) =>
    obtain rfl := Option.some.inj h
    exact t.uses_of_statements (fun _ _ => Entry.image.inj) rfl rfl nameless_nil
      (refersOnly_calls [_] fun κ => by cases κ <;> rfl)
  | .mark (.linearGradient g _ _) | .mark (.radialGradient g _ _ _ _) =>
    obtain rfl := Option.some.inj h
    exact t.uses_of_statements (fun _ _ => Entry.gradient.inj) rfl rfl
      (t.nameless_declareSpace .rgb) (refersOnly_calls [_] fun κ => by cases κ <;> rfl)
  | .set (.clipMask _ _) | .push _ | .pop _ | .transform (.translate _ _)
  | .transform (.scale _ _) | .transform (.rotate _) | .set (.lineWidth _) | .set (.lineCap _)
  | .set (.lineJoin _) | .set (.miterLimit _) | .set (.alpha _) | .set (.blendMode _) => cases h

/-- A command without a resource prints no name of any kind. -/
theorem nameless_output (c : DrawingCommand resources) (h : DrawingCommand.entry? c = none) :
    Nameless (t.output (drawCommand c)).statements := by
  match c with
  | .transform (.matrix _) | .set (.fill _) | .set (.fillPattern _) | .set (.stroke _)
  | .set (.clip _ _) | .mark (.stroke _) | .mark (.fill _ _) | .mark (.image _ _)
  | .mark (.linearGradient _ _ _) | .mark (.radialGradient _ _ _ _ _) => cases h
  | .set (.clipMask (.of _ _) _) =>
    exact ⟨fun κ => by cases κ <;> rfl, fun κ => by cases κ <;> rfl⟩
  | .push bracket | .pop bracket =>
    cases bracket <;> exact refersOnly_calls [_] fun κ => by cases κ <;> rfl
  | .transform (.translate _ _) | .transform (.scale _ _) | .transform (.rotate _)
  | .set (.lineWidth _) | .set (.lineCap _) | .set (.lineJoin _) | .set (.miterLimit _)
  | .set (.alpha _) | .set (.blendMode _) =>
    exact refersOnly_calls [_] fun κ => by cases κ <;> rfl

end Tables

namespace Output

variable {o : Output} {r : Entry} {k : Nat} {new : Prop} [Decidable new]

/-- What uses a resource declares it if it is new, and declares nothing else. -/
theorem Uses.declares (h : o.Uses r k new) (κ : Kind) :
    κ.declares o.statements = if κ = r.kind ∧ new then [k] else [] := by
  obtain ⟨before, after, ho, hbefore, hafter⟩ := h
  rw [ho, κ.declares_append, κ.declares_append, hbefore.declares, hafter.declares,
    List.nil_append, List.append_nil]
  by_cases hnew : new
  · simp only [hnew, if_true, and_true, r.declares_declaration]
  · rw [if_neg hnew, if_neg fun h => hnew h.2]
    rfl

/-- All names in what uses a resource are the name of that resource. -/
theorem Uses.eq_of_mem (h : o.Uses r k new) {κ : Kind} {j : Nat}
    (hj : j ∈ κ.declares o.statements ++ κ.refers o.statements) : κ = r.kind ∧ j = k := by
  rw [h.declares, List.mem_append] at hj
  rcases hj with hj | hj
  · split at hj
    · exact ⟨‹κ = r.kind ∧ new›.1, List.mem_singleton.1 hj⟩
    · cases hj
  · obtain ⟨before, after, ho, hbefore, hafter⟩ := h
    rw [ho, κ.refers_append, κ.refers_append, hbefore.refers, hafter.refers, List.nil_append,
      List.mem_append] at hj
    rcases hj with hj | hj
    · split at hj
      · exact r.refers_declaration k κ j hj
      · cases hj
    · split at hj
      · exact ⟨‹κ = r.kind›, List.mem_singleton.1 hj⟩
      · cases hj

end Output

/-! ## Streams -/

namespace Output

/-- Patterns are declared in the preamble only, and all other resources in the body only. -/
structure Placed (o : Output) : Prop where
  body : Kind.pattern.declares o.body = []
  preamble : ∀ κ ≠ Kind.pattern, κ.declares o.preamble = []

theorem placed_empty : Placed {} := ⟨rfl, fun _ _ => rfl⟩

variable {o p : Output}

/-- Declarations stay in their places. -/
theorem Placed.append (ho : o.Placed) (hp : p.Placed) : (o ++ p).Placed where
  body := by
    have happend : (o ++ p).body = o.body ++ p.body := rfl
    rw [happend, Kind.declares_append, ho.body, hp.body, List.append_nil]
  preamble κ hκ := by
    have happend : (o ++ p).preamble = o.preamble ++ p.preamble := rfl
    rw [happend, Kind.declares_append, ho.preamble κ hκ, hp.preamble κ hκ, List.append_nil]

/-- Although the preambles are put together, the order of declarations is that of the outputs. -/
theorem Placed.declares_append (ho : o.Placed) (hp : p.Placed) (κ : Kind) :
    κ.declares (o ++ p).statements = κ.declares o.statements ++ κ.declares p.statements := by
  have happend : (o ++ p).statements = (o.preamble ++ p.preamble) ++ (o.body ++ p.body) := rfl
  rw [happend, statements, statements]
  simp only [κ.declares_append]
  by_cases hκ : κ = .pattern
  · subst hκ
    simp [ho.body, hp.body]
  · simp [ho.preamble κ hκ, hp.preamble κ hκ]

end Output

namespace Tables

variable (t : Tables) (κ : Kind)

/-- Only a pattern has a preamble, where it is declared. -/
theorem placed_output (c : DrawingCommand resources) : (t.output (drawCommand c)).Placed := by
  by_cases hc : ∃ p, c = .set (.fillPattern p)
  · obtain ⟨p, rfl⟩ := hc
    refine ⟨?_, fun κ hκ => ?_⟩
    · exact ((t.nameless_declareSpace .pattern).append
        (refersOnly_calls [_, _] fun _ => rfl)).declares .pattern
    · have hpreamble : (t.output (drawCommand (.set (.fillPattern p)))).preamble =
          if p ∈ t.patterns then [] else (Entry.pattern p).declaration t.patterns.length := by
        cases p
        rfl
      rw [hpreamble]
      split
      · rfl
      · rw [Entry.declares_declaration]
        exact if_neg hκ
  · have hfree : PatternFree (drawCommand c) :=
      patternFree (drawCommand_ne_fillPattern fun p hp => hc ⟨p, hp⟩)
    refine ⟨?_, fun κ _ => by rw [hfree.preamble_output]; rfl⟩
    have hbody : (t.output (drawCommand c)).body = (t.output (drawCommand c)).statements := by
      rw [Output.statements, hfree.preamble_output, List.nil_append]
    rw [hbody]
    cases hentry : DrawingCommand.entry? c with
    | none => exact (t.nameless_output c hentry).declares .pattern
    | some r =>
      rw [(t.uses_output c r hentry).declares]
      exact if_neg fun h => hc (exists_fillPattern_of_kind_eq hentry h.1.symm)

/-- In the whole output of a stream, the declarations are in their places. -/
theorem placed_outputAll (commands : Drawing resources) :
    (t.outputAll (drawAll commands)).Placed := by
  induction commands generalizing t with
  | nil => exact Output.placed_empty
  | cons c rest ih => exact (t.placed_output c).append (ih (t.after (drawCommand c)))

/-- Declarations have the next index of the table to which the command adds. -/
theorem range_append_declares_output (c : DrawingCommand resources) :
    List.range (t.entries κ).length ++ κ.declares (t.output (drawCommand c)).statements =
      List.range ((t.after (drawCommand c)).entries κ).length := by
  rw [t.entries_after]
  cases h : DrawingCommand.entry? c with
  | none =>
    have hnone : ∀ r, DrawingCommand.entry? c = some r → r.kind ≠ κ := by simp [h]
    rw [(t.nameless_output c h).declares, List.append_nil, enterUsed_of_kind_ne hnone]
  | some r =>
    rw [(t.uses_output c r h).declares]
    by_cases hκ : r.kind = κ
    · subst hκ
      rw [enterUsed_of_kind_eq h rfl]
      by_cases hr : r ∈ t.entries r.kind
      · rw [if_neg fun h => h.2 hr, List.append_nil, enter_of_mem hr]
      · rw [if_pos ⟨rfl, hr⟩, enter_of_not_mem hr, List.idxOf_eq_length hr, List.length_append,
          List.length_singleton, List.range_succ]
    · have hother : ∀ r, DrawingCommand.entry? c = some r → r.kind ≠ κ := by simp [h, hκ]
      rw [if_neg fun h => hκ h.1.symm, List.append_nil, enterUsed_of_kind_ne hother]

/-- The indices that are declared continue those that were in use, without a gap and in order. -/
theorem range_append_declares_outputAll (commands : Drawing resources) :
    List.range (t.entries κ).length ++ κ.declares (t.outputAll (drawAll commands)).statements =
      List.range ((t.afterAll (drawAll commands)).entries κ).length := by
  induction commands generalizing t with
  | nil => exact List.append_nil _
  | cons c rest ih =>
    have hdeclares := (t.placed_output c).declares_append
      ((t.after (drawCommand c)).placed_outputAll rest) κ
    calc List.range (t.entries κ).length ++
          κ.declares (t.outputAll (drawAll (c :: rest))).statements
        = List.range (t.entries κ).length ++ (κ.declares (t.output (drawCommand c)).statements ++
            κ.declares ((t.after (drawCommand c)).outputAll (drawAll rest)).statements) :=
          congrArg (_ ++ ·) hdeclares
      _ = List.range ((t.after (drawCommand c)).entries κ).length ++
            κ.declares ((t.after (drawCommand c)).outputAll (drawAll rest)).statements := by
          rw [← List.append_assoc, range_append_declares_output]
      _ = List.range ((t.afterAll (drawAll (c :: rest))).entries κ).length :=
          ih (t.after (drawCommand c))

end Tables

/-! ## Renderings -/

/-- The names that some statements declare or refer to, on lines of their own scope. -/
def Statement.names (ss : List Statement) : List Name :=
  declared (Statement.allCode ss) ++ (Statement.allCode ss).flatMap Code.refers

/-- Which resource a text names does not depend on where the text stands. -/
theorem mem_indices_of_text_eq {ss : List Statement} {n : Name} (hn : n ∈ Statement.names ss)
    {κ : Kind} {k : Nat} (h : n.text = (κ.name k).text) : k ∈ κ.declares ss ++ κ.refers ss := by
  rw [Kind.declares, Kind.refers, ← List.filterMap_append]
  exact List.mem_filterMap.2 ⟨n, hn, Kind.index?_eq_some_iff.2 h⟩

/-- Of the names of resources, a command prints that of its own only. -/
theorem exists_entry?_of_text_eq (t : Tables) {c : DrawingCommand resources} {n : Name}
    (hn : n ∈ Statement.names (t.output (drawCommand c)).statements) {κ : Kind} {k : Nat}
    (h : n.text = (κ.name k).text) :
    ∃ r, DrawingCommand.entry? c = some r ∧ r.kind = κ ∧ (t.entries κ).idxOf r = k := by
  have hmem := mem_indices_of_text_eq hn h
  cases hentry : DrawingCommand.entry? c with
  | none =>
    have hnone := t.nameless_output c hentry
    rw [hnone.declares, hnone.refers] at hmem
    cases hmem
  | some r =>
    obtain ⟨rfl, rfl⟩ := (t.uses_output c r hentry).eq_of_mem hmem
    exact ⟨r, rfl, rfl, rfl⟩

theorem output_render (commands : Drawing resources) :
    (Rendering.render {} commands).output = Tables.outputAll {} (drawAll commands) :=
  rfl

/-- What a command adds to the output after some commands. -/
theorem output_render_concat (before : Drawing resources) (c : DrawingCommand resources) :
    (Rendering.render {} (before ++ [c])).output = (Rendering.render {} before).output ++
      (Tables.afterAll {} (drawAll before)).output (drawCommand c) := by
  have hlast : drawAll (before ++ [c]) = drawAll before ++ [drawCommand c] := by
    simp [drawAll_eq_map]
  have hsingle (t : Tables) : t.outputAll [drawCommand c] = t.output (drawCommand c) :=
    (Output.mk.injEq ..).mpr ⟨List.append_nil _, List.append_nil _⟩
  rw [output_render, output_render, hlast, Tables.outputAll_append, hsingle]

/-- However often streams have been rendered, the distinct resources of a kind are declared in the
    order of their first use, each once and with the next index. What a command adds to the output
    uses its resource by that index, which is in the table by then, and declares it just if no
    command before has used it. No name of a resource is printed for another one. -/
theorem names_foldl_render (renders : List (Drawing resources)) (κ : Kind) :
    (distinct κ renders.flatten).Nodup ∧
      (renders.foldl Rendering.render {}).tables.entries κ = distinct κ renders.flatten ∧
      κ.declares (renders.foldl Rendering.render {}).output.statements =
        List.range (distinct κ renders.flatten).length ∧
      ∀ before c after, renders.flatten = before ++ c :: after → ∃ o rest : Output,
        (Rendering.render {} (before ++ [c])).output = (Rendering.render {} before).output ++ o ∧
          (renders.foldl Rendering.render {}).output =
            (Rendering.render {} (before ++ [c])).output ++ rest ∧
          (∀ r, DrawingCommand.entry? c = some r → r.kind = κ → ∃ k,
            (distinct κ renders.flatten)[k]? = some r ∧
              ((Rendering.render {} (before ++ [c])).tables.entries κ)[k]? = some r ∧
              o.Uses r k (r ∉ distinct κ before)) ∧
          ∀ n ∈ Statement.names o.statements, ∀ k, n.text = (κ.name k).text →
            ∃ r, DrawingCommand.entry? c = some r ∧
              (distinct κ renders.flatten)[k]? = some r := by
  have hentries (commands : Drawing resources) := Tables.entries_afterAll commands κ
  have hrange := Tables.range_append_declares_outputAll {} κ renders.flatten
  rw [hentries] at hrange
  rw [foldl_render]
  refine ⟨nodup_distinct κ _, hentries _, ?_, fun before c after h => ?_⟩
  · cases κ <;> exact hrange
  -- The command meets the table of what has been used before it, and adds its own resource to it.
  have hbefore := hentries before
  have hconcat := hentries (before ++ [c])
  refine ⟨(Tables.afterAll {} (drawAll before)).output (drawCommand c),
    (Tables.afterAll {} (drawAll (before ++ [c]))).outputAll (drawAll after),
    output_render_concat before c, ?_, fun r hr hκ => ?_, fun n hn k hk => ?_⟩
  · have hcommands : renders.flatten = before ++ [c] ++ after := by
      rw [h, List.append_assoc]
      rfl
    rw [hcommands, output_render, drawAll_eq_map, List.map_append, ← drawAll_eq_map,
      ← drawAll_eq_map]
    exact Tables.outputAll_append {} _ _
  · have huses := (Tables.afterAll {} (drawAll before)).uses_output c r hr
    have hfinal := getElem?_distinct_append_cons hr hκ before after
    have hfound := getElem?_distinct_concat hr hκ before
    subst hκ
    simp only [hbefore] at huses
    exact ⟨_, h ▸ hfinal, hconcat ▸ hfound, huses⟩
  · obtain ⟨r, hr, hκ, rfl⟩ := exists_entry?_of_text_eq _ hn hk
    rw [h, hbefore]
    exact ⟨r, hr, getElem?_distinct_append_cons hr hκ before after⟩

end SceneCode.Swift
